import SpsAssembler.Proofs.Operands

/-!
# Noted references

Every symbol keeps the lines that refer to it. An operand notes its line for the keys that it looks
up and for nothing else, and if it raises no error it notes it for all of them.

* `LineSet.mem_insert`, `SymbolTable.Refers`: the lines that are noted for a key;
* `SymbolTable.Touches`, `SymbolTable.Marks`: references on a line, in general and without an error;
* `SymbolTable.Marks.absorb`: references made twice;
* `evaluateIn_touches`, **`evaluateIn_marks`**: one operand.
-/

namespace SpsAssembler

/-! ## Sets of lines -/

namespace LineSet

theorem toList_lower (n : Word) (before behind : List Word) :
    (lower n before behind).toList = before.reverse ++ behind := by
  induction before generalizing behind with
  | nil => rfl
  | cons m before ih =>
    unfold lower
    split
    · rw [ih]
      simp
    · rfl

theorem toList_raise (n : Word) (before behind : List Word) :
    (raise n before behind).toList = before.reverse ++ behind := by
  induction behind generalizing before with
  | nil => rfl
  | cons m behind ih =>
    unfold raise
    split
    · rw [ih]
      simp
    · rfl

theorem toList_seek (s : LineSet) (n : Word) : (s.seek n).toList = s.toList := by
  unfold seek
  rw [toList_raise]
  exact toList_lower n s.before s.behind

theorem mem_insert {s : LineSet} {n line : Word} :
    line ∈ (s.insert n).toList ↔ line = n ∨ line ∈ s.toList := by
  rw [← toList_seek s n]
  unfold insert
  generalize s.seek n = r
  dsimp only
  split
  · rename_i hhead
    have hmem : n ∈ r.before := List.mem_of_head? (by simpa using hhead)
    refine ⟨.inr, ?_⟩
    rintro (rfl | hline)
    · exact List.mem_append_left _ (List.mem_reverse.mpr hmem)
    · exact hline
  · simp only [toList, List.mem_append, List.mem_reverse, List.mem_cons]
    exact or_assoc

end LineSet

/-! ## Tables -/

namespace SymbolTable

variable {t u v : SymbolTable} {key k : Text} {keys others : List Text} {line l : Word}

/-- The line is noted for the symbol under a key. -/
def Refers (t : SymbolTable) (key : Text) (line : Word) : Prop :=
  ∃ s, t.get? key = some s ∧ line ∈ s.references.toList

theorem get?_enter (t : SymbolTable) (s : Symbol) (k : Text) :
    (t.enter s).get? k = (t.get? k).or (if s.name = k then some s else none) := by
  unfold get? enter
  rw [List.find?_append]
  by_cases hs : s.name = k <;> simp [hs]

theorem refers_referTo : (t.referTo key line).Refers k l ↔
    t.Refers k l ∨ (k = key ∧ l = line ∧ (t.get? key).isSome = true) := by
  unfold Refers
  rw [get?_referTo]
  cases hk : t.get? k with
  | none =>
    simp only [Option.map_none, reduceCtorEq, false_and, exists_false, false_or, false_iff]
    rintro ⟨rfl, -, hsome⟩
    rw [hk] at hsome
    cases hsome
  | some s =>
    have hname := name_of_get? hk
    by_cases hkey : k = key
    · subst hkey
      simp [hname, hk, Symbol.referTo, LineSet.mem_insert, or_comm]
    · simp [hname, hkey]

theorem refers_enter {s : Symbol} : (t.enter s).Refers k l ↔
    t.Refers k l ∨ (t.get? k = none ∧ s.name = k ∧ l ∈ s.references.toList) := by
  unfold Refers
  rw [get?_enter]
  cases hk : t.get? k with
  | some r => simp
  | none => by_cases hs : s.name = k <;> simp [hs]

/-- What references to some keys on a line may do: the line may be noted for them, and they may be
entered. -/
structure Touches (keys : List Text) (line : Word) (t u : SymbolTable) : Prop where
  kept : ∀ k l, t.Refers k l → u.Refers k l
  only : ∀ k l, u.Refers k l → t.Refers k l ∨ (k ∈ keys ∧ l = line)
  bare : ∀ k, k ∉ keys → u.bare? k = t.bare? k

/-- What references to some keys on a line do when they raise no error: all the keys are defined, and
the line is noted for them. -/
structure Marks (keys : List Text) (line : Word) (t u : SymbolTable) : Prop
    extends Touches keys line t u where
  marked : ∀ k ∈ keys, u.Refers k line
  settled : ∀ k ∈ keys, t.Settled k line false

theorem Touches.refl (keys : List Text) (line : Word) (t : SymbolTable) : Touches keys line t t :=
  ⟨fun _ _ h => h, fun _ _ h => .inl h, fun _ _ => rfl⟩

theorem Touches.trans (h : Touches keys line t u) (g : Touches others line u v) :
    Touches (keys ++ others) line t v where
  kept k l hk := g.kept k l (h.kept k l hk)
  only k l hk := by
    rcases g.only k l hk with hk | ⟨hmem, hl⟩
    · exact (h.only k l hk).imp_right fun ⟨hmem, hl⟩ => ⟨List.mem_append_left _ hmem, hl⟩
    · exact .inr ⟨List.mem_append_right _ hmem, hl⟩
  bare k hk := by
    rw [List.mem_append, not_or] at hk
    rw [g.bare k hk.2, h.bare k hk.1]

theorem Touches.mono (h : Touches keys line t u) (hkeys : ∀ k ∈ keys, k ∈ others) :
    Touches others line t u where
  kept := h.kept
  only k l hk := (h.only k l hk).imp_right fun ⟨hmem, hl⟩ => ⟨hkeys k hmem, hl⟩
  bare k hk := h.bare k fun hmem => hk (hkeys k hmem)

theorem Marks.refl (line : Word) (t : SymbolTable) : Marks [] line t t :=
  ⟨.refl [] line t, by simp, by simp⟩

theorem Marks.trans (h : Marks keys line t u) (g : Marks others line u v) :
    Marks (keys ++ others) line t v where
  toTouches := h.toTouches.trans g.toTouches
  marked k hk := by
    rcases List.mem_append.mp hk with hk | hk
    · exact g.kept k line (h.marked k hk)
    · exact g.marked k hk
  settled k hk := by
    by_cases hkeys : k ∈ keys
    · exact h.settled k hkeys
    · obtain ⟨s, hs⟩ := g.settled k ((List.mem_append.mp hk).resolve_left hkeys)
      exact ⟨s, h.bare k hkeys ▸ hs⟩

theorem Marks.congr (h : Marks keys line t u) (hkeys : ∀ k, k ∈ others ↔ k ∈ keys) :
    Marks others line t u where
  toTouches := h.toTouches.mono fun k hk => (hkeys k).mpr hk
  marked k hk := h.marked k ((hkeys k).mp hk)
  settled k hk := h.settled k ((hkeys k).mp hk)

/-- References that come to the same keys again, and then raise no error, might as well not have been
made before. -/
theorem Marks.absorb {entering : Bool} (h : Touches keys line t u) (hnoted : Noted entering t u)
    (g : Marks others line u v) (hkeys : ∀ k ∈ keys, k ∈ others) : Marks others line t v where
  toTouches := (h.trans g.toTouches).mono fun k hk =>
    (List.mem_append.mp hk).elim (hkeys k) id
  marked := g.marked
  settled k hk := (g.settled k hk).of_noted hnoted

theorem Marks.refers_iff (h : Marks keys line t u) :
    u.Refers k l ↔ t.Refers k l ∨ (k ∈ keys ∧ l = line) := by
  refine ⟨h.only k l, ?_⟩
  rintro (hk | ⟨hmem, rfl⟩)
  · exact h.kept k l hk
  · exact h.marked k hmem

theorem Marks.bare_eq {entering : Bool} (h : Marks keys line t u) (hnoted : Noted entering t u)
    (k : Text) : u.bare? k = t.bare? k := by
  by_cases hk : k ∈ keys
  · obtain ⟨s, hs, -⟩ := h.settled k hk
    rw [hs, hnoted.embeds.bare k s hs]
  · exact h.bare k hk

theorem touches_referTo (t : SymbolTable) (key : Text) (line : Word) :
    Touches [key] line t (t.referTo key line) where
  kept _ _ h := refers_referTo.mpr (.inl h)
  only _ _ h := (refers_referTo.mp h).imp_right fun ⟨hkey, hline, _⟩ =>
    ⟨List.mem_singleton.mpr hkey, hline⟩
  bare _ _ := bare?_referTo ..

theorem touches_enter (t : SymbolTable) (key : Text) (line : Word) :
    Touches [key] line t (t.enter (({ name := key } : Symbol).referTo line)) where
  kept _ _ h := refers_enter.mpr (.inl h)
  only k l h := by
    refine (refers_enter.mp h).imp_right fun ⟨_, hname, hl⟩ => ?_
    refine ⟨List.mem_singleton.mpr hname.symm, ?_⟩
    simpa [LineSet.toList] using LineSet.mem_insert.mp hl
  bare k hk := by
    have hne : key ≠ k := fun heq => hk (List.mem_singleton.mpr heq.symm)
    rw [bare?_enter]
    simp [Symbol.referTo, hne]

theorem resolve_touches (t : SymbolTable) (key : Text) (line : Word) (ordered entering : Bool) :
    Touches [key] line t (t.resolve key line ordered entering).table := by
  rcases t.resolve_table key line ordered entering with h | h | ⟨-, -, h⟩ <;> rw [h]
  · exact .refl ..
  · exact touches_referTo t key line
  · exact touches_enter t key line

theorem Settled.unordered {ordered : Bool} (h : t.Settled key line ordered) :
    t.Settled key line false := by
  obtain ⟨s, hs, hres, -⟩ := h
  exact ⟨s, hs, hres, by simp⟩

theorem resolve_marks {ordered entering : Bool} (h : t.Settled key line ordered) :
    Marks [key] line t (t.resolve key line ordered entering).table := by
  refine ⟨resolve_touches .., ?_, ?_⟩
  · intro k hk
    obtain rfl := List.mem_singleton.mp hk
    obtain ⟨s, hs, hresolve⟩ := resolve_of_settled h entering
    rw [hresolve]
    exact refers_referTo.mpr (.inr ⟨rfl, rfl, by rw [hs]; rfl⟩)
  · intro k hk
    obtain rfl := List.mem_singleton.mp hk
    exact h.unordered

end SymbolTable

open SymbolTable (Touches Marks)

/-! ## Operands -/

section Operands

variable {scope : Scope} {usage : Usage} {t : SymbolTable}

theorem Term.value_table {text : Text} {term : Term} (h : Term.read? t.divide text = some term) :
    (term.value scope usage t).table = (termKey? t.divide scope.head text).elim t fun key =>
      (t.resolve key scope.line usage.ordered scope.entering).table := by
  unfold termKey?
  rw [h]
  cases term with
  | star => rfl
  | literal n => rfl
  | symbol name =>
    have hblank := isBlank_of_isSymbol (isSymbol_of_read? h)
    unfold Term.value SymbolTable.lookup
    dsimp only
    rw [if_neg (by simp [hblank])]
    cases referenceKey t.divide scope.head name <;> rfl

theorem termKeys_cons (divide : Bool) (head : Byte) (op : Operator) (text : Text)
    (rest : List (Operator × Text)) : termKeys divide head ((op, text) :: rest) =
      (termKey? divide head text).toList ++ termKeys divide head rest := by
  unfold termKeys
  rw [List.filterMap_cons]
  cases termKey? divide head text <;> rfl

theorem Term.value_touches {text : Text} {term : Term} (h : Term.read? t.divide text = some term) :
    Touches (termKey? t.divide scope.head text).toList scope.line t
      (term.value scope usage t).table := by
  rw [Term.value_table h]
  cases termKey? t.divide scope.head text with
  | some key => exact t.resolve_touches ..
  | none => exact .refl ..

theorem Term.value_marks {text : Text} {term : Term} (h : Term.read? t.divide text = some term)
    (hsettled : ∀ key, termKey? t.divide scope.head text = some key →
      t.Settled key scope.line usage.ordered) :
    Marks (termKey? t.divide scope.head text).toList scope.line t
      (term.value scope usage t).table := by
  rw [Term.value_table h]
  cases hkey : termKey? t.divide scope.head text with
  | some key => exact SymbolTable.resolve_marks (hsettled key hkey)
  | none => exact .refl ..

theorem valuesOf_touches (t : SymbolTable) (terms : List (Operator × Text)) :
    Touches (termKeys t.divide scope.head terms) scope.line t
      (valuesOf scope usage t terms).table := by
  induction terms generalizing t with
  | nil => exact .refl ..
  | cons first rest ih =>
    obtain ⟨op, text⟩ := first
    unfold valuesOf
    cases hterm : Term.read? t.divide text with
    | none => exact .refl ..
    | some term =>
      have hrest := ih (term.value scope usage t).table
      rw [(Term.value_noted scope usage t term).divide] at hrest
      rw [termKeys_cons]
      exact (Term.value_touches hterm).trans hrest

/-- Terms that all have values and settled keys note their line for all of them. -/
theorem valuesOf_marks (t : SymbolTable) (terms : List (Operator × Text))
    (hchain : (valuesOf scope usage t terms).chain.isSome = true)
    (hsettled : ∀ key ∈ termKeys t.divide scope.head terms, t.Settled key scope.line usage.ordered) :
    Marks (termKeys t.divide scope.head terms) scope.line t
      (valuesOf scope usage t terms).table := by
  induction terms generalizing t with
  | nil => exact .refl ..
  | cons first rest ih =>
    obtain ⟨op, text⟩ := first
    unfold valuesOf at hchain ⊢
    cases hterm : Term.read? t.divide text with
    | none => simp [hterm] at hchain
    | some term =>
      simp only [hterm, Option.isSome_map] at hchain
      have hnoted := Term.value_noted scope usage t term
      have hrest := ih (term.value scope usage t).table hchain fun key hkey => by
        rw [hnoted.divide] at hkey
        exact (hsettled key (mem_termKeys_cons.mpr (.inr hkey))).mono hnoted.embeds
      rw [hnoted.divide] at hrest
      rw [termKeys_cons]
      exact (Term.value_marks hterm fun key hkey =>
        hsettled key (mem_termKeys_cons.mpr (.inl hkey))).trans hrest

/-- An operand notes its line for nothing but its keys. -/
theorem evaluateIn_touches (scope : Scope) (usage : Usage) (t : SymbolTable) (operand : Text) :
    Touches (operandKeys t.divide scope.head operand) scope.line t
      (evaluateIn scope usage t operand).table := by
  obtain ⟨-, -, he⟩ | ⟨vs, rfl, hblank, ⟨-, _, _, he⟩ | ⟨_, _, _, _, -, -, he⟩⟩ :=
    evaluateIn_cases scope usage t operand
  · rw [he]
    exact .refl ..
  · rw [he, operandKeys, hblank]
    exact valuesOf_touches ..
  · rw [he, operandKeys, hblank]
    exact valuesOf_touches ..

/-- **An operand that raises no error** notes its line for all its keys, which are defined. -/
theorem evaluateIn_marks (scope : Scope) (usage : Usage) (t : SymbolTable) (operand : Text)
    (h : ∀ r ∈ (evaluateIn scope usage t operand).reports, r.isError = false) :
    Marks (operandKeys t.divide scope.head operand) scope.line t
      (evaluateIn scope usage t operand).table := by
  have hsettled := settled_of_evaluateIn scope usage t operand h
  obtain ⟨-, hkeys, he⟩ | ⟨vs, rfl, hblank, ⟨-, _, c, he⟩ | ⟨_, _, _, _, -, hsome, he⟩⟩ :=
    evaluateIn_cases scope usage t operand
  · rw [he, hkeys]
    exact .refl ..
  · have hlast := h (error c) (by rw [he]; simp)
    simp [Report.isError, error] at hlast
  · rw [operandKeys, hblank] at hsettled
    rw [he, operandKeys, hblank]
    exact valuesOf_marks t _ hsome hsettled

end Operands

end SpsAssembler
