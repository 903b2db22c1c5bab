import SpsAssembler.Proofs.Log
import SpsAssembler.Symbol.Table

/-!
# Symbols apart from their references

References are noted in the table all the time, but no value depends on them. The bare symbol under
a key, without its references, says all that definitions and values depend on.

* `SymbolTable.bare?`, `SymbolTable.valueAt`: the bare symbol under a key and its value on a line;
* `SymbolTable.Noted`: what noting references does to a table; **`Noted.valueAt_eq`**: values stay;
* `SymbolTable.Embeds`: every symbol of a table is in a second one, with the same definition;
* `SymbolTable.resolve_cases`, `SymbolTable.resolve_table`: what becomes of a key;
* **`SymbolTable.settled_of_resolve`**: a reference that raises no error met a defined symbol;
* `SymbolTable.define_cases`, `SymbolTable.verify_eq_nil`: what becomes of a label.
-/

namespace SpsAssembler

/-- The causes that speak of the label of a statement. -/
def Cause.concernsLabel : Cause → Bool
  | invalidLabel _ | duplicateLabel _ => true
  | _ => false

/-- Reports none of which is about a label. -/
def Unlabelled (reports : List (Report Cause)) : Prop :=
  ∀ r ∈ reports, r.cause.concernsLabel = false

theorem Unlabelled.nil : Unlabelled [] := by simp [Unlabelled]

theorem Unlabelled.one {r : Report Cause} (h : r.cause.concernsLabel = false) : Unlabelled [r] := by
  simpa [Unlabelled] using h

namespace Symbol

/-- A symbol without the lines that refer to it. -/
def bare (s : Symbol) : Symbol := { s with references := {} }

/-- The value of a symbol on `line`. With `ordered` a symbol defined further down has none. -/
def valueOn (s : Symbol) (line : Word) (ordered : Bool) : Word :=
  if !s.isResolved then 0 else if ordered && line < s.defined then 0 else s.address

@[simp] theorem bare_referTo (s : Symbol) (line : Word) : (s.referTo line).bare = s.bare := rfl

@[simp] theorem bare_isResolved (s : Symbol) : s.bare.isResolved = s.isResolved := rfl

@[simp] theorem bare_defined (s : Symbol) : s.bare.defined = s.defined := rfl

end Symbol

namespace SymbolTable

/-- The symbol under a key, without the lines that refer to it. -/
def bare? (t : SymbolTable) (key : Text) : Option Symbol := (t.get? key).map Symbol.bare

/-- What a key stands for on `line`, zero if it is not defined. -/
def valueAt (t : SymbolTable) (key : Text) (line : Word) (ordered : Bool) : Word :=
  match t.bare? key with
  | some s => s.valueOn line ordered
  | none => 0

theorem bare?_eq_none {t : SymbolTable} {key : Text} : t.bare? key = none ↔ t.get? key = none :=
  Option.map_eq_none_iff

theorem bare?_of_get? {t : SymbolTable} {key : Text} {s : Symbol} (h : t.get? key = some s) :
    t.bare? key = some s.bare := by
  rw [bare?, h]; rfl

theorem name_of_get? {t : SymbolTable} {key : Text} {s : Symbol} (h : t.get? key = some s) :
    s.name = key := by
  simpa using List.find?_some h

theorem get?_referTo (t : SymbolTable) (key : Text) (line : Word) (k : Text) :
    (t.referTo key line).get? k =
      (t.get? k).map fun s => if s.name == key then s.referTo line else s := by
  unfold get? referTo
  rw [List.find?_map]
  congr 1
  congr 1
  funext s
  by_cases h : s.name = key <;> simp [h, Symbol.referTo]

@[simp] theorem bare?_referTo (t : SymbolTable) (key : Text) (line : Word) (k : Text) :
    (t.referTo key line).bare? k = t.bare? k := by
  rw [bare?, get?_referTo, Option.map_map, bare?]
  congr 1
  funext s
  by_cases h : s.name = key <;> simp [h]

theorem bare?_enter (t : SymbolTable) (s : Symbol) (k : Text) :
    (t.enter s).bare? k = (t.bare? k).or (if s.name = k then some s.bare else none) := by
  unfold bare? get? enter
  rw [List.find?_append]
  cases h : t.symbols.find? (·.name == k) with
  | some r => simp
  | none =>
    by_cases hs : s.name = k <;> simp [hs]

/-! ## Noting references -/

/-- What noting references does: bare symbols stay, and with `entering` keys that no symbol had may
be entered, without a definition. -/
structure Noted (entering : Bool) (t u : SymbolTable) : Prop where
  divide : u.divide = t.divide
  bare : ∀ k, u.bare? k = t.bare? k ∨
    (entering = true ∧ t.bare? k = none ∧ u.bare? k = some { name := k })

/-- Every symbol of `t` is in `u`, with the same definition. -/
structure Embeds (t u : SymbolTable) : Prop where
  divide : u.divide = t.divide
  bare : ∀ k s, t.bare? k = some s → u.bare? k = some s

theorem Noted.refl (entering : Bool) (t : SymbolTable) : Noted entering t t :=
  ⟨rfl, fun _ => .inl rfl⟩

theorem Noted.trans {entering : Bool} {t u v : SymbolTable} (h : Noted entering t u)
    (g : Noted entering u v) : Noted entering t v := by
  refine ⟨g.divide.trans h.divide, fun k => ?_⟩
  rcases g.bare k with hg | ⟨he, hu, hv⟩
  · rw [hg]; exact h.bare k
  · rcases h.bare k with hh | ⟨-, -, hu'⟩
    · exact .inr ⟨he, hh ▸ hu, hv⟩
    · rw [hu'] at hu; cases hu

theorem Noted.bare_eq {t u : SymbolTable} (h : Noted false t u) (k : Text) :
    u.bare? k = t.bare? k := by
  rcases h.bare k with h | ⟨h, -⟩
  · exact h
  · cases h

theorem Noted.embeds {entering : Bool} {t u : SymbolTable} (h : Noted entering t u) :
    Embeds t u := by
  refine ⟨h.divide, fun k s hs => ?_⟩
  rcases h.bare k with hk | ⟨-, hk, -⟩
  · rw [hk, hs]
  · rw [hs] at hk; cases hk

theorem Embeds.refl (t : SymbolTable) : Embeds t t := ⟨rfl, fun _ _ h => h⟩

theorem Embeds.trans {t u v : SymbolTable} (h : Embeds t u) (g : Embeds u v) : Embeds t v :=
  ⟨g.divide.trans h.divide, fun k s hs => g.bare k s (h.bare k s hs)⟩

/-- **Noting references changes no value.** -/
theorem Noted.valueAt_eq {entering : Bool} {t u : SymbolTable} (h : Noted entering t u) (key : Text)
    (line : Word) (ordered : Bool) : u.valueAt key line ordered = t.valueAt key line ordered := by
  unfold valueAt
  rcases h.bare key with hk | ⟨-, ht, hu⟩
  · rw [hk]
  · rw [ht, hu]; rfl

/-! ## References -/

/-- The symbol under a key is defined, and with `ordered` not further down than `line`. -/
def Settled (t : SymbolTable) (key : Text) (line : Word) (ordered : Bool) : Prop :=
  ∃ s, t.bare? key = some s ∧ s.isResolved = true ∧ (ordered = true → s.defined ≤ line)

theorem Settled.embeds {t u : SymbolTable} {key : Text} {line : Word} {ordered : Bool}
    (h : t.Settled key line ordered) (g : Embeds t u) :
    u.valueAt key line ordered = t.valueAt key line ordered := by
  obtain ⟨s, hs, -⟩ := h
  unfold valueAt
  rw [hs, g.bare key s hs]

theorem Settled.mono {t u : SymbolTable} {key : Text} {line : Word} {ordered : Bool}
    (h : t.Settled key line ordered) (g : Embeds t u) : u.Settled key line ordered := by
  obtain ⟨s, hs, hres⟩ := h
  exact ⟨s, g.bare key s hs, hres⟩

theorem Settled.of_noted {entering : Bool} {t u : SymbolTable} {key : Text} {line : Word}
    {ordered : Bool} (h : u.Settled key line ordered) (g : Noted entering t u) :
    t.Settled key line ordered := by
  obtain ⟨s, hs, hres, hord⟩ := h
  rcases g.bare key with hk | ⟨-, -, hk⟩
  · exact ⟨s, hk ▸ hs, hres, hord⟩
  · rw [hk] at hs
    cases hs
    cases hres

/-- **What becomes of a key**: it is unknown, or its symbol has no definition, or one further down that
does not count, or a value. -/
theorem resolve_cases (t : SymbolTable) (key : Text) (line : Word) (ordered entering : Bool) :
    (t.get? key = none ∧ t.resolve key line ordered entering =
      ⟨0, if entering then t.enter (({ name := key } : Symbol).referTo line) else t,
        [error (.undefinedSymbol key)]⟩) ∨
    ∃ s, t.get? key = some s ∧
      ((s.isResolved = false ∧ t.resolve key line ordered entering =
          ⟨0, t.referTo key line, [error (.undefinedSymbol key)]⟩) ∨
        (s.isResolved = true ∧ (ordered = true ∧ line < s.defined) ∧
          t.resolve key line ordered entering = ⟨0, t, [error (.forwardReference key)]⟩) ∨
        (s.isResolved = true ∧ ¬ (ordered = true ∧ line < s.defined) ∧
          t.resolve key line ordered entering = ⟨s.address, t.referTo key line, []⟩)) := by
  unfold resolve
  cases t.get? key with
  | none => exact .inl ⟨rfl, rfl⟩
  | some s =>
    refine .inr ⟨s, rfl, ?_⟩
    cases hres : s.isResolved with
    | false => exact .inl ⟨rfl, by simp [hres]⟩
    | true =>
      by_cases hlate : ordered = true ∧ line < s.defined
      · exact .inr (.inl ⟨rfl, hlate, by simp [hres, hlate]⟩)
      · exact .inr (.inr ⟨rfl, hlate, by simp [hres, hlate]⟩)

theorem resolve_value (t : SymbolTable) (key : Text) (line : Word) (ordered entering : Bool) :
    (t.resolve key line ordered entering).value = t.valueAt key line ordered := by
  have hvalue : ∀ s, t.get? key = some s → t.valueAt key line ordered = s.valueOn line ordered := by
    intro s hs
    rw [valueAt, bare?_of_get? hs]
    rfl
  rcases t.resolve_cases key line ordered entering with ⟨hs, h⟩ |
    ⟨s, hs, ⟨hres, h⟩ | ⟨hres, hlate, h⟩ | ⟨hres, hlate, h⟩⟩
  · rw [h, valueAt, bare?_eq_none.mpr hs]
  · rw [h, hvalue s hs]
    simp [Symbol.valueOn, hres]
  · rw [h, hvalue s hs]
    simp [Symbol.valueOn, hres, hlate]
  · rw [h, hvalue s hs]
    simp [Symbol.valueOn, hres, hlate]

/-- A reference leaves the table as it is, or notes its line, and for that it may enter the key. -/
theorem resolve_table (t : SymbolTable) (key : Text) (line : Word) (ordered entering : Bool) :
    (t.resolve key line ordered entering).table = t ∨
      (t.resolve key line ordered entering).table = t.referTo key line ∨
      (t.get? key = none ∧ entering = true ∧ (t.resolve key line ordered entering).table =
        t.enter (({ name := key } : Symbol).referTo line)) := by
  rcases t.resolve_cases key line ordered entering with ⟨hs, h⟩ |
    ⟨s, -, ⟨-, h⟩ | ⟨-, -, h⟩ | ⟨-, -, h⟩⟩ <;> rw [h]
  · cases entering with
    | false => exact .inl rfl
    | true => exact .inr (.inr ⟨hs, rfl, rfl⟩)
  · exact .inr (.inl rfl)
  · exact .inl rfl
  · exact .inr (.inl rfl)

theorem resolve_noted (t : SymbolTable) (key : Text) (line : Word) (ordered entering : Bool) :
    Noted entering t (t.resolve key line ordered entering).table := by
  rcases t.resolve_table key line ordered entering with h | h | ⟨hnone, hentering, h⟩ <;> rw [h]
  · exact .refl entering t
  · exact ⟨rfl, fun k => .inl (bare?_referTo ..)⟩
  · refine ⟨rfl, fun k => ?_⟩
    rw [bare?_enter]
    by_cases hk : key = k
    · subst hk
      refine .inr ⟨hentering, bare?_eq_none.mpr hnone, ?_⟩
      rw [bare?_eq_none.mpr hnone]
      simp [Symbol.referTo]
      rfl
    · left
      simp [Symbol.referTo, hk]

/-- **A reference that raises no error** met a symbol defined further up. -/
theorem settled_of_resolve {t : SymbolTable} {key : Text} {line : Word} {ordered entering : Bool}
    (h : ∀ r ∈ (t.resolve key line ordered entering).reports, r.isError = false) :
    t.Settled key line ordered := by
  rcases t.resolve_cases key line ordered entering with ⟨-, hr⟩ |
    ⟨s, hs, ⟨-, hr⟩ | ⟨-, -, hr⟩ | ⟨hres, hlate, -⟩⟩
  · exact absurd (h _ (by rw [hr]; exact List.mem_cons_self)) (by simp [Report.isError, error])
  · exact absurd (h _ (by rw [hr]; exact List.mem_cons_self)) (by simp [Report.isError, error])
  · exact absurd (h _ (by rw [hr]; exact List.mem_cons_self)) (by simp [Report.isError, error])
  · exact ⟨s.bare, bare?_of_get? hs, hres, by simpa using hlate⟩

theorem resolve_of_settled {t : SymbolTable} {key : Text} {line : Word} {ordered : Bool}
    (h : t.Settled key line ordered) (entering : Bool) :
    ∃ s, t.get? key = some s ∧
      t.resolve key line ordered entering = ⟨s.address, t.referTo key line, []⟩ := by
  obtain ⟨r, hr, hres, hord⟩ := h
  obtain ⟨s, hs, rfl⟩ := Option.map_eq_some_iff.mp hr
  rcases t.resolve_cases key line ordered entering with ⟨hnone, -⟩ |
    ⟨u, hu, ⟨hopen, -⟩ | ⟨-, hlate, -⟩ | ⟨-, -, hresolve⟩⟩
  · rw [hs] at hnone
    cases hnone
  all_goals
    rw [hs] at hu
    cases hu
  · rw [Symbol.bare_isResolved, hopen] at hres
    cases hres
  · exact absurd hlate.2 (Int64.not_lt.mpr (hord hlate.1))
  · exact ⟨s, hs, hresolve⟩

/-- A name is passed over or refused, which leaves the table as it is, or its key is resolved. -/
theorem lookup_cases (t : SymbolTable) (name : Text) (line : Word) (ordered : Bool) (head : Byte)
    (entering : Bool) :
    ((t.lookup name line ordered head entering).table = t ∧
      (name.isBlank = true ∨ ∃ c, referenceKey t.divide head name = .error c)) ∨
    ∃ key, t.lookup name line ordered head entering = t.resolve key line ordered entering ∧
      name.isBlank = false ∧ referenceKey t.divide head name = .ok key := by
  unfold lookup
  by_cases hblank : name.isBlank = true
  · exact .inl ⟨by rw [if_pos hblank], .inl hblank⟩
  · rw [if_neg hblank]
    cases hkey : referenceKey t.divide head name with
    | error c => exact .inl ⟨rfl, .inr ⟨c, rfl⟩⟩
    | ok key => exact .inr ⟨key, rfl, by simpa using hblank, rfl⟩

theorem lookup_value (t : SymbolTable) (name : Text) (line : Word) (ordered : Bool) (head : Byte)
    (entering : Bool) : (t.lookup name line ordered head entering).value =
      if name.isBlank then 0 else
        match referenceKey t.divide head name with
        | .ok key => t.valueAt key line ordered
        | .error _ => 0 := by
  unfold lookup
  split
  · rfl
  · cases referenceKey t.divide head name with
    | ok key => exact resolve_value ..
    | error c => rfl

theorem lookup_noted (t : SymbolTable) (name : Text) (line : Word) (ordered : Bool) (head : Byte)
    (entering : Bool) : Noted entering t (t.lookup name line ordered head entering).table := by
  rcases t.lookup_cases name line ordered head entering with ⟨h, -⟩ | ⟨key, h, -⟩ <;> rw [h]
  · exact .refl entering t
  · exact resolve_noted ..

/-! ## Definitions -/

/-- A label is blank, or refused with an error, or entered under a key that was free. -/
theorem define_cases (t : SymbolTable) (name : Text) (address : Word) (kind : Kind) (line : Word)
    (head : Byte) :
    (t.define name address kind line head = (t, []) ∧ name.isBlank = true) ∨
      (∃ c, t.define name address kind line head = (t, [error c])) ∨
      (t.define name address kind line head =
          (t.enter { name := headKey head name, address, kind, defined := line }, []) ∧
        isLabel t.divide name = true ∧ t.bare? (headKey head name) = none) := by
  unfold define
  by_cases hblank : name.isBlank = true
  · exact .inl ⟨if_pos hblank, hblank⟩
  · rw [if_neg hblank]
    by_cases hlabel : isLabel t.divide name = true
    · rw [if_neg (by simp [hlabel])]
      cases hk : t.get? (headKey head name) with
      | some s => exact .inr (.inl ⟨.duplicateLabel (headKey head name), by simp [hk]⟩)
      | none => exact .inr (.inr ⟨by simp [hk], hlabel, bare?_eq_none.mpr hk⟩)
    · exact .inr (.inl ⟨.invalidLabel name, if_pos (by simp [hlabel])⟩)

theorem isSymbol_of_isLabel {divide : Bool} {name : Text} (h : isLabel divide name = true) :
    isSymbol divide name = true := by
  simp only [isLabel, Bool.and_eq_true] at h
  simp [isSymbol, h.1, h.2]

/-- A label raises no message where the symbol under its key is the one defined on the line. -/
theorem verify_eq_nil {t : SymbolTable} {name : Text} {line : Word} {head : Byte} {s : Symbol}
    (hlabel : isLabel t.divide name = true) (hs : t.bare? (headKey head name) = some s)
    (hline : s.defined = line) : t.verify name line head = [] := by
  have hsymbol := isSymbol_of_isLabel hlabel
  obtain ⟨r, hr, rfl⟩ := Option.map_eq_some_iff.mp hs
  have hdefined : r.defined = line := hline
  unfold verify
  split
  · rfl
  · simp [hsymbol, hr, hdefined]

end SymbolTable

end SpsAssembler
