import SpsAssembler.Proofs.References
import SpsAssembler.Proofs.SymbolNames

/-!
# Calls on a symbol table

A table is made by calls: labels are defined or verified, names are looked up, and now and then a
new pass begins. Whatever the calls are, a symbol keeps its first definition, and it refers back to
the lines of those look-ups that came to it.

* `TableCall`, `TableState.call`, `TableState.run`: a call, and a row of calls;
* `TableState.Accepts`: a look-up whose line is noted;
* `LineSet.ascending_insert`, `SymbolTable.Ascending`: lines are kept in ascending order;
* `Text.before_iff`, `SymbolTable.sorted_ascending`: the order of the sorted symbols;
* `TableState.embeds_call`, `TableState.refers_call`: one call;
* **`TableState.refers_run`**: the lines that a row of calls notes;
* **`symbols_of_calls`**: the table behind any row of calls.
-/

namespace SpsAssembler

/-- A call on a symbol table, or the beginning of a pass. -/
inductive TableCall where
  | enterPass (pass : Word)
  | define (name : Text) (address : Word) (kind : Kind) (line : Word) (head : Byte)
  | verify (name : Text) (line : Word) (head : Byte)
  | lookup (name : Text) (line : Word) (ordered : Bool) (head : Byte)
  deriving DecidableEq, Repr

/-- A symbol table and the pass that uses it. -/
structure TableState where
  table : SymbolTable
  pass : Word := 0
  deriving DecidableEq, Repr

namespace TableState

/-- An empty table, before any pass. -/
def empty (divide : Bool) : TableState := { table := { divide } }

/-- Whether names that are looked up are entered. -/
def entering (s : TableState) : Bool := s.pass == 2

/-- The state behind a call. -/
def call (s : TableState) : TableCall → TableState
  | .enterPass pass => { s with pass }
  | .define name address kind line head =>
    { s with table := (s.table.define name address kind line head).1 }
  | .verify _ _ _ => s
  | .lookup name line ordered head =>
    { s with table := (s.table.lookup name line ordered head s.entering).table }

/-- What a call reports. -/
def reports (s : TableState) : TableCall → List (Report Cause)
  | .enterPass _ => []
  | .define name address kind line head => (s.table.define name address kind line head).2
  | .verify name line head => s.table.verify name line head
  | .lookup name line ordered head => (s.table.lookup name line ordered head s.entering).reports

/-- The state behind a row of calls. -/
def run (s : TableState) (calls : List TableCall) : TableState := calls.foldl call s

@[simp] theorem call_define (s : TableState) (name : Text) (address : Word) (kind : Kind)
    (line : Word) (head : Byte) : s.call (.define name address kind line head) =
      { s with table := (s.table.define name address kind line head).1 } := rfl

@[simp] theorem call_lookup (s : TableState) (name : Text) (line : Word) (ordered : Bool)
    (head : Byte) : s.call (.lookup name line ordered head) =
      { s with table := (s.table.lookup name line ordered head s.entering).table } := rfl

/-- A look-up on `line` that comes to the symbol under a key: the symbol is there, or the second
pass enters it, and it is not refused for being defined further down. -/
def Accepts (s : TableState) (key : Text) (line : Word) (c : TableCall) : Prop :=
  ∃ name ordered head, c = .lookup name line ordered head ∧ name.isBlank = false ∧
    referenceKey s.table.divide head name = .ok key ∧
    ((s.table.get? key).isSome = true ∨ s.pass = 2) ∧
    error (.forwardReference key) ∉ s.reports c

end TableState

/-! ## Lines in ascending order -/

namespace LineSet

variable {s : LineSet} {n : Word} {before behind : List Word}

theorem le_of_mem_lower (h : before.Pairwise (· > ·)) :
    ∀ m ∈ (lower n before behind).before, m ≤ n := by
  induction before generalizing behind with
  | nil => simp [lower]
  | cons k before ih =>
    obtain ⟨hk, hbefore⟩ := List.pairwise_cons.mp h
    unfold lower
    split
    · exact ih hbefore
    · rename_i hkn
      have hle : k ≤ n := Int64.not_lt.mp hkn
      intro m hm
      rcases List.mem_cons.mp hm with rfl | hm
      · exact hle
      · exact Int64.le_trans (Int64.le_of_lt (hk m hm)) hle

theorem le_of_mem_raise (h : ∀ m ∈ before, m ≤ n) :
    ∀ m ∈ (raise n before behind).before, m ≤ n := by
  induction behind generalizing before with
  | nil => exact h
  | cons k behind ih =>
    unfold raise
    split
    · rename_i hkn
      exact ih (List.forall_mem_cons.mpr ⟨hkn, h⟩)
    · exact h

theorem lt_of_mem_raise (h : behind.Pairwise (· < ·)) :
    ∀ m ∈ (raise n before behind).behind, n < m := by
  induction behind generalizing before with
  | nil => simp [raise]
  | cons k behind ih =>
    obtain ⟨hk, hbehind⟩ := List.pairwise_cons.mp h
    unfold raise
    split
    · exact ih hbehind
    · rename_i hkn
      have hlt : n < k := Int64.not_le.mp hkn
      exact List.forall_mem_cons.mpr ⟨hlt, fun m hm => Int64.lt_trans hlt (hk m hm)⟩

/-- Behind a move to `n`, the place stands between the lines up to `n` and those above. -/
theorem split_seek (h : s.toList.Pairwise (· < ·)) (n : Word) :
    (∀ m ∈ (s.seek n).before, m ≤ n) ∧ ∀ m ∈ (s.seek n).behind, n < m := by
  have hbefore : s.before.Pairwise (· > ·) :=
    List.pairwise_reverse.mp (List.pairwise_append.mp h).1
  have hlowered : (lower n s.before s.behind).toList.Pairwise (· < ·) := by
    rwa [toList_lower]
  have hbehind := (List.pairwise_append.mp hlowered).2.1
  exact ⟨le_of_mem_raise (le_of_mem_lower hbefore), lt_of_mem_raise hbehind⟩

/-- **Adding a line** keeps the lines in ascending order, each of them once. -/
theorem ascending_insert (h : s.toList.Pairwise (· < ·)) (n : Word) :
    (s.insert n).toList.Pairwise (· < ·) := by
  obtain ⟨hle, hlt⟩ := split_seek h n
  rw [← toList_seek s n] at h
  unfold insert
  generalize s.seek n = r at h hle hlt
  dsimp only
  split
  · exact h
  · rename_i hhead
    obtain ⟨hbefore, hbehind, hcross⟩ := List.pairwise_append.mp h
    have hbelow : ∀ m ∈ r.before, m < n := by
      rw [List.pairwise_reverse] at hbefore
      cases hr : r.before with
      | nil => simp
      | cons k rest =>
        rw [hr] at hbefore hle hhead
        have hk : k < n := Int64.lt_of_le_of_ne (hle k List.mem_cons_self) (by simpa using hhead)
        have hrest := (List.pairwise_cons.mp hbefore).1
        exact List.forall_mem_cons.mpr ⟨hk, fun m hm => Int64.lt_trans (hrest m hm) hk⟩
    have hfirst : (n :: r.before).reverse.Pairwise (· < ·) := by
      rw [List.pairwise_reverse] at hbefore ⊢
      exact List.pairwise_cons.mpr ⟨hbelow, hbefore⟩
    refine List.pairwise_append.mpr ⟨hfirst, hbehind, fun m hm k hk => ?_⟩
    rcases List.mem_cons.mp (List.mem_reverse.mp hm) with rfl | hm
    · exact hlt k hk
    · exact Int64.lt_trans (hbelow m hm) (hlt k hk)

end LineSet

namespace SymbolTable

variable {t : SymbolTable}

/-- The lines that refer to a symbol are in ascending order, each of them once. -/
def Ascending (t : SymbolTable) : Prop :=
  ∀ s ∈ t.symbols, s.references.toList.Pairwise (· < ·)

theorem Ascending.referTo (h : t.Ascending) (key : Text) (line : Word) :
    (t.referTo key line).Ascending := by
  intro s hs
  obtain ⟨r, hr, rfl⟩ := List.mem_map.mp hs
  split
  · exact LineSet.ascending_insert (h r hr) line
  · exact h r hr

theorem Ascending.enter (h : t.Ascending) {s : Symbol}
    (hs : s.references.toList.Pairwise (· < ·)) : (t.enter s).Ascending := by
  intro r hr
  rcases List.mem_append.mp hr with hr | hr
  · exact h r hr
  · rwa [List.mem_singleton.mp hr]

theorem Ascending.resolve (h : t.Ascending) (key : Text) (line : Word) (ordered entering : Bool) :
    (t.resolve key line ordered entering).table.Ascending := by
  rcases t.resolve_table key line ordered entering with ht | ht | ⟨-, -, ht⟩ <;> rw [ht]
  · exact h
  · exact h.referTo key line
  · exact h.enter (LineSet.ascending_insert .nil line)

theorem Ascending.lookup (h : t.Ascending) (name : Text) (line : Word) (ordered : Bool)
    (head : Byte) (entering : Bool) :
    (t.lookup name line ordered head entering).table.Ascending := by
  rcases t.lookup_cases name line ordered head entering with ⟨ht, -⟩ | ⟨key, ht, -⟩ <;> rw [ht]
  · exact h
  · exact Ascending.resolve h key line ordered entering

theorem Ascending.define (h : t.Ascending) (name : Text) (address : Word) (kind : Kind)
    (line : Word) (head : Byte) : (t.define name address kind line head).1.Ascending := by
  rcases t.define_cases name address kind line head with ⟨hd, -⟩ | ⟨c, hd⟩ | ⟨hd, -⟩
  · rwa [hd]
  · rwa [hd]
  · rw [hd]
    exact h.enter .nil

end SymbolTable

/-! ## Sorted symbols -/

theorem Text.before_iff {s t : Text} : Text.before s t = true ↔ List.Lex (· < ·) s t := by
  fun_induction Text.before s t with
  | case1 s => simp
  | case2 b t => simp
  | case3 a s b t ih => simp [List.cons_lex_cons_iff, ih]

theorem Text.not_before_iff {s t : Text} : Text.before s t = false ↔ t ≤ s := by
  rw [Bool.eq_false_iff, ne_eq, Text.before_iff, List.not_lex_lt]

namespace SymbolTable

/-- **Sorted symbols** whose names are distinct are strictly in byte order of their names. -/
theorem sorted_ascending {t : SymbolTable} (h : t.Distinct) :
    t.sorted.Pairwise fun a b => List.Lex (· < ·) a.name b.name := by
  have hsorted : t.sorted.Pairwise fun a b => (!Text.before b.name a.name) = true := by
    refine List.pairwise_mergeSort (fun a b c hab hbc => ?_) (fun a b => ?_) t.symbols
    · simp only [Bool.not_eq_true', Text.not_before_iff] at hab hbc ⊢
      exact List.le_trans hab hbc
    · simp only [Bool.or_eq_true, Bool.not_eq_true', Text.not_before_iff]
      exact List.le_total a.name b.name
  have hnames : (t.sorted.map Symbol.name).Nodup :=
    ((List.mergeSort_perm t.symbols _).map Symbol.name).nodup_iff.mpr h
  refine (hsorted.and (List.pairwise_map.mp hnames)).imp fun {a b} hab => ?_
  obtain ⟨hle, hne⟩ := hab
  rw [Bool.not_eq_true', Text.not_before_iff] at hle
  rw [← Text.before_iff]
  by_contra hnot
  rw [Bool.not_eq_true, Text.not_before_iff] at hnot
  exact hne (List.le_antisymm hle hnot)

end SymbolTable

/-! ## One call -/

namespace SymbolTable

variable {t : SymbolTable} {key k : Text} {line l : Word} {ordered entering : Bool}

/-- A key that is resolved on `line` has the line noted, unless it is unknown or its symbol is
defined further down. -/
theorem refers_resolve : (t.resolve key line ordered entering).table.Refers k l ↔
    t.Refers k l ∨ (k = key ∧ l = line ∧ ((t.get? key).isSome = true ∨ entering = true) ∧
      error (.forwardReference key) ∉ (t.resolve key line ordered entering).reports) := by
  rcases t.resolve_cases key line ordered entering with ⟨hget, h⟩ |
    ⟨s, hget, ⟨-, h⟩ | ⟨-, -, h⟩ | ⟨-, -, h⟩⟩ <;> rw [h, hget]
  · cases entering with
    | false => simp
    | true =>
      rw [if_pos rfl, refers_enter]
      simp only [Symbol.referTo, LineSet.mem_insert]
      constructor
      · rintro (hk | ⟨-, rfl, hl⟩)
        · exact .inl hk
        · exact .inr ⟨rfl, by simpa [LineSet.toList] using hl, by simp, by simp [error]⟩
      · rintro (hk | ⟨rfl, rfl, -⟩)
        · exact .inl hk
        · exact .inr ⟨hget, rfl, .inl rfl⟩
  · rw [refers_referTo, hget]
    simp [error]
  · simp
  · rw [refers_referTo, hget]
    simp

theorem names_resolve (t : SymbolTable) (key : Text) (line : Word) (ordered : Bool) :
    (t.resolve key line ordered false).table.symbols.map Symbol.name =
      t.symbols.map Symbol.name := by
  rcases t.resolve_table key line ordered false with h | h | ⟨-, hentering, -⟩
  · rw [h]
  · rw [h, names_referTo]
  · cases hentering

end SymbolTable

namespace TableState

variable {s : TableState} {key : Text} {line : Word}

theorem embeds_call (s : TableState) (c : TableCall) : s.table.Embeds (s.call c).table := by
  cases c with
  | enterPass pass => exact .refl _
  | verify name line head => exact .refl _
  | lookup name line ordered head => exact (s.table.lookup_noted ..).embeds
  | define name address kind line head =>
    rw [call_define]
    rcases s.table.define_cases name address kind line head with ⟨hd, -⟩ | ⟨e, hd⟩ | ⟨hd, -⟩
    · rw [hd]
      exact .refl _
    · rw [hd]
      exact .refl _
    · rw [hd]
      refine ⟨rfl, fun k r hr => ?_⟩
      rw [SymbolTable.bare?_enter, hr]
      rfl

theorem not_accepts {c : TableCall} (h : ∀ name l ordered head, c ≠ .lookup name l ordered head) :
    ¬ s.Accepts key line c := by
  rintro ⟨name, ordered, head, hc, -⟩
  exact h name line ordered head hc

theorem accepts_lookup {name : Text} {l : Word} {ordered : Bool} {head : Byte} :
    s.Accepts key line (.lookup name l ordered head) ↔
      line = l ∧ name.isBlank = false ∧ referenceKey s.table.divide head name = .ok key ∧
        ((s.table.get? key).isSome = true ∨ s.entering = true) ∧
        error (.forwardReference key) ∉
          (s.table.lookup name l ordered head s.entering).reports := by
  simp only [entering, beq_iff_eq]
  constructor
  · rintro ⟨_, _, _, hc, h⟩
    cases hc
    exact ⟨rfl, h⟩
  · rintro ⟨rfl, h⟩
    exact ⟨name, ordered, head, rfl, h⟩

/-- **One call** notes its line if it is a look-up that comes to the symbol, and no other line. -/
theorem refers_call (s : TableState) (c : TableCall) :
    (s.call c).table.Refers key line ↔ s.table.Refers key line ∨ s.Accepts key line c := by
  cases c with
  | enterPass pass => simp [call, not_accepts]
  | verify name l head => simp [call, not_accepts]
  | define name address kind l head =>
    have hnot : ¬ s.Accepts key line (.define name address kind l head) := not_accepts (by simp)
    rcases s.table.define_cases name address kind l head with ⟨hd, -⟩ | ⟨e, hd⟩ | ⟨hd, -⟩
    · simp [hd, hnot]
    · simp [hd, hnot]
    · simp [hd, hnot, SymbolTable.refers_enter, LineSet.toList]
  | lookup name l ordered head =>
    rw [call_lookup, accepts_lookup]
    rcases s.table.lookup_cases name l ordered head s.entering with ⟨ht, hno⟩ | ⟨k, ht, hblank, hk⟩
    · rcases hno with hblank | ⟨e, he⟩
      · simp [ht, hblank]
      · simp [ht, he]
    · rw [ht, SymbolTable.refers_resolve]
      refine or_congr_right ⟨?_, ?_⟩
      · rintro ⟨rfl, rfl, h⟩
        exact ⟨rfl, hblank, hk, h⟩
      · rintro ⟨rfl, -, hkey, h⟩
        obtain rfl : k = key := Except.ok.inj (hk.symm.trans hkey)
        exact ⟨rfl, rfl, h⟩

theorem ordered_call (s : TableState) (c : TableCall) (hdistinct : s.table.Distinct)
    (hascending : s.table.Ascending) :
    (s.call c).table.Distinct ∧ (s.call c).table.Ascending := by
  cases c with
  | enterPass pass => exact ⟨hdistinct, hascending⟩
  | verify name line head => exact ⟨hdistinct, hascending⟩
  | define name address kind line head =>
    exact ⟨hdistinct.define .., .define hascending name address kind line head⟩
  | lookup name line ordered head =>
    exact ⟨hdistinct.lookup .., .lookup hascending name line ordered head s.entering⟩

theorem define_refused {name : Text} {address : Word} {kind : Kind} {line : Word} {head : Byte}
    (h : s.reports (.define name address kind line head) ≠ []) :
    s.call (.define name address kind line head) = s := by
  change (s.table.define name address kind line head).2 ≠ [] at h
  rw [call_define]
  rcases s.table.define_cases name address kind line head with ⟨hd, -⟩ | ⟨e, hd⟩ | ⟨hd, -⟩
  · rw [hd]
  · rw [hd]
  · simp [hd] at h

theorem names_lookup (hpass : s.pass ≠ 2) (name : Text) (line : Word) (ordered : Bool)
    (head : Byte) : (s.call (.lookup name line ordered head)).table.symbols.map Symbol.name =
      s.table.symbols.map Symbol.name := by
  have hentering : s.entering = false := by simpa [entering] using hpass
  rw [call_lookup, hentering]
  rcases s.table.lookup_cases name line ordered head false with ⟨ht, -⟩ | ⟨key, ht, -⟩
  · rw [ht]
  · rw [ht, SymbolTable.names_resolve]

/-! ## Rows of calls -/

theorem embeds_run (s : TableState) (calls : List TableCall) :
    s.table.Embeds (s.run calls).table := by
  induction calls generalizing s with
  | nil => exact .refl _
  | cons c calls ih => exact (s.embeds_call c).trans (ih (s.call c))

theorem ordered_run (s : TableState) (calls : List TableCall) (hdistinct : s.table.Distinct)
    (hascending : s.table.Ascending) :
    (s.run calls).table.Distinct ∧ (s.run calls).table.Ascending := by
  induction calls generalizing s with
  | nil => exact ⟨hdistinct, hascending⟩
  | cons c calls ih =>
    obtain ⟨hd, ha⟩ := s.ordered_call c hdistinct hascending
    exact ih (s.call c) hd ha

/-- **A row of calls** notes the lines of the look-ups that come to the symbol, and no others. -/
theorem refers_run (s : TableState) (calls : List TableCall) :
    (s.run calls).table.Refers key line ↔ s.table.Refers key line ∨
      ∃ before c after, calls = before ++ c :: after ∧ (s.run before).Accepts key line c := by
  induction calls generalizing s with
  | nil => simp [run]
  | cons c calls ih =>
    change ((s.call c).run calls).table.Refers key line ↔ _
    rw [ih, refers_call, or_assoc]
    refine or_congr_right ?_
    constructor
    · rintro (h | ⟨before, d, after, rfl, h⟩)
      · exact ⟨[], c, calls, rfl, h⟩
      · exact ⟨c :: before, d, after, rfl, h⟩
    · rintro ⟨before, d, after, hsplit, h⟩
      cases before with
      | nil =>
        obtain ⟨rfl, rfl⟩ := List.cons.inj hsplit
        exact .inl h
      | cons e before =>
        obtain ⟨rfl, hrest⟩ := List.cons.inj hsplit
        exact .inr ⟨before, d, after, hrest, h⟩

end TableState

/-- **The table behind any row of calls** on an empty one. Every symbol is the one that its name
stands for, and keeps its address, its kind and its line of definition behind all further calls. The
lines that refer to it are strictly ascending, and they are those of the look-ups that came to it.
Verifying, a definition that is refused and a look-up outside the second pass enter and remove
nothing. The sorted symbols are all symbols, strictly in byte order of their names. -/
theorem symbols_of_calls (divide : Bool) (calls : List TableCall) :
    let now := (TableState.empty divide).run calls
    (∀ s ∈ now.table.symbols, now.table.get? s.name = some s) ∧
    (∀ more key s, now.table.get? key = some s →
      ∃ r, (now.run more).table.get? key = some r ∧
        r.address = s.address ∧ r.kind = s.kind ∧ r.defined = s.defined) ∧
    (∀ key s, now.table.get? key = some s → s.references.toList.Pairwise (· < ·) ∧
      ∀ line, line ∈ s.references.toList ↔ ∃ before c after, calls = before ++ c :: after ∧
        ((TableState.empty divide).run before).Accepts key line c) ∧
    (∀ c, (∃ name line head, c = .verify name line head) ∨
        (∃ name address kind line head, c = .define name address kind line head ∧
          now.reports c ≠ []) ∨
        (now.pass ≠ 2 ∧ ∃ name line ordered head, c = .lookup name line ordered head) →
      (now.call c).table.symbols.map Symbol.name = now.table.symbols.map Symbol.name) ∧
    now.table.sorted.Perm now.table.symbols ∧
    now.table.sorted.Pairwise fun a b => List.Lex (· < ·) a.name b.name := by
  intro now
  obtain ⟨hdistinct, hascending⟩ := (TableState.empty divide).ordered_run calls List.nodup_nil
    fun s hs => absurd hs List.not_mem_nil
  refine ⟨fun s hs => SymbolTable.get?_of_mem hdistinct hs, fun more key s hs => ?_,
    fun key s hs => ⟨hascending s (List.mem_of_find?_eq_some hs), fun line => ?_⟩, ?_,
    List.mergeSort_perm _ _, SymbolTable.sorted_ascending hdistinct⟩
  · have hbare := (now.embeds_run more).bare key s.bare (SymbolTable.bare?_of_get? hs)
    obtain ⟨r, hr, heq⟩ := Option.map_eq_some_iff.mp hbare
    simp only [Symbol.bare, Symbol.mk.injEq] at heq
    exact ⟨r, hr, heq.2.1, heq.2.2.1, heq.2.2.2.1⟩
  · have hrefers : now.table.Refers key line ↔ line ∈ s.references.toList := by
      simp [SymbolTable.Refers, hs]
    rw [← hrefers, TableState.refers_run]
    simp [TableState.empty, SymbolTable.Refers, SymbolTable.get?]
  · rintro c (⟨name, line, head, rfl⟩ | ⟨name, address, kind, line, head, rfl, hreports⟩ |
      ⟨hpass, name, line, ordered, head, rfl⟩)
    · rfl
    · rw [TableState.define_refused hreports]
    · exact TableState.names_lookup hpass name line ordered head

end SpsAssembler
