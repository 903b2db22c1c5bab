import SpsAssembler.Proofs.Layout

/-!
# Errors that a second state raises as well

Two states that give the same values to the layout operands of a statement, and of which the first
knows every symbol that the second knows, parse and place it with the same errors: if the second
raises none, the first raises none.

* `valuesOf_echo`, **`evaluateIn_echo`**: operands without an error;
* `Echo`: an error of the first state is one of the second;
* **`echo_tracks`**: placing and parsing keep it so.
-/

namespace SpsAssembler

open Assembly (Aligned)

/-! ## Operands -/

section Operands

variable {scope scope' : Scope} {usage : Usage} {t u : SymbolTable}

/-- A row of terms without an error by one table has none by a second one that has settled the same
keys. -/
theorem valuesOf_echo (hdivide : u.divide = t.divide) (hhead : scope'.head = scope.head)
    (hline : scope'.line = scope.line) (terms : List (Operator × Text))
    (hkeys : ∀ key ∈ termKeys t.divide scope.head terms,
      u.Settled key scope.line usage.ordered → t.Settled key scope.line usage.ordered)
    (hchain : (valuesOf scope' usage u terms).chain.isSome = true)
    (h : ∀ r ∈ (valuesOf scope' usage u terms).reports, r.isError = false) :
    ∀ r ∈ (valuesOf scope usage t terms).reports, r.isError = false := by
  induction terms generalizing t u with
  | nil => simp [valuesOf]
  | cons first rest ih =>
    obtain ⟨op, text⟩ := first
    unfold valuesOf at hchain h ⊢
    rw [hdivide] at hchain h
    cases hterm : Term.read? t.divide text with
    | none => simp
    | some term =>
      simp only [hterm, Option.isSome_map] at hchain h ⊢
      have hnoted := Term.value_noted scope usage t term
      have hnoted' := Term.value_noted scope' usage u term
      intro r hr
      rcases List.mem_append.mp hr with hr | hr
      · cases term with
        | star => cases hr
        | literal n => cases hr
        | symbol name =>
          have hname := fun r hr => h r (List.mem_append_left _ hr)
          simp only [Term.value, SymbolTable.lookup, hdivide, hhead, hline] at hname hr
          split at hr
          · cases hr
          · rename_i hblank
            simp only [hblank, Bool.false_eq_true, if_false] at hname
            cases hkey : referenceKey t.divide scope.head name with
            | error c =>
              rw [hkey] at hname
              exact absurd (hname (error c) List.mem_cons_self) (by simp [Report.isError, error])
            | ok key =>
              simp only [hkey] at hname hr
              have hsettled := hkeys key
                (mem_termKeys_cons.mpr (.inl (by simp [termKey?, hterm, hkey, Except.toOption])))
                (SymbolTable.settled_of_resolve hname)
              obtain ⟨s, -, hresolve⟩ := SymbolTable.resolve_of_settled hsettled scope.entering
              rw [hresolve] at hr
              cases hr
      · refine ih ?_ (fun key hkey hsettled => ?_) hchain
          (fun r hr => h r (List.mem_append_right _ hr)) r hr
        · rw [hnoted.divide, hnoted'.divide, hdivide]
        · rw [hnoted.divide] at hkey
          exact (hkeys key (mem_termKeys_cons.mpr (.inr hkey))
            (hsettled.of_noted hnoted')).mono hnoted.embeds

/-- **An operand without an error** has none by a table that gives its keys the same values and has
settled the same ones. -/
theorem evaluateIn_echo {operand : Text} (hdivide : u.divide = t.divide)
    (hhead : scope'.head = scope.head) (hline : scope'.line = scope.line)
    (hsize : scope'.memorySize = scope.memorySize)
    (hkeys : ∀ key ∈ operandKeys t.divide scope.head operand,
      u.valueAt key scope.line usage.ordered = t.valueAt key scope.line usage.ordered ∧
        (u.Settled key scope.line usage.ordered → t.Settled key scope.line usage.ordered))
    (h : ∀ r ∈ (evaluateIn scope' usage u operand).reports, r.isError = false) :
    ∀ r ∈ (evaluateIn scope usage t operand).reports, r.isError = false := by
  rw [evaluateIn_reports] at h ⊢
  rw [hdivide] at h
  by_cases hnone : (operand.isBlank || (Expression.read t.divide operand).terms.isEmpty) = true
  · rw [if_pos hnone]
    exact fun r hr => by cases hr
  · rw [if_neg hnone] at h ⊢
    have hblank : operand.isBlank = false := by
      simp only [Bool.or_eq_true, not_or, Bool.not_eq_true] at hnone
      exact hnone.1
    rw [operandKeys, hblank] at hkeys
    have hsame : chainOf scope' usage u (Expression.read t.divide operand).terms =
        chainOf scope usage t (Expression.read t.divide operand).terms :=
      chainOf_congr hdivide hhead hline _ fun key hkey => (hkeys key hkey).1
    rw [hsame, hsize] at h
    have hchain : (chainOf scope usage t (Expression.read t.divide operand).terms).isSome = true := by
      cases hc : chainOf scope usage t (Expression.read t.divide operand).terms with
      | some chain => rfl
      | none =>
        rw [hc] at h
        exact absurd (h (error (.invalidOperand operand)) (by simp [restReports]))
          (by simp [Report.isError, error])
    intro r hr
    rcases List.mem_append.mp hr with hr | hr
    · refine valuesOf_echo hdivide hhead hline _ (fun key hkey => (hkeys key hkey).2) ?_
        (fun r hr => h r (List.mem_append_left _ hr)) r hr
      rwa [valuesOf_chain, hsame]
    · exact h r (List.mem_append_right _ hr)

end Operands

/-! ## States -/

/-- Two aligned states on the same line give the layout operands of a statement the same values, and
what is settled in the second is settled in the first. If the second has raised no error since it had
raised `n`, the first has raised none since it had raised `m`. -/
structure Echo (operands : List Text) (m n : Nat) (a b : Assembly) : Prop extends Aligned a b where
  line : b.log.line = a.log.line
  audible : a.log.muted = 0 ∧ b.log.muted = 0
  divide : b.symbols.divide = a.symbols.divide
  keys : ∀ operand ∈ operands, ∀ key ∈ operandKeys a.symbols.divide a.head operand,
    b.symbols.valueAt key a.log.line true = a.symbols.valueAt key a.log.line true ∧
      (b.symbols.Settled key a.log.line true → a.symbols.Settled key a.log.line true)
  since : n ≤ b.log.errorCount
  errors : b.log.errorCount ≤ n → a.log.errorCount ≤ m

namespace Echo

variable {operands : List Text} {m n : Nat} {a b a' b' : Assembly} {reach : Reach}

theorem leads (h : Echo operands m n a b) (ha : Leads reach a a') (hb : Leads reach b b')
    (hturns : reach.turns = false) (haligned : Aligned a' b')
    (herrors : b'.log.errorCount ≤ n → a'.log.errorCount ≤ m) : Echo operands m n a' b' := by
  have hline : a'.log.line = a.log.line := ha.frame.line_eq
  have hline' : b'.log.line = b.log.line := hb.frame.line_eq
  have hmuted : a'.log.muted = a.log.muted := congrArg (·.2.1) ha.frame.place
  have hmuted' : b'.log.muted = b.log.muted := congrArg (·.2.1) hb.frame.place
  refine { haligned with
    line := by rw [hline, hline', h.line]
    audible := by rw [hmuted, hmuted']; exact h.audible
    divide := by rw [ha.frame.noted.divide, hb.frame.noted.divide, h.divide]
    keys := fun operand hmem key hkey => ?_
    since := Nat.le_trans h.since hb.frame.errors
    errors := herrors }
  rw [ha.frame.noted.divide, ha.head_eq hturns] at hkey
  obtain ⟨hvalue, hsettled⟩ := h.keys operand hmem key hkey
  rw [hline, ha.frame.noted.valueAt_eq, hb.frame.noted.valueAt_eq]
  exact ⟨hvalue, fun hs => (hsettled (hs.of_noted hb.frame.noted)).mono ha.frame.noted.embeds⟩

theorem still (h : Echo operands m n a b) (ha : Leads .still a a') (hb : Leads .still b b')
    (herrors : b'.log.errorCount ≤ n → a'.log.errorCount ≤ m) : Echo operands m n a' b' :=
  h.leads ha hb rfl (h.toAligned.leads ha hb) herrors

theorem raise (h : Echo operands m n a b) {reports : List (Report Cause)}
    (hu : Unlabelled reports) : Echo operands m n (a.raise reports) (b.raise reports) := by
  refine h.still (.single (.report a reports hu)) (.single (.report b reports hu)) fun hn => ?_
  change (b.log.raiseAll reports).errorCount ≤ n at hn
  change (a.log.raiseAll reports).errorCount ≤ m
  rw [Log.errorCount_raiseAll _ h.audible.2] at hn
  rw [Log.errorCount_raiseAll _ h.audible.1]
  have hsince := h.since
  have hm := h.errors (by omega)
  omega

theorem move (h : Echo operands m n a b) {counter counter' last last' entry entry' : Word}
    {ending ending' : Ending} (hcounter : counter' = counter) (hlast : last' = last)
    (hending : ending' = ending) : Echo operands m n { a with counter, last, ending, entry }
      { b with counter := counter', last := last', ending := ending', entry := entry' } where
  options := h.options
  counter := hcounter
  last := hlast
  head := h.head
  ending := hending
  line := h.line
  audible := h.audible
  divide := h.divide
  keys := h.keys
  since := h.since
  errors := h.errors

end Echo

variable {operands : List Text}

/-- The value of a layout operand is the same, and it has no error that the second state does not
find. -/
theorem Echo.evaluateIn {m n : Nat} {a b : Assembly} (h : Echo operands m n a b) {operand : Text}
    (hmem : operand ∈ operands) (usage : Usage) (hord : usage.ordered = true) :
    (evaluateIn b.scope usage b.symbols operand).value =
        (evaluateIn a.scope usage a.symbols operand).value ∧
      ((∀ r ∈ (evaluateIn b.scope usage b.symbols operand).reports, r.isError = false) →
        ∀ r ∈ (evaluateIn a.scope usage a.symbols operand).reports, r.isError = false) := by
  have hsize : b.scope.memorySize = a.scope.memorySize := congrArg Options.memorySize h.options
  have hkeys := h.keys operand hmem
  rw [← hord] at hkeys
  have hraw : rawValue b.scope usage b.symbols operand = rawValue a.scope usage a.symbols operand :=
    rawValue_congr h.divide h.head h.line fun key hkey => (hkeys key hkey).1
  refine ⟨?_, evaluateIn_echo h.divide h.head h.line hsize hkeys⟩
  rw [evaluateIn_value, evaluateIn_value, hsize, hraw]

theorem echo_tracks (operands : List Text) (m n : Nat) : Tracks operands (Echo operands m n) where
  reads h := ⟨by rw [h.options], by rw [h.options], h.counter, h.last, h.ending⟩
  report hu _ _ h := ⟨rfl, h.raise hu⟩
  layout {operand} hmem check a b h := by
    obtain ⟨hvalue, hreports⟩ := h.evaluateIn hmem { star := a.last, ordered := true, check } rfl
    refine ⟨?_, h.still (evaluateLayout_within a) (evaluateLayout_within b) fun hn => ?_⟩
    · change (evaluateIn b.scope { star := b.last, ordered := true, check } b.symbols operand).value =
        _
      rw [h.last]
      exact hvalue
    · rw [evaluateLayout_apply] at hn ⊢
      change (b.log.raiseAll (evaluateIn b.scope { star := b.last, ordered := true, check } b.symbols
        operand).reports).errorCount ≤ n at hn
      change (a.log.raiseAll (evaluateIn a.scope { star := a.last, ordered := true, check } a.symbols
        operand).reports).errorCount ≤ m
      rw [h.last] at hn
      have hclean := b.log.not_isError_of_errorCount h.audible.2 (Nat.le_trans hn h.since)
      rw [Log.errorCount_raiseAll_of_clean _ h.audible.1 (hreports hclean)]
      exact h.errors (Nat.le_trans (b.log.errorCount_le_raiseAll _) hn)
  quiet {operand} hmem usage hord a b h := by
    refine ⟨(h.evaluateIn hmem usage hord).1,
      h.still (evaluateQuietly_within a) (evaluateQuietly_within b) ?_⟩
    rw [evaluateQuietly_eq]
    exact h.errors
  count h _ _ := h.move rfl rfl h.ending
  stop h _ := h.move h.counter h.last rfl
  enter h _ := h.move h.counter h.last h.ending
  turn hnone _ _ h _ := by
    subst hnone
    exact { h with head := rfl, keys := by simp }

end SpsAssembler
