import SpsAssembler.Proofs.Operands

/-!
# What is reported about an operand

The evaluation of an operand reports what is wrong with the symbols in it, one after the other, and
then what is wrong with the rest of it. A sort of causes that covers all this has all the reports.

* `Throughout`: reports whose causes are of one sort;
* `referenceKey_error`, **`valuesOf_throughout`**: what is reported about the symbols;
* `restReports`, **`evaluateIn_reports`**: what is reported besides;
* `CoversOperand`, **`evaluateIn_throughout`**: what the evaluation of an operand reports;
* `evaluateIn_unlabelled`: none of it is about a label.
-/

namespace SpsAssembler

/-! ## Reports of one sort -/

/-- All reports have causes of one sort. -/
def Throughout (P : Cause → Prop) (reports : List (Report Cause)) : Prop := ∀ r ∈ reports, P r.cause

namespace Throughout

variable {P : Cause → Prop} {rs qs : List (Report Cause)}

theorem nil : Throughout P [] := by simp [Throughout]

theorem one {r : Report Cause} (h : P r.cause) : Throughout P [r] := by
  simpa [Throughout] using h

theorem append (hr : Throughout P rs) (hq : Throughout P qs) : Throughout P (rs ++ qs) :=
  fun r h => (List.mem_append.mp h).elim (hr r) (hq r)

theorem ite {c : Prop} [Decidable c] (hr : Throughout P rs) (hq : Throughout P qs) :
    Throughout P (if c then rs else qs) := by
  split
  · exact hr
  · exact hq

end Throughout

/-! ## Symbols -/

/-- A name that stands for no key is no symbol, or its head is none. -/
theorem referenceKey_error {divide : Bool} {head : Byte} {name : Text} {c : Cause}
    (h : referenceKey divide head name = .error c) :
    (∃ t, c = .invalidSymbol t) ∨ ∃ t, c = .invalidSymbolHead t := by
  unfold referenceKey at h
  split at h
  · split at h <;> cases h
    exact .inl ⟨name, rfl⟩
  · cases h
  · split at h
    · cases h
      exact .inr ⟨_, rfl⟩
    · split at h <;> cases h
      exact .inl ⟨_, rfl⟩
  · cases h
    exact .inr ⟨_, rfl⟩

section Symbols

variable {P : Cause → Prop} {divide : Bool} {head : Byte}
  (hname : ∀ name c, isSymbol divide name = true → referenceKey divide head name = .error c → P c)
  (hkey : ∀ name key, isSymbol divide name = true → referenceKey divide head name = .ok key →
    P (.undefinedSymbol key) ∧ P (.forwardReference key))
include hname hkey

theorem SymbolTable.lookup_throughout {t : SymbolTable} (ht : t.divide = divide) {name : Text}
    (hsymbol : isSymbol divide name = true) (line : Word) (ordered entering : Bool) :
    Throughout P (t.lookup name line ordered head entering).reports := by
  unfold lookup
  rw [ht]
  split
  · exact .nil
  · cases hreference : referenceKey divide head name with
    | error c => exact .one (hname name c hsymbol hreference)
    | ok key =>
      obtain ⟨hundefined, hforward⟩ := hkey name key hsymbol hreference
      dsimp only
      rcases t.resolve_cases key line ordered entering with ⟨-, h⟩ |
        ⟨s, -, ⟨-, h⟩ | ⟨-, -, h⟩ | ⟨-, -, h⟩⟩ <;> rw [h]
      · exact .one hundefined
      · exact .one hundefined
      · exact .one hforward
      · exact .nil

/-- **The symbols of a row of terms** are reported as the names and keys that they are. -/
theorem valuesOf_throughout {scope : Scope} (hhead : scope.head = head) (usage : Usage)
    {t : SymbolTable} (ht : t.divide = divide) (terms : List (Operator × Text)) :
    Throughout P (valuesOf scope usage t terms).reports := by
  subst hhead
  induction terms generalizing t with
  | nil => exact .nil
  | cons first rest ih =>
    obtain ⟨op, text⟩ := first
    unfold valuesOf
    cases hterm : Term.read? t.divide text with
    | none => exact .nil
    | some term =>
      refine .append ?_ (ih ((Term.value_noted scope usage t term).divide.trans ht))
      cases term with
      | star => exact .nil
      | literal n => exact .nil
      | symbol name =>
        exact t.lookup_throughout hname hkey ht (ht ▸ isSymbol_of_read? hterm) _ _ _

end Symbols

/-! ## The rest of an operand -/

/-- What is reported about an operand besides its symbols. -/
def restReports (usage : Usage) (size : Word) (operand : Text) (e : Expression) :
    Option Chain → List (Report Cause)
  | none => [error (.invalidOperand operand)]
  | some chain =>
    (if !e.index.isEmpty && !usage.indexed then [error (.indexNotSupported e.index)] else []) ++
      if e.dangling then [error (.invalidOperand operand)]
      else match total chain with
        | none => [error .divideByZero]
        | some v => (usage.check.apply size v).2 ++
            if usage.indexed then (readIndex e.index).2 else []

theorem evaluateIn_reports (scope : Scope) (usage : Usage) (t : SymbolTable) (operand : Text) :
    (evaluateIn scope usage t operand).reports =
      if operand.isBlank || (Expression.read t.divide operand).terms.isEmpty then []
      else (valuesOf scope usage t (Expression.read t.divide operand).terms).reports ++
        restReports usage scope.memorySize operand (Expression.read t.divide operand)
          (chainOf scope usage t (Expression.read t.divide operand).terms) := by
  rw [← valuesOf_chain, evaluateIn_eq]
  generalize Expression.read t.divide operand = e
  by_cases hblank : operand.isBlank = true
  · simp [hblank]
  · by_cases hterms : e.terms.isEmpty = true
    · simp [hblank, hterms]
    · simp only [hblank, hterms, Bool.or_self, if_false, Bool.false_eq_true]
      generalize valuesOf scope usage t e.terms = vs
      cases vs.chain with
      | none => rfl
      | some chain =>
        dsimp only [restReports]
        by_cases hdangling : e.dangling = true
        · simp only [hdangling, if_true, List.append_assoc]
        · simp only [hdangling, Bool.false_eq_true, if_false]
          cases total chain with
          | none => simp only [List.append_assoc]
          | some v =>
            cases usage.indexed <;> simp [List.append_assoc]

/-- What is wrong with the value of an operand. -/
def Cause.concernsValue : Cause → Bool
  | divideByZero | addressNotPositive _ | addressNotEven _ | addressNotOdd _ | addressTooLarge _
  | valueNotPositive _ | valueTooLarge _ => true
  | _ => false

/-- A sort of causes to which all belongs that may be wrong with an operand under a head: with its
value, with the whole of it, with its index, and with the names in it. -/
structure CoversOperand (P : Cause → Prop) (divide : Bool) (head : Byte) (operand : Text) : Prop where
  value : ∀ c, c.concernsValue = true → P c
  whole : P (.invalidOperand operand)
  index : ∀ index, index <:+ operand → P (.indexNotSupported index) ∧ P (.invalidIndex index)
  name : ∀ name c, isSymbol divide name = true → referenceKey divide head name = .error c → P c
  key : ∀ name key, isSymbol divide name = true → referenceKey divide head name = .ok key →
    P (.undefinedSymbol key) ∧ P (.forwardReference key)

section Operand

variable {P : Cause → Prop} {divide : Bool} {scope : Scope} {usage : Usage} {operand : Text}

namespace Check

theorem correct_throughout {faulty : Word → Bool} {cause : Word → Cause} {mend : Word → Word}
    {v : Verdict} (hc : ∀ x, P (cause x)) (hv : Throughout P v.2) :
    Throughout P (correct faulty cause mend v).2 := by
  unfold correct
  split
  · exact hv.append (.one (hc _))
  · exact hv

theorem caution_throughout {faulty : Word → Bool} {cause : Word → Cause} {v : Verdict}
    (hc : ∀ x, P (cause x)) (hv : Throughout P v.2) : Throughout P (caution faulty cause v).2 := by
  unfold caution
  split
  · exact hv.append (.one (hc _))
  · exact hv

theorem apply_throughout (h : ∀ c : Cause, c.concernsValue = true → P c) (check : Check)
    (size v : Word) : Throughout P (check.apply size v).2 := by
  have hv : Throughout P ((v, []) : Verdict).2 := .nil
  have hpositive : Throughout P (notNegative (v, [])).2 := correct_throughout (fun _ => h _ rfl) hv
  cases check <;> unfold apply
  case none => exact hv
  case address => exact correct_throughout (fun _ => h _ rfl) hpositive
  case addressEven =>
    exact correct_throughout (fun _ => h _ rfl) (correct_throughout (fun _ => h _ rfl) hpositive)
  case addressOdd =>
    exact correct_throughout (fun _ => h _ rfl) (correct_throughout (fun _ => h _ rfl) hpositive)
  case reference => exact caution_throughout (fun _ => h _ rfl) hv
  case referenceEven =>
    exact caution_throughout (fun _ => h _ rfl) (caution_throughout (fun _ => h _ rfl) hv)
  case referenceOdd =>
    exact caution_throughout (fun _ => h _ rfl) (caution_throughout (fun _ => h _ rfl) hv)
  case value => exact correct_throughout (fun _ => h _ rfl) hv
  case positive =>
    exact correct_throughout (fun _ => h _ rfl) (correct_throughout (fun _ => h _ rfl) hv)
  case double => exact correct_throughout (fun _ => h _ rfl) hv

end Check

theorem readIndex_throughout {index : Text} (h : P (.invalidIndex index)) :
    Throughout P (readIndex index).2 := by
  unfold readIndex
  split
  · exact .nil
  · split
    · exact .nil
    · exact .one h

theorem restReports_throughout {head : Byte} (h : CoversOperand P divide head operand) (size : Word)
    (chain : Option Chain) :
    Throughout P (restReports usage size operand (Expression.read divide operand) chain) := by
  obtain ⟨hrefused, hwrong⟩ := h.index _ (Expression.index_read divide operand)
  cases chain with
  | none => exact .one h.whole
  | some chain =>
    refine .append (.ite (.one hrefused) .nil) (.ite (.one h.whole) ?_)
    cases total chain with
    | none => exact .one (h.value _ rfl)
    | some v =>
      exact .append (Check.apply_throughout h.value _ _ _)
        (.ite (readIndex_throughout hwrong) .nil)

/-- **Evaluating an operand** reports what may be wrong with it, and nothing else. -/
theorem evaluateIn_throughout {table : SymbolTable}
    (h : CoversOperand P table.divide scope.head operand) :
    Throughout P (evaluateIn scope usage table operand).reports := by
  rw [evaluateIn_reports]
  exact .ite .nil (.append (valuesOf_throughout h.name h.key rfl usage rfl _)
    (restReports_throughout h _ _))

end Operand

theorem evaluateIn_unlabelled (scope : Scope) (usage : Usage) (table : SymbolTable) (operand : Text) :
    Unlabelled (evaluateIn scope usage table operand).reports := by
  have hvalue : ∀ c : Cause, c.concernsValue = true → c.concernsLabel = false := by
    intro c hc
    cases c <;> first | rfl | cases hc
  have hname : ∀ name c, isSymbol table.divide name = true →
      referenceKey table.divide scope.head name = .error c → c.concernsLabel = false := by
    intro name c _ hc
    rcases referenceKey_error hc with ⟨t, rfl⟩ | ⟨t, rfl⟩ <;> rfl
  have hcovers : CoversOperand (·.concernsLabel = false) table.divide scope.head operand :=
    ⟨hvalue, rfl, fun _ _ => ⟨rfl, rfl⟩, hname, fun _ _ _ _ => ⟨rfl, rfl⟩⟩
  exact evaluateIn_throughout hcovers

end SpsAssembler
