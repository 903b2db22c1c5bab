import SpsAssembler.Proofs.OperandGrammar

/-!
# The value of an operand

Multiplications and divisions bind more than additions and subtractions, so an operand is a sum of
products, each of which is taken away or added.

* `Product`, `products`, `signedSum`: an operand as a sum of products;
* **`total_eq`**: the value of a row of terms is this sum, unless a divisor is zero;
* `Formula.fold_stack`: the stack of the terms of a formula is folded in place to this sum;
* **`evaluate_formula`**: the value of a formula.
-/

namespace SpsAssembler

/-! ## Sums of products -/

/-- A row of factors, each a multiplication or a division, and whether it is taken away. -/
structure Product where
  negative : Bool
  first : Word
  factors : Chain

/-- One more factor or divisor. -/
def Product.times (acc : Word) (factor : Operator × Word) : Word :=
  if factor.1 = .div then acc / factor.2 else acc * factor.2

/-- The value of a product, from left to right. -/
def Product.value (p : Product) : Word := p.factors.foldl times p.first

/-- The value of a product with its sign. -/
def Product.signed (p : Product) : Word := if p.negative then -p.value else p.value

/-- The sum of products with their signs. -/
def signedSum (ps : List Product) : Word := ps.foldr (fun p sum => p.signed + sum) 0

/-- The factors at the front of a row, and the products behind them. -/
def splitProducts : Chain → Chain × List Product
  | [] => ([], [])
  | (op, v) :: rest =>
    let (factors, more) := splitProducts rest
    match op with
    | .add => ([], ⟨false, v, factors⟩ :: more)
    | .sub => ([], ⟨true, v, factors⟩ :: more)
    | op => ((op, v) :: factors, more)

/-- The products of a row of terms: a new one starts at every plus and minus. -/
def products (minus : Bool) (first : Word) (rest : Chain) : List Product :=
  ⟨minus, first, (splitProducts rest).1⟩ :: (splitProducts rest).2

/-- Whether the term behind some slash is zero. -/
def hasZeroDivisor (rest : Chain) : Bool := rest.any fun x => x.1 == .div && x.2 == 0

/-- A product as a term that is added or taken away. -/
def Product.summand (p : Product) : Operator × Word := (if p.negative then .sub else .add, p.value)

theorem collapse_eq (v : Word) (rest : Chain) : collapse v rest =
    if hasZeroDivisor rest then none
    else some (Product.value ⟨false, v, (splitProducts rest).1⟩,
      (splitProducts rest).2.map Product.summand) := by
  induction rest generalizing v with
  | nil => rfl
  | cons x rest ih =>
    obtain ⟨op, w⟩ := x
    cases op with
    | mul =>
      have hzero : hasZeroDivisor ((.mul, w) :: rest) = hasZeroDivisor rest := rfl
      rw [collapse, ih, hzero]
      split <;> rfl
    | div =>
      have hzero : hasZeroDivisor ((.div, w) :: rest) = (w == 0 || hasZeroDivisor rest) := rfl
      rw [collapse, ih, hzero]
      cases w == 0
      · rw [Bool.false_or, if_neg Bool.false_ne_true]
        split <;> rfl
      · rfl
    | add =>
      have hzero : hasZeroDivisor ((.add, w) :: rest) = hasZeroDivisor rest := rfl
      rw [collapse, ih, hzero]
      split <;> rfl
    | sub =>
      have hzero : hasZeroDivisor ((.sub, w) :: rest) = hasZeroDivisor rest := rfl
      rw [collapse, ih, hzero]
      split <;> rfl

theorem sumFrom_summands (acc : Word) (ps : List Product) :
    sumFrom acc (ps.map Product.summand) = acc + signedSum ps := by
  induction ps generalizing acc with
  | nil => simp [sumFrom, signedSum]
  | cons p ps ih =>
    have hsum : signedSum (p :: ps) = p.signed + signedSum ps := rfl
    have hstep : sumFrom acc ((p :: ps).map Product.summand) =
        sumFrom (acc + p.signed) (ps.map Product.summand) := by
      cases hp : p.negative <;> simp [sumFrom, Product.summand, Product.signed, hp, Int64.sub_eq_add_neg]
    rw [hstep, ih, hsum, Int64.add_assoc]

/-- **The value of a row of terms** is the signed sum of its products. -/
theorem total_eq (minus : Bool) (first : Word) (rest : Chain) :
    total ((if minus then .sub else .add, first) :: rest) =
      if hasZeroDivisor rest then none else some (signedSum (products minus first rest)) := by
  have hsum : sumFrom 0 ((if minus then .sub else .add, Product.value ⟨false, first, (splitProducts rest).1⟩) ::
      (splitProducts rest).2.map Product.summand) = signedSum (products minus first rest) := by
    have h := sumFrom_summands 0 (products minus first rest)
    rwa [Int64.zero_add] at h
  have hcollapse : collapse 0 ((if minus then .sub else .add, first) :: rest) =
      (collapse first rest).map fun r => (0, (if minus then .sub else .add, r.1) :: r.2) := by
    cases minus <;> rfl
  rw [total, hcollapse, collapse_eq]
  cases hasZeroDivisor rest with
  | true => rfl
  | false => exact congrArg some hsum

/-! ## Formulas -/

/-- What a term stands for: the star for a given word, a number for itself, and a symbol for what it
is looked up as. -/
def termValue (scope : Scope) (usage : Usage) (table : SymbolTable) (t : Text) : Word :=
  if t = ascii "*" then usage.star
  else if t.isNumber then Int64.ofNat t.digitsValue
  else (table.lookup t scope.line usage.ordered scope.head scope.entering).value

section Formula

variable (scope : Scope) (usage : Usage) (table : SymbolTable)

theorem value_of_read? {t : Text} {term : Term} (h : Term.read? table.divide t = some term) :
    (term.value scope usage table).value = termValue scope usage table t := by
  unfold Term.read? at h
  unfold termValue
  by_cases hstar : t = ascii "*"
  · rw [if_pos (by simpa using hstar)] at h
    cases h
    rw [if_pos hstar]
    rfl
  · rw [if_neg (by simpa using hstar)] at h
    rw [if_neg hstar]
    by_cases hnumber : t.isNumber = true
    · rw [if_pos hnumber] at h ⊢
      split at h
      · cases h
        rfl
      · cases h
    · rw [if_neg hnumber] at h ⊢
      split at h
      · cases h
        rfl
      · cases h

/-- The values of terms, each behind its operator. -/
def valuesIn (terms : List (Operator × Text)) : Chain :=
  terms.map fun x => (x.1, termValue scope usage table x.2)

theorem chainOf_eq {terms : List (Operator × Text)} (h : ∀ x ∈ terms, IsTerm table.divide x.2) :
    chainOf scope usage table terms = some (valuesIn scope usage table terms) := by
  induction terms with
  | nil => rfl
  | cons first rest ih =>
    obtain ⟨op, t⟩ := first
    obtain ⟨term, hterm⟩ := Option.isSome_iff_exists.mp (isTerm_iff.mp (h _ List.mem_cons_self))
    rw [chainOf, hterm, ih fun x hx => h x (List.mem_cons_of_mem _ hx), Option.bind_some,
      value_of_read? scope usage table hterm]
    rfl

variable {table} (f : Formula table.divide)

theorem IsTerm.isBlank {divide : Bool} {t : Text} (h : IsTerm divide t) : t.isBlank = false := by
  cases h with
  | star => decide
  | literal t hnumber _ =>
    cases t with
    | nil => cases hnumber
    | cons b t =>
      have hdigit : b.isDigit = true := by
        simp only [Text.isNumber, Bool.and_eq_true, List.all_cons] at hnumber
        exact hnumber.2.1
      have hb : b ≠ Byte.blank := by
        rintro rfl
        exact absurd hdigit (by decide)
      simp [Text.isBlank, hb]
  | symbol t hsymbol => exact isBlank_of_isSymbol hsymbol

theorem Formula.isBlank_text {divide : Bool} (f : Formula divide) : f.text.isBlank = false := by
  have hfirst : f.first.all (· == Byte.blank) = false := f.isTerm_first.isBlank
  simp [Text.isBlank, Formula.text, List.all_append, hfirst]

theorem Formula.isTerm_terms {divide : Bool} (f : Formula divide) :
    ∀ x ∈ f.terms, IsTerm divide x.2 := by
  intro x hx
  rcases List.mem_cons.mp hx with rfl | hx
  · exact f.isTerm_first
  · exact f.isTerm_rest x hx

theorem Formula.read_text {divide : Bool} (f : Formula divide) :
    Expression.read divide f.text = { terms := f.terms } := by
  have h := Expression.read_text f (.inl rfl : IsTail [])
  rwa [List.append_nil] at h

/-- The products of a formula. -/
def Formula.products : List Product :=
  SpsAssembler.products f.minus (termValue scope usage table f.first) (valuesIn scope usage table f.rest)

/-- Whether the term behind some slash of a formula is zero. -/
def Formula.hasZeroDivisor : Bool := SpsAssembler.hasZeroDivisor (valuesIn scope usage table f.rest)

/-- The terms of a formula on a stack; a minus in front takes the first term away from zero. -/
def Formula.stack : Stack :=
  if f.minus then .of 0 (valuesIn scope usage table f.terms)
  else .of (termValue scope usage table f.first) (valuesIn scope usage table f.rest)

theorem Formula.total_eq : total (valuesIn scope usage table f.terms) =
    if f.hasZeroDivisor scope usage then none else some (signedSum (f.products scope usage)) :=
  SpsAssembler.total_eq f.minus _ _

theorem Formula.fold_stack :
    (f.stack scope usage).fold = .ok (total (valuesIn scope usage table f.terms)) := by
  unfold stack
  by_cases hminus : f.minus = true
  · rw [if_pos hminus, Stack.fold_eq]
    rfl
  · have hterms : valuesIn scope usage table f.terms =
        (.add, termValue scope usage table f.first) :: valuesIn scope usage table f.rest := by
      simp [Formula.terms, valuesIn, hminus]
    rw [if_neg hminus, Stack.fold_eq, hterms, total, collapse, Option.map_map]
    congr 2
    funext r
    exact congrArg (sumFrom · r.2) (Int64.zero_add r.1).symm

theorem Formula.rawValue_text : rawValue scope usage table f.text =
    if f.hasZeroDivisor scope usage then none else some (signedSum (f.products scope usage)) := by
  rw [rawValue, f.read_text, f.isBlank_text, ← f.total_eq, chainOf_eq scope usage table f.isTerm_terms]
  rfl

/-- A formula whose value is not checked is told apart by a zero divisor only. -/
theorem Formula.filter_divideByZero (hcheck : usage.check = .none) :
    (evaluateIn scope usage table f.text).reports.filter (·.cause == .divideByZero) =
      if f.hasZeroDivisor scope usage then [error .divideByZero] else [] := by
  have hvalues : (valuesOf scope usage table f.terms).reports.filter (·.cause == .divideByZero) = [] := by
    refine List.filter_eq_nil_iff.mpr fun r hr hzero => ?_
    have h := valuesOf_concernsReference scope usage table f.terms r hr
    rw [beq_iff_eq.mp hzero] at h
    cases h
  have hrest : restReports usage scope.memorySize f.text { terms := f.terms }
      (some (valuesIn scope usage table f.terms)) =
        if f.hasZeroDivisor scope usage then [error .divideByZero] else [] := by
    simp only [restReports, f.total_eq, hcheck]
    cases f.hasZeroDivisor scope usage <;> simp [Check.apply, readIndex]
  rw [evaluateIn_reports, f.read_text, f.isBlank_text, chainOf_eq scope usage table f.isTerm_terms, hrest,
    if_neg (by simp [Formula.terms]), List.filter_append, hvalues, List.nil_append]
  cases f.hasZeroDivisor scope usage <;> rfl

end Formula

/-- **The value of a formula** that is not checked is the signed sum of its products. It is zero if
the term behind some slash is zero, which is reported once, and only then. The stack of its terms is
folded in place to the same value without a fault. -/
theorem evaluate_formula (a : Assembly) (usage : Usage) (hcheck : usage.check = .none)
    (f : Formula a.symbols.divide) :
    (f.hasZeroDivisor a.scope usage = false →
      (evaluate f.text usage a).1.1 = signedSum (f.products a.scope usage)) ∧
    (f.hasZeroDivisor a.scope usage = true → (evaluate f.text usage a).1.1 = 0) ∧
    (a.log.muted = 0 → ∃ messages, (evaluate f.text usage a).2.log.pending = a.log.pending ++ messages ∧
      ((evaluate f.text usage a).1.1 = 0 ∧ messages.filter (·.cause == .divideByZero) =
          [⟨.error, a.log.pass, a.log.line, .divideByZero⟩] ↔
        f.hasZeroDivisor a.scope usage = true) ∧
      (f.hasZeroDivisor a.scope usage = false → messages.filter (·.cause == .divideByZero) = [])) ∧
    (f.stack a.scope usage).fold = .ok (if f.hasZeroDivisor a.scope usage then none
      else some (signedSum (f.products a.scope usage))) := by
  have hvalue : (evaluate f.text usage a).1.1 =
      if f.hasZeroDivisor a.scope usage then 0 else signedSum (f.products a.scope usage) := by
    have h := evaluateIn_value a.scope usage a.symbols f.text
    rw [f.rawValue_text, hcheck] at h
    cases hzero : f.hasZeroDivisor a.scope usage <;> rw [hzero] at h <;> exact h
  refine ⟨fun hzero => by rw [hvalue, hzero]; rfl, fun hzero => by rw [hvalue, hzero]; rfl,
    fun hmuted => ?_, by rw [f.fold_stack, f.total_eq]⟩
  refine ⟨_, pending_evaluate f.text usage a, ?_⟩
  rw [Log.filter_kept a.log (· == .divideByZero), f.filter_divideByZero _ _ hcheck, hvalue]
  cases f.hasZeroDivisor a.scope usage <;>
    simp [Log.kept, hmuted, Report.isError, error, Log.placed]

/-- Minus a product with a division in it, plus a product whose first factor is the star. -/
def mixedFormula : Formula dividingState.symbols.divide where
  minus := true
  first := ascii "7"
  rest := [(.div, ascii "2"), (.mul, ascii "3"), (.add, ascii "*"), (.mul, ascii "2")]
  isTerm_first := by decide +kernel
  isTerm_rest := by simp only [List.forall_mem_cons]; decide +kernel
  ne_div := by decide

theorem evaluate_formula_mixed : mixedFormula.text = ascii "-7/2*3+**2" ∧
    (evaluate (ascii "-7/2*3+**2") { star := 5 } dividingState).1.1 = 1 := by
  have htext : mixedFormula.text = ascii "-7/2*3+**2" := by decide
  have h := (evaluate_formula dividingState { star := 5 } rfl mixedFormula).1 (by decide +kernel)
  rw [htext] at h
  exact ⟨htext, h.trans (by decide +kernel)⟩

end SpsAssembler
