import SpsAssembler.Proofs.FieldDigits
import SpsAssembler.Proofs.Occupancy

/-!
# Steps that report nothing

Where warnings are counted as well as errors, counts that do not rise mean that nothing was
reported. An operand that is evaluated without a report is what its expression comes to, and most
checks keep it to five digits.

* `Assembly.Attentive`, `Assembly.Silent`: both counts are kept, and neither rises;
* `Check.isBounded`, **`Check.lt_of_silent`**: values that a check lets pass;
* `Step.Grants`: what a step gives if it reports nothing;
* **`evaluate_grants`**: the value of an operand;
* `Assembly.worth`, `evaluate_given`, `evaluateEven_given`: operands that go into fields.
-/

namespace SpsAssembler

open Assembly (Keeps)

variable {a b c : Assembly}

/-! ## Silence -/

namespace Assembly

/-- The machine has one of its sizes, and errors and warnings are counted. -/
structure Attentive (a : Assembly) : Prop extends a.Checked where
  cautious : a.log.warnings = true

/-- Neither an error nor a warning was counted on the way. -/
def Silent (a b : Assembly) : Prop :=
  b.log.errorCount ≤ a.log.errorCount ∧ b.log.warningCount ≤ a.log.warningCount

theorem Attentive.of_keeps (h : a.Attentive) (hab : Keeps a b) : b.Attentive where
  toChecked := h.toChecked.of_keeps hab
  cautious := hab.cautious.trans h.cautious

theorem Attentive.leads {reach : Reach} (h : a.Attentive) (hab : Leads reach a b) : b.Attentive :=
  h.of_keeps (.of_frame hab.frame)

theorem Silent.split (h : a.Silent c) (hab : Keeps a b) (hbc : Keeps b c) :
    a.Silent b ∧ b.Silent c :=
  ⟨⟨Nat.le_trans hbc.errors h.1, Nat.le_trans hbc.warnings h.2⟩,
    Nat.le_trans h.1 hab.errors, Nat.le_trans h.2 hab.warnings⟩

theorem Attentive.nil_of_silent (h : a.Attentive) {reports : List (Report Cause)}
    (hsilent : a.Silent (a.raise reports)) : reports = [] :=
  a.log.eq_nil_of_counts h.muted h.cautious hsilent.1 hsilent.2

end Assembly

/-! ## Checks -/

namespace Check

/-- Checks that keep a value to five digits. -/
def isBounded : Check → Bool
  | none | double => false
  | _ => true

theorem caution_of_silent {faulty : Word → Bool} {cause : Word → Cause} {v : Verdict}
    (h : (caution faulty cause v).2 = []) : faulty v.1 = false := by
  unfold caution at h
  split at h
  · simp at h
  · rename_i hv
    simpa using hv

theorem clean_of_silent {rs : List (Report Cause)} (h : rs = []) :
    ∀ r ∈ rs, r.isError = false := by
  simp [h]

/-- **A value that its check says nothing about** has at most five digits. -/
theorem lt_of_silent {check : Check} (hcheck : check.isBounded = true) {size v : Word}
    (hsize : size ∈ memorySizes) (hv : v ≠ Int64.minValue) (h : (check.apply size v).2 = []) :
    v.toInt.natAbs < 10 ^ 5 := by
  obtain ⟨-, hmax⟩ := toInt_of_mem_memorySizes hsize
  have hmagnitude := Value.toInt_magnitude hv
  have hclean := clean_of_silent h
  have hvalue := value_of_clean hclean
  have hshort : check.isSafe = true → v.toInt.natAbs < 10 ^ 5 := by
    intro hsafe
    obtain ⟨hlo, hhi⟩ := short_apply hsafe hsize hv
    rw [hvalue] at hlo hhi
    omega
  -- A reference is compared with the size of core by its magnitude.
  have hnear : ∀ w : Verdict, w.1 = v → (nearCore size w).2 = [] → v.toInt.natAbs < 10 ^ 5 := by
    rintro w rfl hw
    have hfar := caution_of_silent hw
    rw [decide_eq_false_iff_not, Int64.le_iff_toInt_le, hmagnitude] at hfar
    omega
  cases check with
  | none => cases hcheck
  | double => cases hcheck
  | address => exact hshort rfl
  | addressOdd => exact hshort rfl
  | positive => exact hshort rfl
  | addressEven =>
    have hhi := addressEven_lt hsize v
    have hlo := (addressEven_of_clean hclean).1
    rw [Int64.le_iff_toInt_le, hvalue, show (0 : Word).toInt = 0 from rfl] at hlo
    rw [hvalue] at hhi
    omega
  | reference => exact hnear _ rfl h
  | referenceEven => exact hnear _ (caution_value ..) h
  | referenceOdd => exact hnear _ (caution_value ..) h
  | value =>
    have hlarge := (correct_of_clean hclean).2
    rw [decide_eq_false_iff_not, Int64.lt_iff_toInt_lt, hmagnitude] at hlarge
    have hlimit : maxValue.toInt = 99999 := rfl
    omega

end Check

/-! ## What steps give -/

/-- The step only evaluates and reports, and behind every evaluation from `a` on it gives what has a
property, if it reports nothing. -/
structure Step.Grants {α : Type} (a : Assembly) (P : α → Prop) (x : Step α) : Prop where
  within : Step.Within .still x
  value : ∀ c, Leads .still a c → c.Silent (x c).2 → P (x c).1

namespace Step.Grants

variable {α β : Type} {P : α → Prop} {Q : β → Prop}

theorem pure {v : α} (h : P v) : Step.Grants a P (pure v) := ⟨.pure v, fun _ _ _ => h⟩

theorem bind {x : Step α} {f : α → Step β} (hx : Step.Grants a P x)
    (hf : ∀ v, Step.Grants a (fun w => P v → Q w) (f v)) : Step.Grants a Q (x >>= f) where
  within := .bind hx.within fun v => (hf v).within
  value c hc hsilent := by
    have hfirst := hx.within c
    have hsecond := (hf (x c).1).within (x c).2
    obtain ⟨h1, h2⟩ := hsilent.split (.of_frame hfirst.frame) (.of_frame hsecond.frame)
    exact (hf (x c).1).value (x c).2 (hc.trans hfirst) h2 (hx.value c hc h1)

theorem get_bind {f : Assembly → Step β} (hf : ∀ b, Step.Grants a Q (f b)) :
    Step.Grants a Q (get >>= f) :=
  ⟨.get_bind fun b => (hf b).within, fun c => (hf c).value c⟩

theorem ite {c : Prop} [Decidable c] {x y : Step α} (hx : c → Step.Grants a P x)
    (hy : ¬ c → Step.Grants a P y) : Step.Grants a P (if c then x else y) := by
  split
  · exact hx ‹_›
  · exact hy ‹_›

theorem mono {R : α → Prop} {x : Step α} (hx : Step.Grants a P x) (h : ∀ v, P v → R v) :
    Step.Grants a R x := ⟨hx.within, fun c hc hsilent => h _ (hx.value c hc hsilent)⟩

theorem of_lift {x : Step α} (hx : Step.Grants a P x) {v : α}
    (h : (liftM x : Build α) a = .ok v b) (hsilent : a.Silent b) : P v := by
  cases h
  exact hx.value a .refl hsilent

end Step.Grants

section

variable (ha : a.Attentive)

include ha

theorem report_grants {r : Report Cause} (h : r.cause.concernsLabel = false) :
    Step.Grants a (fun _ => False) (report [r]) where
  within := report_within (.one h)
  value c hc hsilent := by
    have hnil : [r] = [] := (ha.leads hc).nil_of_silent hsilent
    cases hnil

/-- What comes behind a report is never reached in silence. -/
theorem report_bind_grants {α : Type} {P : α → Prop} {r : Report Cause}
    (h : r.cause.concernsLabel = false) {f : Unit → Step α} (hf : Step.Within .still (f ())) :
    Step.Grants a P (report [r] >>= f) :=
  .bind (report_grants ha h) fun _ => ⟨hf, fun _ _ _ => False.elim⟩

theorem reportIf_grants (condition : Bool) {r : Report Cause} (h : r.cause.concernsLabel = false) :
    Step.Grants a (fun _ => condition = false) (reportIf condition r) := by
  unfold reportIf
  cases condition with
  | false => exact ⟨report_within .nil, fun _ _ _ => rfl⟩
  | true => exact (report_grants ha h).mono fun _ => False.elim

/-- **An operand that is evaluated without a report** is what its expression comes to, and its check
has nothing to say about it. -/
theorem evaluate_grants (operand : Text) (usage : Usage) :
    Step.Grants a (fun r => r.1 = (rawValue a.scope usage a.symbols operand).getD 0 ∧
      ∀ v, rawValue a.scope usage a.symbols operand = some v →
        (usage.check.apply a.options.memorySize v).2 = []) (evaluate operand usage) where
  within := evaluate_within
  value c hc hsilent := by
    rw [evaluate_apply] at hsilent
    have hreports : (evaluateIn c.scope usage c.symbols operand).reports = [] := by
      have hnoted : Assembly.Attentive
          { c with symbols := (evaluateIn c.scope usage c.symbols operand).table } :=
        ha.leads (hc.tail (.evaluate c operand usage))
      exact hnoted.nil_of_silent hsilent
    have hvalue := evaluateIn_value c.scope usage c.symbols operand
    have hsize : c.scope.memorySize = a.options.memorySize := hc.frame.options ▸ rfl
    have hpassed : ∀ v, rawValue a.scope usage a.symbols operand = some v →
        (usage.check.apply a.options.memorySize v).2 = [] := by
      intro v hv
      rw [← hc.rawValue_eq] at hv
      have hmem := mem_reports_of_check c.scope usage c.symbols operand hv
      rw [hreports, hsize] at hmem
      exact List.eq_nil_iff_forall_not_mem.mpr fun r hr => List.not_mem_nil (hmem r hr)
    refine ⟨?_, hpassed⟩
    change (evaluateIn c.scope usage c.symbols operand).value = _
    rw [hvalue, hsize, hc.rawValue_eq]
    cases hv : rawValue a.scope usage a.symbols operand with
    | none => rfl
    | some v => exact Check.value_of_clean (Check.clean_of_silent (hpassed v hv))

end

/-! ## Operands in fields -/

/-- What an operand counts for: one without a value is zero. -/
def Assembly.worth (a : Assembly) (star : Word) (operand : Text) : Word :=
  (a.operandValue star operand).getD 0

/-- What an operand that positions a statement counts for. -/
def Assembly.layoutWorth (a : Assembly) (operand : Text) : Word := (a.layoutValue operand).getD 0

open NumericField (Given magnitude)

theorem given_magnitude {width : Nat} {operand n : Word} {checked : Bool} (hn : n = operand)
    (h : operand ≠ Int64.minValue → checked = true → operand.toInt.natAbs < 10 ^ width) :
    (magnitude width operand checked).Given n := by
  subst hn
  exact fun hmin => ⟨hmin, rfl, h hmin⟩

/-- A value that nothing was said about has at most five digits, also if there is none. -/
theorem lt_of_passed {check : Check} (hcheck : check.isBounded = true) {size : Word}
    (hsize : size ∈ memorySizes) {raw : Option Word}
    (hpassed : ∀ v, raw = some v → (check.apply size v).2 = [])
    (hmin : raw.getD 0 ≠ Int64.minValue) : (raw.getD 0).toInt.natAbs < 10 ^ 5 := by
  cases raw with
  | none => decide
  | some v => exact Check.lt_of_silent hcheck hsize hmin (hpassed v rfl)

theorem nonneg_of_passed {check : Check} (hcheck : check.positions = true) {size : Word}
    {raw : Option Word} (hpassed : ∀ v, raw = some v → (check.apply size v).2 = []) :
    0 ≤ (raw.getD 0).toInt := by
  cases raw with
  | none => decide
  | some v =>
    have hv := Check.not_neg_of_clean hcheck (Check.clean_of_silent (hpassed v rfl))
    rw [Int64.lt_iff_toInt_lt, show (0 : Word).toInt = 0 from rfl] at hv
    exact Int.not_lt.mp hv

section

variable (ha : a.Attentive) {operand : Text} {usage : Usage} {star : Word}
  (hstar : usage.star = star) (hordered : usage.ordered = false)

include ha hstar hordered

theorem evaluate_operand :
    Step.Grants a (fun r => r.1 = a.worth star operand ∧
      ∀ v, a.operandValue star operand = some v →
        (usage.check.apply a.options.memorySize v).2 = []) (evaluate operand usage) := by
  have hraw : rawValue a.scope usage a.symbols operand = a.operandValue star operand :=
    rawValue_usage (by exact hstar) (by exact hordered) a.scope a.symbols operand
  rw [Assembly.worth, ← hraw]
  exact evaluate_grants ha operand usage

theorem evaluate_given (hcheck : usage.check.isBounded = true) :
    Step.Grants a (fun r => (magnitude 5 (a.worth star operand) true).Given r.1)
      (evaluate operand usage) :=
  (evaluate_operand ha hstar hordered).mono fun _ hr =>
    given_magnitude hr.1 fun hmin _ => lt_of_passed hcheck ha.size hr.2 hmin

end

theorem evaluateEven_given (ha : a.Attentive) (operand : Text) :
    Step.Grants a (magnitude 5 (a.layoutWorth operand) true).Given
      (evaluateLayout operand .addressEven) where
  within := evaluateLayout_within
  value c hc hsilent := by
    have hevaluate := (evaluate_grants (ha.leads hc) operand
      { star := c.last, ordered := true, check := .addressEven }).value c .refl hsilent
    have hraw : rawValue c.scope { star := c.last, ordered := true, check := .addressEven }
        c.symbols operand = a.layoutValue operand :=
      (rawValue_usage (by rfl) (by rfl) c.scope c.symbols operand).trans (hc.layoutValue_eq operand)
    rw [hraw, hc.frame.options] at hevaluate
    exact given_magnitude hevaluate.1 fun hmin _ => lt_of_passed rfl ha.size hevaluate.2 hmin

end SpsAssembler
