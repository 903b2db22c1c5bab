import SpsAssembler.Proofs.FieldDigits
import SpsAssembler.Proofs.Reports
import SpsAssembler.Proofs.SymbolAddresses

/-!
# What checks make of a value

A check of an address or of a value puts every word right that is not as it should be, and reports
an error if it had to. A few words at the ends of the range are out of its reach: the least word is
its own negative, and the greatest one has no successor.

* `Check.Admits`: the values that a check is for;
* **`Check.apply_of_admits`**: such a value is left alone;
* `Check.Spills`, **`Check.admits_apply`**: every other value is put right, unless it spills;
* `Check.least`, `Check.apply_of_spills`: what becomes of those;
* `Check.apply_reference`: the warnings of references;
* **`checked_values`**: every check and every word;
* **`least_unchecked`**: the least word as an operand.
-/

namespace SpsAssembler

namespace Check

/-- Checks that put a value right. -/
def corrects : Check → Bool
  | address | addressEven | addressOdd | value | positive | double => true
  | none | reference | referenceEven | referenceOdd => false

/-- Checks that only warn. -/
def cautions : Check → Bool
  | reference | referenceEven | referenceOdd => true
  | _ => false

/-- The numbers that a check is for, on a machine with `size` cells. -/
def Admits (size : Word) (n : Int) : Check → Prop
  | address => 0 ≤ n ∧ n < size.toInt
  | addressEven => (0 ≤ n ∧ n < size.toInt) ∧ n % 2 = 0
  | addressOdd => (0 ≤ n ∧ n < size.toInt) ∧ n % 2 = 1
  | value => n.natAbs ≤ 99999
  | positive => 0 ≤ n ∧ n ≤ 99999
  | double => n.natAbs ≤ 9999999999
  | none | reference | referenceEven | referenceOdd => True

/-- The words that a check does not put right. -/
def Spills (v : Word) : Check → Prop
  | none => False
  | addressEven => SpillsEven v
  | _ => v = Int64.minValue

variable {check : Check} {size v : Word}

/-! ## Values that are left alone -/

theorem correct_of_right {faulty : Word → Bool} (cause : Word → Cause) (mend : Word → Word)
    {v : Verdict} (h : faulty v.1 = false) : correct faulty cause mend v = v :=
  if_neg (by simp [h])

theorem lt_magnitude_iff {limit : Word} (hv : v ≠ Int64.minValue) :
    limit < Value.magnitude v ↔ limit.toInt < v.toInt.natAbs := by
  rw [Int64.lt_iff_toInt_lt, Value.toInt_magnitude hv]

theorem upTo_of_le (limit : Word) {n : Nat} (hlimit : limit.toInt = n) (h : v.toInt.natAbs ≤ n) :
    upTo limit (v, []) = (v, []) := by
  have hlt := limit.toInt_lt
  have hmin : v ≠ Int64.minValue := by
    rintro rfl
    rw [show Int64.minValue.toInt = -2 ^ 63 from rfl] at h
    omega
  refine correct_of_right _ _ (decide_eq_false ?_)
  rw [lt_magnitude_iff hmin]
  omega

/-- **A value as it should be** is left alone, and nothing is reported about it. -/
theorem apply_of_admits (h : check.Admits size v.toInt) (hcheck : check.corrects = true) :
    check.apply size v = (v, []) := by
  have hzero : (0 : Word).toInt = 0 := rfl
  have hsign : 0 ≤ v.toInt → notNegative (v, []) = (v, []) := fun hlo => by
    refine correct_of_right _ _ (decide_eq_false ?_)
    rw [Int64.lt_iff_toInt_lt]
    dsimp only
    omega
  have hcore : ∀ default, v.toInt < size.toInt → inCore size default (v, []) = (v, []) :=
    fun default hhi => by
      refine correct_of_right _ _ (decide_eq_false ?_)
      rw [Int64.le_iff_toInt_le]
      dsimp only
      omega
  cases check with
  | address => rw [apply, hsign h.1, hcore 0 h.2]
  | addressEven =>
    obtain ⟨⟨hlo, hhi⟩, heven⟩ := h
    have hparity : isOdd v = false := by
      rw [isOdd_eq]
      exact decide_eq_false (by omega)
    rw [apply, hsign hlo, correct_of_right _ _ hparity, hcore 0 hhi]
  | addressOdd =>
    obtain ⟨⟨hlo, hhi⟩, hodd⟩ := h
    have hparity : (!isOdd v) = false := by
      rw [isOdd_eq, decide_eq_true hodd]
      rfl
    rw [apply, hsign hlo, correct_of_right _ _ hparity, hcore 1 hhi]
  | value => exact upTo_of_le maxValue rfl h
  | positive =>
    have hmost : maxValue.toInt = 99999 := rfl
    have hlo : correct (· < 0) .valueNotPositive (- ·) (v, []) = (v, []) := by
      refine correct_of_right _ _ (decide_eq_false ?_)
      rw [Int64.lt_iff_toInt_lt]
      dsimp only
      have := h.1
      omega
    rw [apply, hlo]
    refine correct_of_right _ _ (decide_eq_false ?_)
    rw [Int64.lt_iff_toInt_lt]
    dsimp only
    have := h.2
    omega
  | double => exact upTo_of_le maxDoubleValue rfl h
  | _ => cases hcheck

/-! ## Values that are put right -/

theorem inCore_cases (size default : Word) (v : Verdict) :
    (inCore size default v).1 = default ∨
      ((inCore size default v).1 = v.1 ∧ v.1.toInt < size.toInt) := by
  unfold inCore
  rw [correct_value]
  split
  · exact .inl rfl
  · rename_i hlt
    rw [decide_eq_true_eq, Int64.not_le, Int64.lt_iff_toInt_lt] at hlt
    exact .inr ⟨rfl, hlt⟩

theorem correct_even {v : Verdict} (hlo : 0 ≤ v.1.toInt) (hmax : v.1 ≠ Int64.maxValue) :
    0 ≤ (correct isOdd .addressNotEven (· + 1) v).1.toInt ∧
      (correct isOdd .addressNotEven (· + 1) v).1.toInt % 2 = 0 := by
  have hone : (1 : Word).toInt = 1 := rfl
  have hlt := v.1.toInt_lt
  have hlast : v.1.toInt ≠ 2 ^ 63 - 1 := fun heq => hmax (Int64.toInt_inj.mp heq)
  rw [correct_value, isOdd_eq]
  split <;> rename_i hodd <;> rw [decide_eq_true_eq] at hodd
  · rw [Word.toInt_add_of (by omega) (by omega)]
    omega
  · omega

theorem correct_odd_parity {v : Verdict} (hlo : 0 ≤ v.1.toInt) :
    (correct (!isOdd ·) .addressNotOdd (· + 1) v).1.toInt % 2 = 1 := by
  have hone : (1 : Word).toInt = 1 := rfl
  have hlt := v.1.toInt_lt
  rw [correct_value, isOdd_eq]
  split <;> rename_i heven <;> rw [Bool.not_eq_true', decide_eq_false_iff_not] at heven
  · rw [Word.toInt_add_of (by omega) (by omega)]
    omega
  · omega

theorem upTo_natAbs_le {limit : Word} {n : Nat} (hlimit : limit.toInt = n)
    (hv : v ≠ Int64.minValue) : (upTo limit (v, [])).1.toInt.natAbs ≤ n := by
  unfold upTo
  rw [correct_value]
  split
  · exact Nat.zero_le n
  · rename_i hle
    rw [decide_eq_true_eq, lt_magnitude_iff hv] at hle
    dsimp only
    omega

/-- **A checked value is as it should be**, unless it spills. -/
theorem admits_apply (hsize : size ∈ memorySizes) (h : ¬ check.Spills v) :
    check.Admits size (check.apply size v).1.toInt := by
  have hmin := (toInt_of_mem_memorySizes hsize).1
  have hzero : (0 : Word).toInt = 0 := rfl
  have hone : (1 : Word).toInt = 1 := rfl
  cases check with
  | address =>
    have hsign : 0 ≤ (notNegative (v, [])).1.toInt := correct_sign h
    change 0 ≤ (inCore size 0 _).1.toInt ∧ (inCore size 0 _).1.toInt < size.toInt
    rcases inCore_cases size 0 (notNegative (v, [])) with heq | ⟨heq, hlt⟩ <;> rw [heq] <;> omega
  | addressEven =>
    have hsign : 0 ≤ (notNegative (v, [])).1.toInt := correct_sign fun heq => h (.inl heq)
    have heven := correct_even hsign (notNegative_ne_maxValue h)
    change (0 ≤ (inCore size 0 _).1.toInt ∧ (inCore size 0 _).1.toInt < size.toInt) ∧
      (inCore size 0 _).1.toInt % 2 = 0
    rcases inCore_cases size 0 (correct isOdd .addressNotEven (· + 1) (notNegative (v, []))) with
      heq | ⟨heq, hlt⟩ <;> rw [heq] <;> omega
  | addressOdd =>
    have hsign : 0 ≤ (notNegative (v, [])).1.toInt := correct_sign h
    have hlo := correct_odd hsign
    have hodd := correct_odd_parity hsign
    change (0 ≤ (inCore size 1 _).1.toInt ∧ (inCore size 1 _).1.toInt < size.toInt) ∧
      (inCore size 1 _).1.toInt % 2 = 1
    rcases inCore_cases size 1 (correct (!isOdd ·) .addressNotOdd (· + 1) (notNegative (v, []))) with
      heq | ⟨heq, hlt⟩ <;> rw [heq] <;> omega
  | value => exact upTo_natAbs_le rfl h
  | positive =>
    have hshort : (positive.apply size v).1.Short := short_apply rfl hsize h
    obtain ⟨hlo, hhi⟩ := hshort
    exact ⟨hlo, by omega⟩
  | double => exact upTo_natAbs_le rfl h
  | _ => trivial

/-! ## Values that spill -/

/-- What a check makes of the words that it does not put right. -/
def least : Check → Word
  | addressOdd => Int64.minValue + 1
  | _ => Int64.minValue

theorem apply_of_spills (hsize : size ∈ memorySizes) (hcheck : check.corrects = true)
    (h : check.Spills v) : (check.apply size v).1 = check.least ∧
      (check.apply size v).2.any Report.isError = check.positions := by
  have hleast : memorySizes.all (fun size =>
      [address, addressEven, addressOdd, value, positive, double].all fun check =>
        (check.apply size Int64.minValue).1 == check.least &&
          (check.apply size Int64.minValue).2.any Report.isError == check.positions) = true := by
    decide +kernel
  have hgreatest : memorySizes.all (fun size => [Int64.maxValue, -Int64.maxValue].all fun v =>
      (addressEven.apply size v).1 == addressEven.least &&
        (addressEven.apply size v).2.any Report.isError == addressEven.positions) = true := by
    decide +kernel
  have hall := List.all_eq_true.mp hleast size hsize
  have hends := List.all_eq_true.mp hgreatest size hsize
  simp only [List.all_cons, List.all_nil, Bool.and_eq_true, Bool.and_true, beq_iff_eq] at hall hends
  obtain ⟨haddress, heven, hodd, hvalue, hpositive, hdouble⟩ := hall
  cases check with
  | address => exact h ▸ haddress
  | addressEven =>
    rcases h with rfl | rfl | rfl
    · exact heven
    · exact hends.1
    · exact hends.2
  | addressOdd => exact h ▸ hodd
  | value => exact h ▸ hvalue
  | positive => exact h ▸ hpositive
  | double => exact h ▸ hdouble
  | _ => cases hcheck

theorem not_admits_least (hcheck : check.corrects = true) (size : Word) :
    ¬ check.Admits size check.least.toInt := by
  have hleast : Int64.minValue.toInt = -2 ^ 63 := rfl
  have hnext : (Int64.minValue + 1 : Word).toInt = -2 ^ 63 + 1 := rfl
  cases check <;> simp only [Admits, least, hleast, hnext]
  case none | reference | referenceEven | referenceOdd => cases hcheck
  all_goals omega

/-! ## References -/

theorem reports_caution {faulty : Word → Bool} {cause : Word → Cause} {r : Report Cause}
    (h : r ∈ (caution faulty cause (v, [])).2) : r = warning (cause v) := by
  unfold caution at h
  split at h
  · exact List.mem_singleton.mp h
  · cases h

theorem nearCore_warns {w : Verdict} (hw : w.1 = v)
    (h : ∀ r ∈ w.2, r.isError = false ∧ r.cause ≠ .addressTooLarge v) :
    (nearCore size w).1 = v ∧ (∀ r ∈ (nearCore size w).2, r.isError = false) ∧
      ((∃ r ∈ (nearCore size w).2, r.cause = .addressTooLarge v) ↔ size ≤ Value.magnitude v) := by
  have hnone : ¬ ∃ r ∈ w.2, r.cause = .addressTooLarge v := by
    rintro ⟨r, hr, hcause⟩
    exact (h r hr).2 hcause
  refine ⟨(caution_value ..).trans hw, ?_⟩
  unfold nearCore caution
  rw [hw]
  by_cases hfar : size ≤ Value.magnitude v
  · rw [if_pos (decide_eq_true hfar)]
    refine ⟨fun r hr => ?_, fun _ => hfar, fun _ => ?_⟩
    · rcases List.mem_append.mp hr with hr | hr
      · exact (h r hr).1
      · rw [List.mem_singleton.mp hr]
        rfl
    · exact ⟨_, List.mem_append_right _ (List.mem_singleton_self _), rfl⟩
  · rw [if_neg (by simpa using hfar)]
    exact ⟨fun r hr => (h r hr).1, fun hsaid => absurd hsaid hnone, fun hnear => absurd hnear hfar⟩

/-- **References are kept as they are**, and a magnitude that is too large is warned of. -/
theorem apply_reference (hcheck : check.cautions = true) (size v : Word) :
    (check.apply size v).1 = v ∧ (∀ r ∈ (check.apply size v).2, r.isError = false) ∧
      ((∃ r ∈ (check.apply size v).2, r.cause = .addressTooLarge v) ↔
        size ≤ Value.magnitude v) := by
  cases check with
  | reference => exact nearCore_warns rfl (List.forall_mem_nil _)
  | referenceEven =>
    refine nearCore_warns (caution_value ..) fun r hr => ?_
    rw [reports_caution hr]
    exact ⟨rfl, Cause.noConfusion⟩
  | referenceOdd =>
    refine nearCore_warns (caution_value ..) fun r hr => ?_
    rw [reports_caution hr]
    exact ⟨rfl, Cause.noConfusion⟩
  | _ => cases hcheck

/-- The least word is the only one whose magnitude is not seen to be too large. -/
theorem le_magnitude_iff (hsize : size ∈ memorySizes) :
    size ≤ Value.magnitude v ↔ v ≠ Int64.minValue ∧ size.toInt ≤ v.toInt.natAbs := by
  by_cases hv : v = Int64.minValue
  · have hall : memorySizes.all
        (fun size => !decide (size ≤ Value.magnitude Int64.minValue)) = true := by decide
    have hnot : ¬ size ≤ Value.magnitude Int64.minValue := by
      simpa using List.all_eq_true.mp hall size hsize
    rw [hv]
    exact ⟨fun h => absurd h hnot, fun h => absurd rfl h.1⟩
  · rw [Int64.le_iff_toInt_le, Value.toInt_magnitude hv]
    exact ⟨fun h => ⟨hv, h⟩, And.right⟩

end Check

/-! ## Messages -/

namespace Log

variable {log : Log Cause} {reports : List (Report Cause)} (hmuted : log.muted = 0)

include hmuted

theorem mem_kept {d : Diagnostic Cause} : d ∈ log.kept reports ↔
    ∃ r ∈ reports, (r.isError = true ∨ log.warnings = true) ∧ log.placed r = d := by
  rw [kept, if_pos hmuted, List.mem_map]
  simp only [List.mem_filter, Bool.or_eq_true, and_assoc]

theorem error_kept_iff :
    (∃ d ∈ log.kept reports, d.severity = .error) ↔ ∃ r ∈ reports, r.isError = true := by
  constructor
  · rintro ⟨d, hd, hsevere⟩
    obtain ⟨r, hr, -, rfl⟩ := (mem_kept hmuted).mp hd
    exact ⟨r, hr, beq_iff_eq.mpr hsevere⟩
  · rintro ⟨r, hr, hsevere⟩
    exact ⟨log.placed r, (mem_kept hmuted).mpr ⟨r, hr, .inl hsevere, rfl⟩, beq_iff_eq.mp hsevere⟩

theorem cause_kept_iff (hwarnings : log.warnings = true) (c : Cause) :
    (∃ d ∈ log.kept reports, d.cause = c) ↔ ∃ r ∈ reports, r.cause = c := by
  constructor
  · rintro ⟨d, hd, hcause⟩
    obtain ⟨r, hr, -, rfl⟩ := (mem_kept hmuted).mp hd
    exact ⟨r, hr, hcause⟩
  · rintro ⟨r, hr, hcause⟩
    exact ⟨log.placed r, (mem_kept hmuted).mpr ⟨r, hr, .inr hwarnings, rfl⟩, hcause⟩

end Log

/-! ## Every check -/

/-- **Checked values are in range.** A check of an address or of a value gives a number that it is
for, and says so if that is not the value it was given. The values that it does not put right are the
least word and, for an even address, also the greatest word and its negative: they come out as the
least word, or as the one above it for an odd address. A reference stays as it is, and with warnings
switched on one that is too large is warned of, unless it is the least word. -/
theorem checked_values {size : Word} (hsize : size ∈ memorySizes) (check : Check) (v : Word)
    (log : Log Cause) (hmuted : log.muted = 0) :
    ∃ messages, (log.raiseAll (check.apply size v).2).pending = log.pending ++ messages ∧
      (check.corrects = true → ¬ check.Spills v →
        check.Admits size (check.apply size v).1.toInt ∧
          ((∃ d ∈ messages, d.severity = .error) ↔ (check.apply size v).1 ≠ v)) ∧
      (check.corrects = true → check.Spills v →
        (check.apply size v).1 = check.least ∧ ¬ check.Admits size check.least.toInt ∧
          ((∃ d ∈ messages, d.severity = .error) ↔ check.positions = true)) ∧
      (check.cautions = true →
        (check.apply size v).1 = v ∧ (∀ d ∈ messages, d.severity = .warning) ∧
          (log.warnings = true → ((∃ d ∈ messages, d.cause = .addressTooLarge v) ↔
            v ≠ Int64.minValue ∧ size.toInt ≤ v.toInt.natAbs))) := by
  refine ⟨log.kept (check.apply size v).2, congrArg (·.pending) (log.raiseAll_eq _), ?_, ?_, ?_⟩
  · intro hcheck hspills
    have hadmits := Check.admits_apply hsize hspills
    refine ⟨hadmits, ?_⟩
    rw [Log.error_kept_iff hmuted]
    constructor
    · -- A value that the check is for would have been left alone.
      rintro ⟨r, hr, -⟩ hsame
      rw [hsame] at hadmits
      rw [Check.apply_of_admits hadmits hcheck] at hr
      cases hr
    · intro hchanged
      by_contra hclean
      exact hchanged (Check.value_of_clean fun r hr => by
        simpa using fun herror => hclean ⟨r, hr, herror⟩)
  · intro hcheck hspills
    obtain ⟨hvalue, herrors⟩ := Check.apply_of_spills hsize hcheck hspills
    refine ⟨hvalue, Check.not_admits_least hcheck size, ?_⟩
    rw [Log.error_kept_iff hmuted, ← herrors, List.any_eq_true]
  · intro hcheck
    obtain ⟨hvalue, hclean, hwarned⟩ := Check.apply_reference hcheck size v
    refine ⟨hvalue, fun d hd => ?_, fun hwarnings => ?_⟩
    · obtain ⟨r, hr, -, rfl⟩ := (Log.mem_kept hmuted).mp hd
      have hsevere := hclean r hr
      revert hsevere
      unfold Report.isError Log.placed
      cases r.severity <;> simp
    · rw [Log.cause_kept_iff hmuted hwarnings, hwarned, Check.le_magnitude_iff hsize]

/-- An odd address before address zero, of which nothing is right, and a reference that is too large. -/
theorem checked_values_oddAddress :
    (20000 : Word) ∈ memorySizes ∧ ¬ Check.addressEven.Spills (-20001) ∧
      Check.addressEven.Admits 20000 (Check.addressEven.apply 20000 (-20001)).1.toInt ∧
      (∃ d ∈ ((Log.start true).raiseAll (Check.addressEven.apply 20000 (-20001)).2).pending,
        d.severity = .error) ∧
      ∃ d ∈ ((Log.start true).raiseAll (Check.referenceOdd.apply 20000 (-20001)).2).pending,
        d.cause = .addressTooLarge (-20001) := by
  have hsize : (20000 : Word) ∈ memorySizes := by decide
  have hspills : ¬ Check.addressEven.Spills (-20001) := by
    unfold Check.Spills Check.SpillsEven
    decide
  obtain ⟨ms, hms, hright, -, -⟩ :=
    checked_values hsize .addressEven (-20001) (Log.start true) rfl
  obtain ⟨ns, hns, -, -, hwarned⟩ :=
    checked_values hsize .referenceOdd (-20001) (Log.start true) rfl
  obtain ⟨hadmits, herrors⟩ := hright rfl hspills
  rw [hms, hns]
  exact ⟨hsize, hspills, hadmits, herrors.mpr (by decide),
    ((hwarned rfl).2.2 rfl).mpr ⟨by decide, by decide⟩⟩

/-- The place of an operand on a machine with 20000 cells. -/
def smallScope : Scope := { head := Byte.blank, line := 1, entering := true, memorySize := 20000 }

/-- An operand as a check leaves it, and what is reported about it. -/
def checkedOperand (check : Check) (operand : String) : Check.Verdict :=
  let e := evaluateIn smallScope { star := 0, check } { divide := true } (ascii operand)
  (e.value, e.reports)

/-- **The least word is out of the reach of every check**, and the greatest one out of that of an
even address. -/
theorem least_unchecked :
    checkedOperand .address "-9223372036854775807-1" =
      (Int64.minValue, [error (.addressNotPositive Int64.minValue)]) ∧
    checkedOperand .addressEven "9223372036854775807" =
      (Int64.minValue, [error (.addressNotEven Int64.maxValue)]) ∧
    checkedOperand .addressOdd "-9223372036854775807-1" =
      (Int64.minValue + 1,
        [error (.addressNotPositive Int64.minValue), error (.addressNotOdd Int64.minValue)]) ∧
    checkedOperand .positive "-9223372036854775807-1" =
      (Int64.minValue, [error (.valueNotPositive Int64.minValue)]) ∧
    checkedOperand .value "-9223372036854775807-1" = (Int64.minValue, []) ∧
    checkedOperand .double "-9223372036854775807-1" = (Int64.minValue, []) ∧
    checkedOperand .reference "-9223372036854775807-1" = (Int64.minValue, []) ∧
    ∀ check : Check, check.corrects = true → ¬ check.Admits 20000 check.least.toInt := by
  refine ⟨by decide +kernel, by decide +kernel, by decide +kernel, by decide +kernel,
    by decide +kernel, by decide +kernel, by decide +kernel, fun check hcheck => ?_⟩
  exact Check.not_admits_least hcheck 20000

end SpsAssembler
