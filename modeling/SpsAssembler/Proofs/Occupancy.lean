import SpsAssembler.Proofs.Agreement
import SpsAssembler.Proofs.LegalCore

/-!
# Which cells a statement occupies

The end of the cells of a statement is checked against the size of core, and a value is stored only
if all of it lies in core. Cells that are set aside without a value are checked at their end alone,
so their start may lie before core. In a program without an error the counter never leaves core, and
only a field or a string gets there, if its address operand names a cell behind its first one.

* `Placement.InCore`, `Kind.reserves`;
* `hasMagnitude_demanded`, `tame_of_clean`: the operands of a statement without an error;
* **`encode_pos`**: a statement that reserves nothing has a value;
* `Building`, **`Processed.occupies`**: one statement without an error;
* `Assembly.Counts`, `Outcome.StartsBefore`, **`inCore_of_visits`**: a pass without an error;
* **`outside_reported`**: the statements of a program;
* **`startsBeforeCore_unnoticed`**: a field that starts before core.
-/

namespace SpsAssembler

open Assembly (Tame Keeps)

variable {s : Statement} {p : Placement} {a b : Assembly} {o : Outcome} {counter : Word}

/-- The cells of a statement lie in core. -/
def Placement.InCore (size : Word) (p : Placement) : Prop :=
  0 ≤ p.address.toInt ∧ p.address.toInt + p.length.toInt ≤ size.toInt

/-- Whether statements of a kind set cells aside without a value. -/
def Kind.reserves : Kind → Bool
  | das | ds | dsb | dss => true
  | _ => false

/-! ## Operands of a statement without an error -/

theorem Check.value_of_clean {check : Check} {size v : Word}
    (h : ∀ r ∈ (check.apply size v).2, r.isError = false) : (check.apply size v).1 = v := by
  have hsign : ∀ {w : Verdict}, w = notNegative (v, []) → (∀ r ∈ w.2, r.isError = false) →
      w.1 = v := by
    rintro w rfl hw
    rw [notNegative, (correct_of_clean hw).1]
  cases check with
  | none => rfl
  | address =>
    have hw := clean_of_correct h
    unfold apply inCore
    rw [(correct_of_clean h).1]
    exact hsign rfl hw
  | addressEven =>
    have hw := clean_of_correct h
    unfold apply inCore
    rw [(correct_of_clean h).1, (correct_of_clean hw).1]
    exact hsign rfl (clean_of_correct hw)
  | addressOdd =>
    have hw := clean_of_correct h
    unfold apply inCore
    rw [(correct_of_clean h).1, (correct_of_clean hw).1]
    exact hsign rfl (clean_of_correct hw)
  | reference => exact caution_value ..
  | referenceEven => exact (caution_value ..).trans (caution_value ..)
  | referenceOdd => exact (caution_value ..).trans (caution_value ..)
  | value =>
    unfold apply upTo
    rw [(correct_of_clean h).1]
  | positive =>
    have hw := clean_of_correct h
    unfold apply
    rw [(correct_of_clean h).1, (correct_of_clean hw).1]
  | double =>
    unfold apply upTo
    rw [(correct_of_clean h).1]

theorem Check.not_neg_of_clean {check : Check} (hcheck : check.positions = true) {size v : Word}
    (h : ∀ r ∈ (check.apply size v).2, r.isError = false) : ¬ v < 0 := by
  cases check with
  | address => simpa using (correct_of_clean (clean_of_correct h)).2
  | addressEven => simpa using (correct_of_clean (clean_of_correct (clean_of_correct h))).2
  | addressOdd => simpa using (correct_of_clean (clean_of_correct (clean_of_correct h))).2
  | positive => simpa using (correct_of_clean (clean_of_correct h)).2
  | _ => cases hcheck

theorem hasMagnitude_demanded :
    Demanded fun operand a => a.layoutValue operand ≠ some Int64.minValue where
  blank a h := by simp [Assembly.layoutValue, rawValue, h]
  before hab hb := by rwa [← hab.layoutValue_eq]
  ending _ _ h := h
  layout {operand check} hcheck a hmuted hcount hvalue := by
    rw [evaluateLayout_apply] at hcount
    have hclean := a.log.not_isError_of_errorCount hmuted hcount
    have hraw : rawValue a.scope { star := a.last, ordered := true, check } a.symbols operand =
        some Int64.minValue :=
      (rawValue_usage (by rfl) (by rfl) a.scope a.symbols operand).trans hvalue
    exact Check.not_neg_of_clean hcheck (check_of_clean _ _ _ _ hclean hraw) (by decide)

theorem tame_of_clean (hsize : a.options.memorySize ∈ memorySizes) (hmuted : a.log.muted = 0)
    (hcount : (place s a).2.log.errorCount ≤ a.log.errorCount) : Tame s.layoutOperands a :=
  ⟨hsize, fun _ hmem => place_demands hasMagnitude_demanded s hmem a hmuted hcount⟩

/-! ## Statements with a value -/

theorem place_pairs (h : Tame s.layoutOperands a) (hkind : s.kind = .dac ∨ s.kind = .dsac)
    (hpos : 0 < (place s a).1.length.toInt) : 2 ≤ (place s a).1.length.toInt := by
  have hlength : (place s a).1.length = 2 * (constantLength (s.operand 0) a).1 := by
    unfold place
    rcases hkind with hkind | hkind <;> rw [hkind] <;> exact placeAt_length ..
  have hmem : s.operand 0 ∈ s.layoutOperands := by
    refine s.mem_layoutOperands ?_
    rcases hkind with hkind | hkind <;> rw [hkind] <;> decide
  rw [hlength, (short_constantLength h hmem).toInt_double] at hpos ⊢
  omega

theorem length_of_constantCells {c : Except Fault Constant} {v : Value} {n : Nat}
    (hc : ∃ k, c = .ok k ∧ n ≤ k.cells.length) (h : constantCells c a = .ok v b) :
    n ≤ v.length := by
  obtain ⟨k, rfl, hlength⟩ := hc
  obtain ⟨d, hd, rfl⟩ := cells_of_constantCells h
  cases hd
  exact hlength

theorem Build.value_of_lift {x : Step Value} {v : Value}
    (h : (liftM x : Build Value) a = .ok v b) : v = (x a).1 := by
  cases h
  rfl

section

variable {v : Value} (hlength : p.length.Moderate) (hpos : 0 < p.length.toInt)

include hlength

theorem length_of_encodeNumber {extended : Bool}
    (h : constantCells (encodeNumber p.length extended (s.operand 1)) a = .ok v b) :
    p.length.toNatClampNeg ≤ v.length := by
  obtain ⟨k, hk, hcells⟩ :=
    encodeNumber_ok (allocate_of_moderate hlength) extended (s.operand 1)
  exact length_of_constantCells ⟨k, hk, Nat.le_of_eq hcells.symm⟩ h

theorem encodeAlpha_pos (h : encodeAlpha s p a = .ok v b) (hpair : 2 ≤ p.length.toInt) :
    0 < v.length := by
  have hpos : 0 < p.length := by
    rw [Int64.lt_iff_toInt_lt, show (0 : Word).toInt = 0 from rfl]
    omega
  unfold encodeAlpha at h
  rw [if_pos hpos] at h
  obtain ⟨cells, c, hcells, h⟩ := Build.ok_of_bind_ok h
  cases h
  obtain ⟨k, hk, hle, -⟩ :=
    encodeText_ok (allocate_of_moderate hlength.double_half.1) (s.operand 1)
  have hcount := length_of_constantCells ⟨k, hk, hle⟩ hcells
  rw [Int64.toNatClampNeg, hlength.toInt_double_half] at hcount
  rw [Value.length_flag]
  omega

include hpos

omit hlength in
theorem clamp_pos : 0 < p.length.toNatClampNeg ∧ p.length ≠ 0 := by
  rw [Int64.toNatClampNeg]
  refine ⟨by omega, fun hzero => ?_⟩
  rw [hzero, show (0 : Word).toInt = 0 from rfl] at hpos
  omega

theorem encodeConstant_pos (h : encodeConstant s p a = .ok v b) : 0 < v.length := by
  obtain ⟨hclamp, hne⟩ := clamp_pos hpos
  rw [encodeConstant_eq, if_neg hne] at h
  obtain ⟨cells, c, hcells, h⟩ := Build.ok_of_bind_ok h
  cases h
  have hcount := length_of_encodeNumber hlength hcells
  split
  · omega
  · rw [Value.length_flag]
    omega

theorem encodeSpecial_pos (h : encodeSpecial s p a = .ok v b) : 0 < v.length := by
  obtain ⟨hclamp, hne⟩ := clamp_pos hpos
  unfold encodeSpecial at h
  rw [if_neg hne] at h
  have hcount := length_of_encodeNumber hlength h
  omega

theorem encodeFields_pos (h : encodeFields s p a = .ok v b) : 0 < v.length := by
  obtain ⟨hclamp, hne⟩ := clamp_pos hpos
  unfold encodeFields at h
  rw [if_neg hne, allocate_of_moderate hlength] at h
  cases h
  rwa [length_encodeFieldsFrom, List.length_replicate]

/-- **A statement that takes cells** and reserves nothing has a value. -/
theorem encode_pos (h : encode s p a = .ok v b)
    (hpair : s.kind = .dac ∨ s.kind = .dsac → 2 ≤ p.length.toInt)
    (htakes : s.kind.takesCells = true) (hreserves : s.kind.reserves = false) :
    0 < v.length := by
  obtain ⟨hclamp, -⟩ := clamp_pos hpos
  unfold encode at h
  cases hkind : s.kind with
  | dac => rw [hkind] at h; exact encodeAlpha_pos hlength h (hpair (.inl hkind))
  | dsac => rw [hkind] at h; exact encodeAlpha_pos hlength h (hpair (.inr hkind))
  | dc => rw [hkind] at h; exact encodeConstant_pos hlength hpos h
  | dsc => rw [hkind] at h; exact encodeSpecial_pos hlength hpos h
  | dnb =>
    rw [hkind] at h
    rwa [(encodeBlanks_cases h).1, List.length_replicate]
  | dgm =>
    rw [hkind] at h
    cases h
    decide
  | dot =>
    have htable : 0 < (octalTable maxOctalPower).length := by decide +kernel
    rw [hkind] at h
    rw [(encodeOctal_cases h).1, List.length_drop]
    omega
  | dsa =>
    rw [hkind] at h
    rw [(encodeAddresses_cases h).1, length_putAddresses, List.length_replicate]
    exact hclamp
  | dda =>
    rw [hkind] at h
    rw [Build.value_of_lift (x := encodeDisk s) h, length_encodeDisk]
    decide
  | dvlc => rw [hkind] at h; exact encodeFields_pos hlength hpos h
  | instruction =>
    rw [hkind] at h
    rw [(encodeInstruction_cases h).1, List.length_take, length_buildInstruction]
    omega
  | das | ds | dsb | dss =>
    rw [hkind] at hreserves
    cases hreserves
  | _ =>
    rw [hkind] at htakes
    cases htakes

end

/-! ## One statement -/

/-- The machine has one of its sizes, and errors are counted. -/
structure Assembly.Checked (a : Assembly) : Prop where
  size : a.options.memorySize ∈ memorySizes
  muted : a.log.muted = 0

theorem Assembly.Checked.of_keeps (h : a.Checked) (hab : Keeps a b) : b.Checked where
  size := hab.options ▸ h.size
  muted := hab.muted.trans h.muted

theorem Assembly.Checked.parse (h : a.Checked) (line : Line) :
    (SpsAssembler.parse line (a.atLine line.number)).2.Checked :=
  h.of_keeps { Keeps.of_frame (parse_leads line a).frame with }

/-- A state of the pass that builds core. -/
structure Building (a : Assembly) : Prop extends a.Checked where
  pass : a.log.pass = 2
  memory : a.memory.size = a.options.memorySize

theorem Building.of_keeps (h : Building a) (hab : Keeps a b)
    (hmemory : b.memory.cells.size = a.memory.cells.size) : Building b where
  toChecked := h.toChecked.of_keeps hab
  pass := hab.pass.trans h.pass
  memory := by
    rw [hab.options, ← h.memory]
    unfold Memory.size
    rw [hmemory]

theorem reportIf_of_clean {c : Bool} {cause : Cause} (hmuted : a.log.muted = 0)
    (hcount : (reportIf c (error cause) a).2.log.errorCount ≤ a.log.errorCount) : c = false := by
  cases c with
  | false => rfl
  | true =>
    have hclean := a.log.not_isError_of_errorCount hmuted hcount
    have herror := hclean _ (List.mem_singleton_self _)
    cases herror

theorem reportIf_bind_of_clean {α : Type} {c : Bool} {cause : Cause} {f : Unit → Step α}
    {reach : Reach} (hwithin : Step.Within reach (f ())) (hmuted : a.log.muted = 0)
    (hcount : ((reportIf c (error cause) >>= f) a).2.log.errorCount ≤ a.log.errorCount) :
    c = false :=
  reportIf_of_clean hmuted
    (Nat.le_trans (hwithin (reportIf c (error cause) a).2).frame.errors hcount)

theorem checkBounds_of_clean (hmuted : a.log.muted = 0)
    (hcount : (checkBounds p a).2.log.errorCount ≤ a.log.errorCount) :
    ¬ a.options.memorySize < p.address + p.length := by
  have hnone : decide (a.options.memorySize < p.address + p.length) = false :=
    reportIf_of_clean hmuted hcount
  simpa using hnone

theorem store_of_clean {address : Word} {v : Value} (h : store address v a = .ok () b)
    (hmuted : a.log.muted = 0) (hcount : b.log.errorCount ≤ a.log.errorCount)
    (hv : 0 < v.length) : 0 ≤ address ∧ address ≤ a.memory.size := by
  rcases store_cases h with ⟨-, rfl⟩ | ⟨hadmits, rfl⟩
  · have hclean := a.log.not_isError_of_errorCount hmuted hcount
    have herror := hclean _ (List.mem_singleton_self _)
    cases herror
  · unfold Memory.admits Memory.fits at hadmits
    rw [if_neg (by simpa using List.ne_nil_of_length_pos hv)] at hadmits
    split at hadmits
    · cases hadmits
    · rename_i hfits
      -- The end of the value may have wrapped; what rules that out is the test of its start.
      split at hadmits
      · cases hadmits
      · rename_i hbeyond
        simp only [Bool.not_eq_true', Bool.not_eq_false, Bool.and_eq_true,
          decide_eq_true_eq] at hfits
        exact ⟨hfits.1, Int64.not_lt.mp hbeyond⟩

theorem Processed.place_clean (h : Processed s a o b)
    (hcount : b.log.errorCount ≤ a.log.errorCount) :
    (place s a).2.log.errorCount ≤ a.log.errorCount := by
  have hbounds := (beforeLabel_of_place s a).frame.errors
  have hlabel := (beforeLabel_keeps s a).errors
  have hencode := h.keeps_layOut.errors
  omega

theorem Processed.situated (h : Processed s a o b) (hchecked : a.Checked)
    (hs : s.kind = .dsa → s.operands.length ≤ maxAddressOperands)
    (hcount : b.log.errorCount ≤ a.log.errorCount) : Situated s a o.placement b.counter := by
  have hplacement : o.placement = (place s a).1 := by rw [h.placement, layOut_apply]
  have hregisters := h.registers_eq
  simp only [Assembly.registers, Prod.mk.injEq] at hregisters
  rw [hplacement, hregisters.1]
  exact place_situates s hs a
    (tame_of_clean hchecked.size hchecked.muted (h.place_clean hcount))

theorem Processed.end_le (h : Processed s a o b) (hchecked : a.Checked)
    (hcount : b.log.errorCount ≤ a.log.errorCount) (htakes : s.kind.takesCells = true) :
    o.placement.address + o.placement.length ≤ a.options.memorySize := by
  have hplaced := Keeps.of_frame (place_within s a).frame
  have hlabel := (beforeLabel_keeps s a).errors
  have hencode := h.keeps_layOut.errors
  have hplace := hplaced.errors
  have hbefore : beforeLabel s a = (checkBounds (place s a).1 (place s a).2).2 := if_pos htakes
  have hplacement : o.placement = (place s a).1 := by rw [h.placement, layOut_apply]
  rw [hbefore] at hlabel
  have hend := checkBounds_of_clean (p := (place s a).1) (hplaced.muted.trans hchecked.muted)
    (by omega)
  rw [hplaced.options] at hend
  rw [hplacement]
  exact Int64.not_lt.mp hend

theorem Processed.start_le (h : Processed s a o b) (hbuilding : Building a)
    (hs : s.kind = .dsa → s.operands.length ≤ maxAddressOperands)
    (hcount : b.log.errorCount ≤ a.log.errorCount) (hpos : 0 < o.placement.length.toInt)
    (hreserves : s.kind.reserves = false) :
    0 ≤ o.placement.address ∧ o.placement.address ≤ a.options.memorySize := by
  have hsituated := h.situated hbuilding.toChecked hs hcount
  rcases h.core with ⟨hemitting, -, -⟩ | ⟨-, c, hc, hstore⟩
  · rw [Assembly.emitting, (layOut_keeps s a).pass, hbuilding.pass] at hemitting
    cases hemitting
  · have hlaid := layOut_keeps s a
    have hencoded := Keeps.of_frame (encode_leads hc).frame
    have hmuted : c.log.muted = 0 := (hencoded.muted.trans hlaid.muted).trans hbuilding.muted
    have hpair : s.kind = .dac ∨ s.kind = .dsac → 2 ≤ o.placement.length.toInt := by
      intro hkind
      have hplacement : o.placement = (place s a).1 := by rw [h.placement, layOut_apply]
      rw [hplacement] at hpos ⊢
      exact place_pairs (tame_of_clean hbuilding.size hbuilding.muted (h.place_clean hcount))
        hkind hpos
    have hvalue := encode_pos hsituated.moderate hpos hc hpair (hsituated.takesCells hpos) hreserves
    have herrors := Nat.le_trans hlaid.errors hencoded.errors
    have hstart := store_of_clean hstore hmuted (by omega) hvalue
    rwa [(encode_leads hc).frame.memory, layOut_memory, hbuilding.memory] at hstart

/-- **A statement without an error lies in core**, unless it sets cells aside before core or so far
behind it that their end wraps. -/
theorem Processed.occupies (h : Processed s a o b) (hbuilding : Building a)
    (hs : s.kind = .dsa → s.operands.length ≤ maxAddressOperands)
    (hcount : b.log.errorCount ≤ a.log.errorCount) (hpos : 0 < o.placement.length.toInt) :
    o.placement.InCore a.options.memorySize ∨ s.kind.reserves = true ∧
      (o.placement.address.toInt < 0 ∨
        2 ^ 63 ≤ o.placement.address.toInt + o.placement.length.toInt) := by
  have hsituated := h.situated hbuilding.toChecked hs hcount
  have ⟨hllo, hlhi⟩ := hsituated.moderate
  obtain ⟨hmin, hmax⟩ := toInt_of_mem_memorySizes hbuilding.size
  have hend := h.end_le hbuilding.toChecked hcount (hsituated.takesCells hpos)
  rw [Int64.le_iff_toInt_le] at hend
  have hcore : 0 ≤ o.placement.address.toInt →
      o.placement.address.toInt + o.placement.length.toInt < 2 ^ 63 →
      o.placement.InCore a.options.memorySize := by
    intro hlo hhi
    rw [Word.toInt_add_of (by omega) (by omega)] at hend
    exact ⟨hlo, hend⟩
  -- Without a value nothing tests the start; with one, the store does.
  cases hreserves : s.kind.reserves with
  | true =>
    by_cases hlo : 0 ≤ o.placement.address.toInt
    · by_cases hhi : o.placement.address.toInt + o.placement.length.toInt < 2 ^ 63
      · exact .inl (hcore hlo hhi)
      · exact .inr ⟨rfl, .inr (by omega)⟩
    · exact .inr ⟨rfl, .inl (by omega)⟩
  | false =>
    obtain ⟨hlo, hhi⟩ := h.start_le hbuilding hs hcount hpos hreserves
    rw [Int64.le_iff_toInt_le] at hlo hhi
    exact .inl (hcore hlo (by omega))

/-! ## A pass -/

/-- The counter stands in core, or right behind it. -/
def Assembly.Counts (a : Assembly) : Prop :=
  0 ≤ a.counter.toInt ∧ a.counter.toInt ≤ a.options.memorySize.toInt

/-- A field or a string with an address operand starts before core. -/
def Outcome.StartsBefore (o : Outcome) : Prop :=
  (o.statement.kind = .ds ∨ o.statement.kind = .das) ∧
    (o.statement.operand 1).isBlank = false ∧ o.placement.address.toInt < 0

/-- From a counter in core only an address operand leads before core. -/
theorem Situated.named_of_neg (h : Situated s a p counter) (hcounts : a.Counts)
    (hsize : a.options.memorySize ∈ memorySizes) (hpos : 0 < p.length.toInt)
    (hneg : p.address.toInt < 0) : s.isNamed = true ∧ ¬ (s.kind = .dss ∨ s.kind = .dsb) := by
  obtain ⟨hlo, hhi⟩ := hcounts
  obtain ⟨-, hmax⟩ := toInt_of_mem_memorySizes hsize
  have hzero : (0 : Word).toInt = 0 := rfl
  cases h with
  | nowhere hlength =>
    rw [hlength] at hpos
    omega
  | origin hlength =>
    rw [hlength] at hpos
    omega
  | counted _ _ _ haddress =>
    have hstart := (toInt_of_counted hlo (by omega) haddress).1
    omega
  | named _ hnamed _ _ hfirst =>
    refine ⟨hnamed, fun hkind => ?_⟩
    have hnonneg := hfirst hkind
    omega
  | beside _ _ haddress =>
    rw [haddress] at hneg
    omega

theorem Situated.address_le (h : Situated s a p counter) (hcounts : a.Counts)
    (hsize : a.options.memorySize ∈ memorySizes) : p.address.toInt ≤ 100001 := by
  obtain ⟨hlo, hhi⟩ := hcounts
  obtain ⟨-, hmax⟩ := toInt_of_mem_memorySizes hsize
  have hready : Ready [] 100000 a := ⟨⟨hsize, by simp⟩, hlo, by omega⟩
  exact (h.placed (b := { a with counter }) (Int.le_refl _) (by omega) hready).address

theorem Processed.counts (h : Processed s a o b) (hchecked : a.Checked)
    (hs : s.kind = .dsa → s.operands.length ≤ maxAddressOperands)
    (hcount : b.log.errorCount ≤ a.log.errorCount) (hcounts : a.Counts) : b.Counts := by
  have hsituated := h.situated hchecked hs hcount
  have hmoderate := hsituated.moderate
  obtain ⟨hllo, hlhi⟩ := hmoderate
  obtain ⟨-, hmax⟩ := toInt_of_mem_memorySizes hchecked.size
  unfold Assembly.Counts
  rw [h.keeps.options]
  obtain ⟨hlo, hhi⟩ := hcounts
  cases hsituated with
  | nowhere _ _ hcounter => rw [hcounter]; exact ⟨hlo, hhi⟩
  | origin _ halo hahi hcounter =>
    rw [Int64.lt_iff_toInt_lt] at hahi
    rw [hcounter]
    exact ⟨halo, by omega⟩
  | counted htakes _ _ haddress hcounter =>
    have hend := h.end_le hchecked hcount htakes
    obtain ⟨halo, hahi⟩ := toInt_of_counted hlo (by omega) haddress
    rw [← hcounter, Int64.le_iff_toInt_le] at hend
    refine ⟨?_, hend⟩
    rw [hcounter, Word.toInt_add_of (by omega) (by omega)]
    omega
  | named _ _ _ _ _ hcounter => rw [hcounter]; exact ⟨hlo, hhi⟩
  | beside _ _ _ hcounter => rw [hcounter]; exact ⟨hlo, hhi⟩

/-- **A statement that is met with the counter in core** lies in core, or starts before it. -/
theorem Processed.inCore (h : Processed s a o b) (hbuilding : Building a)
    (hs : s.kind = .dsa → s.operands.length ≤ maxAddressOperands)
    (hcount : b.log.errorCount ≤ a.log.errorCount) (hcounts : a.Counts)
    (hpos : 0 < o.placement.length.toInt) :
    o.placement.InCore a.options.memorySize ∨ o.StartsBefore := by
  have hsituated := h.situated hbuilding.toChecked hs hcount
  have haddress := hsituated.address_le hcounts hbuilding.size
  have ⟨hllo, hlhi⟩ := hsituated.moderate
  rcases h.occupies hbuilding hs hcount hpos with hcore | ⟨hreserves, hneg | hwraps⟩
  · exact .inl hcore
  · right
    obtain ⟨hnamed, hfirst⟩ := hsituated.named_of_neg hcounts hbuilding.size hpos hneg
    have hkind : s.kind = .ds ∨ s.kind = .das := by
      cases hk : s.kind <;> simp [hk, Kind.reserves] at hreserves hfirst ⊢
    refine ⟨by rwa [h.statement], ?_, hneg⟩
    rw [h.statement]
    unfold Statement.isNamed at hnamed
    rcases hkind with hk | hk <;> rw [hk] at hnamed <;> simpa [Kind.addressPlace?] using hnamed
  · omega

theorem Building.parse (h : Building a) (line : Line) :
    Building (parse line (a.atLine line.number)).2 := by
  have hparse := parse_leads line a
  refine h.of_keeps { Keeps.of_frame hparse.frame with } ?_
  rw [hparse.frame.memory]
  rfl

theorem processed_of_handleLine {line : Line} (h : handleLine line a = .ok (o, true) b) :
    Processed o.statement (parse line (a.atLine line.number)).2 o b := by
  rw [statement_of_handleLine h]
  cases handles_of_handleLine h with
  | processed _ _ hp => exact processed_of_process hp

theorem Building.handleLine {line : Line} {processed : Bool} (h : Building a)
    (hb : handleLine line a = .ok (o, processed) b) : Building b := by
  have hparsed := h.parse line
  have hhandles := handles_of_handleLine hb
  refine hparsed.of_keeps hhandles.keeps ?_
  cases hhandles with
  | processed _ _ hp => exact (processed_of_process hp).memory_size
  | _ => rfl

theorem Visits.building {vs : List Visit} (h : Visits a vs b) (ha : Building a) : Building b := by
  induction h with
  | nil hrests => exact ha.of_keeps hrests.toKeeps (by rw [hrests.same])
  | cons hrests hv _ ih =>
    exact ih ((ha.of_keeps hrests.toKeeps (by rw [hrests.same])).handleLine hv)

theorem operands_of_handleLine {line : Line} {processed : Bool}
    (h : handleLine line a = .ok (o, processed) b) :
    o.statement.kind = .dsa → o.statement.operands.length ≤ maxAddressOperands := by
  rw [statement_of_handleLine h]
  exact parse_operands line _

theorem Assembly.Counts.parse (h : a.Counts) (line : Line) :
    (SpsAssembler.parse line (a.atLine line.number)).2.Counts := by
  have hparse := parse_leads line a
  have hoptions : (SpsAssembler.parse line (a.atLine line.number)).2.options = a.options :=
    hparse.frame.options
  unfold Assembly.Counts
  rw [(hparse.counter_eq rfl).1, hoptions]
  exact h

theorem counts_of_handleLine {line : Line} {processed : Bool}
    (h : handleLine line a = .ok (o, processed) b) (hchecked : a.Checked)
    (hcount : b.log.errorCount ≤ a.log.errorCount) (hcounts : a.Counts) : b.Counts := by
  have hparsed := hcounts.parse line
  have herrors := Nat.le_trans hcount (parse_leads line a).frame.errors
  cases processed with
  | true =>
    exact (processed_of_handleLine h).counts (hchecked.parse line) (operands_of_handleLine h) herrors
      hparsed
  | false =>
    cases handles_of_handleLine h with
    | comment => exact hparsed
    | beyond => exact hparsed
    | overrun => exact hparsed

theorem inCore_of_handleLine {line : Line} {processed : Bool}
    (h : handleLine line a = .ok (o, processed) b) (hbuilding : Building a)
    (hcount : b.log.errorCount ≤ a.log.errorCount) (hcounts : a.Counts)
    (hpos : 0 < o.placement.length.toInt) :
    o.placement.InCore a.options.memorySize ∨ o.StartsBefore := by
  have hframe := (parse_leads line a).frame
  have hoptions : (parse line (a.atLine line.number)).2.options = a.options := hframe.options
  cases processed with
  | true =>
    rw [← hoptions]
    exact (processed_of_handleLine h).inCore (hbuilding.parse line) (operands_of_handleLine h)
      (Nat.le_trans hcount hframe.errors) (hcounts.parse line) hpos
  | false =>
    have hzero : ¬ 0 < (0 : Word).toInt := by decide
    cases handles_of_handleLine h with
    | comment => exact absurd hpos hzero
    | beyond => exact absurd hpos hzero
    | overrun => exact absurd hpos hzero

/-- **The statements of a pass without an error** lie in core, or start before it. -/
theorem inCore_of_visits {vs : List Visit} (hvs : Visits a vs b) (hbuilding : Building a)
    (hcount : b.log.errorCount ≤ a.log.errorCount) (hcounts : a.Counts) :
    ∀ v ∈ vs, 0 < v.outcome.placement.length.toInt →
      v.outcome.placement.InCore a.options.memorySize ∨ v.outcome.StartsBefore := by
  induction hvs with
  | nil => simp
  | @cons a b v vs hrests hv hvs ih =>
    have hvkeeps := keeps_of_handleLine hv
    obtain ⟨-, hthis, hrest⟩ := hrests.toKeeps.clean_parts hvkeeps hvs.keeps hcount
    have hbefore := hbuilding.of_keeps hrests.toKeeps (by rw [hrests.same])
    have hmet : v.before.Counts := by
      rw [hrests.same]
      exact hcounts
    have hafter := counts_of_handleLine hv hbefore.toChecked hthis hmet
    have hthere := inCore_of_handleLine hv hbefore hthis hmet
    rw [hrests.options] at hthere
    refine List.forall_mem_cons.mpr ⟨hthere, ?_⟩
    have hlater := ih (hbefore.handleLine hv) hrest hafter
    rwa [hvkeeps.options, hrests.options] at hlater

/-! ## Programs -/

/-- The second pass of a run begins with the state. -/
def BeginsSecond (options : Options) (first : Reading Line) (c : Assembly) : Prop :=
  ∃ a events b startup, Assembly.start options = .ok a ∧
    runPass first (a.reset 1) = .ok events b ∧ first.failure = none ∧
    (b.reset 2).load = .ok (c, startup)

/-- The second pass of a run processes a line, with these states around it. -/
def ProcessedInSecond (options : Options) (first second : Reading Line) (a : Assembly)
    (o : Outcome) (b : Assembly) : Prop :=
  ∃ c before line after events, BeginsSecond options first c ∧
    second.items = before ++ .line line :: after ∧ sweep 0 before c = .ok events a ∧
    handleLine line a = .ok (o, true) b

theorem building_of_beginsSecond {options : Options} {first : Reading Line} {c : Assembly}
    (hsize : options.memorySize ∈ memorySizes) (h : BeginsSecond options first c) :
    Building c ∧ c.options = options ∧ c.Counts ∧ c.log.errorCount = 0 := by
  obtain ⟨a, events, b, startup, hstart, hpass, -, hload⟩ := h
  obtain ⟨hblank, -, -⟩ := blank_eq hsize
  obtain ⟨hmemory, ha⟩ := start_eq hstart
  obtain ⟨hc, -⟩ := load_eq hload
  obtain ⟨vs, hvs, -⟩ := visits_of_runPass hpass
  have hoptions : c.options = options := by
    rw [hc, Assembly.loaded]
    exact hvs.keeps.options.trans (by rw [ha]; rfl)
  obtain ⟨hmin, hmax⟩ := toInt_of_mem_memorySizes hsize
  have hcells : c.memory.cells.size = options.memorySize.toNatClampNeg := by
    rw [hblank] at hmemory
    have hundefined : b.memory = Memory.undefined options.memorySize :=
      (hvs.memory_eq rfl).trans (Except.ok.inj hmemory).symm
    rw [hc, Assembly.loaded, Memory.size_seed, Memory.clear, Array.size_replicate]
    change b.memory.cells.size = _
    rw [hundefined, Memory.undefined, Array.size_replicate]
  have hmuted : c.log.muted = 0 := by
    rw [hc]
    exact hvs.keeps.muted.trans (by rw [ha]; rfl)
  have hstarts := startAddress_bounds
  refine ⟨⟨⟨by rwa [hoptions], hmuted⟩, by rw [hc]; rfl, ?_⟩, hoptions, ?_, by rw [hc]; rfl⟩
  · rw [hoptions, Memory.size, hcells]
    apply Int64.toInt_inj.mp
    rw [Int64.toInt_ofNat_of_lt (by rw [Int64.toNatClampNeg]; omega), Int64.toNatClampNeg]
    omega
  · have hcounter : c.counter = startAddress := by rw [hc]; rfl
    unfold Assembly.Counts
    rw [hcounter, hoptions]
    exact ⟨hstarts.1, Int.le_trans (by decide : startAddress.toInt ≤ 20000) hmin⟩

/-- **What is laid out outside core is reported**, with these exceptions. A statement that the second
pass processes lies in core or raises an error, unless it only sets cells aside and they start
before core or their end wraps. In a program without an error every statement lies in core, except
a field or a string whose address operand names a cell in core while its first one is before it. -/
theorem outside_reported {options : Options} {first second : Reading Line}
    (hsize : options.memorySize ∈ memorySizes) :
    (∀ a o b, ProcessedInSecond options first second a o b → 0 < o.placement.length.toInt →
      o.placement.InCore options.memorySize ∨ a.log.errorCount < b.log.errorCount ∨
        o.statement.kind.reserves = true ∧ (o.placement.address.toInt < 0 ∨
          2 ^ 63 ≤ o.placement.address.toInt + o.placement.length.toInt)) ∧
    ∀ run program, assemble options first second = .ok run → run.result = .ok program →
      program.ok = true → ∀ o ∈ program.outcomes, 0 < o.placement.length.toInt →
        o.placement.InCore options.memorySize ∨ o.StartsBefore := by
  constructor
  · rintro a o b ⟨c, before, line, after, events, hbegins, -, hsweep, hline⟩ hpos
    obtain ⟨hbuilding, hoptions, -⟩ := building_of_beginsSecond hsize hbegins
    obtain ⟨vs, hvs, -⟩ := visits_of_sweep hsweep
    have hparse := parse_leads line a
    have hkeeps := Keeps.of_frame hparse.frame
    have hsame : (parse line (a.atLine line.number)).2.options = options :=
      hkeeps.options.trans (hvs.keeps.options.trans hoptions)
    by_cases hcount : b.log.errorCount ≤ a.log.errorCount
    · have hthere := (processed_of_handleLine hline).occupies ((hvs.building hbuilding).parse line)
        (operands_of_handleLine hline) (Nat.le_trans hcount hkeeps.errors) hpos
      rw [hsame] at hthere
      exact hthere.imp_right .inr
    · exact .inr (.inl (by omega))
  · intro run program hrun hprogram hok o ho hpos
    obtain ⟨a, b, c, d, h⟩ := twoPasses_of_assemble hrun hprogram
    obtain ⟨hbuilding, hoptions, hcounts, hzero⟩ := building_of_beginsSecond hsize
      ⟨a, _, b, _, h.start, h.pass1, h.failure1, h.load⟩
    obtain ⟨-, ws, -, hws, -, -, -, hwrec, -⟩ := h.visits
    have hclean : d.log.errorCount = 0 := by
      rw [h.program_eq, Program.ok, Bool.and_eq_true, beq_iff_eq, beq_iff_eq] at hok
      exact hok.2
    have houtcomes : o ∈ ws.map Visit.result := by
      rw [h.program_eq] at ho
      rwa [← hwrec.outcomes]
    obtain ⟨w, hw, rfl⟩ := List.mem_map.mp houtcomes
    have hthere := inCore_of_visits hws hbuilding (by omega) hcounts w hw hpos
    rwa [hoptions] at hthere

/-- The first cell of a statement and how many there are. -/
def Outcome.span (o : Outcome) : Word × Word := (o.placement.address, o.placement.length)

/-- The number of errors of each pass, and the cells of the statements of the second, if both come to
their end. -/
def errorsAndSpans (first second : Reading Line) (a : Assembly) :
    Option (Nat × Nat × List (Word × Word)) :=
  afterPasses (fun _ events _ => (events.filterMap Event.outcome?).map Outcome.span) first second a

theorem assemble_of_errorsAndSpans {options : Options} {first second : Reading Line} {m n : Nat}
    {spans : List (Word × Word)} (hstart : Assembly.start options = .ok a)
    (hsize : startupLength ≤ options.memorySize.toNatClampNeg) (hfailure1 : first.failure = none)
    (hfailure2 : second.failure = none)
    (h : errorsAndSpans first second a = some (m, n, spans)) :
    ∃ run program, assemble options first second = .ok run ∧ run.result = .ok program ∧
      program.pass1.errors = m ∧ program.pass2.errors = n ∧
      program.outcomes.map Outcome.span = spans := by
  obtain ⟨run, program, hrun, hprogram, h1, h2, hspans⟩ :=
    assemble_of_afterPasses _ hstart hsize hfailure1 hfailure2 h
  refine ⟨run, program, hrun, hprogram, h1, h2, ?_⟩
  obtain ⟨_, _, _, _, htwo⟩ := twoPasses_of_assemble hrun hprogram
  rw [htwo.program_eq]
  exact hspans

/-- An instruction in the last cells of core, and a field in the first ones. -/
def edgeSource : Reading Line where
  items := [
    .line { number := 1, operation := ascii "DORG", operands := ascii "19988" },
    .line { number := 2, operation := ascii "H" },
    .line { number := 3, label := ascii "A", operation := ascii "DS", operands := ascii "10,9" },
    .line { number := 4, operation := ascii "DEND", operands := ascii "402" }]

theorem outside_reported_edgeSource : ∃ run program,
    assemble { memorySize := 20000, tables := false } edgeSource edgeSource = .ok run ∧
      run.result = .ok program ∧ program.ok = true ∧
      program.outcomes.map Outcome.span = [(19988, 0), (19988, 12), (0, 10), (402, 0)] ∧
      ∀ o ∈ program.outcomes, 0 < o.placement.length.toInt →
        o.placement.InCore 20000 ∨ o.StartsBefore := by
  obtain ⟨run, program, hrun, hprogram, h1, h2, hspans⟩ : ∃ run program,
      assemble { memorySize := 20000, tables := false } edgeSource edgeSource = .ok run ∧
        run.result = .ok program ∧ program.pass1.errors = 0 ∧ program.pass2.errors = 0 ∧
        program.outcomes.map Outcome.span = [(19988, 0), (19988, 12), (0, 10), (402, 0)] := by
    exact assemble_of_errorsAndSpans rfl (by decide) rfl rfl (by decide +kernel)
  have hok : program.ok = true := by rw [Program.ok, h1, h2]; rfl
  exact ⟨run, program, hrun, hprogram, hok, hspans,
    (outside_reported (by decide)).2 run program hrun hprogram hok⟩

/-- A field of ten cells whose last one is named to be the sixth of core. -/
def earlySource : Reading Line where
  items := [
    .line { number := 1, label := ascii "A", operation := ascii "DS", operands := ascii "10,5" },
    .line { number := 2, operation := ascii "DEND", operands := ascii "402" }]

/-- **A field that starts before core is not noticed.** Its end lies in core, and nothing is stored
that could be refused. -/
theorem startsBeforeCore_unnoticed : ∃ run program,
    assemble { memorySize := 20000, tables := false } earlySource earlySource = .ok run ∧
      run.result = .ok program ∧ program.ok = true ∧
      ∃ o ∈ program.outcomes, 0 < o.placement.length.toInt ∧ ¬ o.placement.InCore 20000 := by
  obtain ⟨run, program, hrun, hprogram, h1, h2, hspans⟩ : ∃ run program,
      assemble { memorySize := 20000, tables := false } earlySource earlySource = .ok run ∧
        run.result = .ok program ∧ program.pass1.errors = 0 ∧ program.pass2.errors = 0 ∧
        program.outcomes.map Outcome.span = [(-4, 10), (402, 0)] := by
    exact assemble_of_errorsAndSpans rfl (by decide) rfl rfl (by decide +kernel)
  refine ⟨run, program, hrun, hprogram, by rw [Program.ok, h1, h2]; rfl, ?_⟩
  obtain ⟨o, ho, hspan⟩ : ∃ o ∈ program.outcomes, o.span = (-4, 10) :=
    List.mem_map.mp (by rw [hspans]; exact List.mem_cons_self)
  obtain ⟨haddress, hlength⟩ := Prod.mk.inj hspan
  refine ⟨o, ho, by rw [hlength]; decide, fun hcore => ?_⟩
  have hlo := hcore.1
  rw [haddress] at hlo
  revert hlo
  decide

end SpsAssembler
