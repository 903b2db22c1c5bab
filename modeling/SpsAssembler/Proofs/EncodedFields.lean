import SpsAssembler.Proofs.SilentSteps

/-!
# The fields of statements

The cells of an address row, a disk control field, a variable constant or an instruction are its
fields, one behind the other. If nothing is reported while they are encoded, every field spells the
magnitude of its operand. The number of a skip or of a spacing stands for a code, and only the last
digit of a bit number counts. No check keeps a drive to one digit, or the value of a variable
constant to the width of its field.

* `Statement.qNumber`, `Statement.numericFields`: what the fields of a statement have to spell;
* `putAddresses_carries`, `encodeDisk_carries`, `encodeFields_carries`: declaratives;
* `encodeP_given`, `encodeQ_given`, **`buildInstruction_carries`**: instructions.
-/

namespace SpsAssembler

open NumericField (Given magnitude)

variable {s : Statement} {p : Placement} {a b : Assembly} {v : Value}

/-! ## Fields -/

/-- The number that the Q field spells, by the Q operand and the bit number. -/
def Statement.qNumber (s : Statement) (q bit : Word) : Nat :=
  let code (codes : List Word) : Nat := (codes.getD (q.toNatClampNeg - 1) 0).toInt.natAbs
  match s.descriptor.q with
  | .referenceBit => 10000 * (bit.toInt.natAbs % 10) + q.toInt.natAbs
  | .skip => code skipCodes
  | .skipAfter => code skipAfterCodes
  | .space => code spaceCodes
  | .spaceAfter => code spaceAfterCodes
  | .literal => s.descriptor.qDefault
  | _ => q.toInt.natAbs

/-- The Q field of an instruction. -/
def Statement.qField (s : Statement) (p : Placement) (a : Assembly) : NumericField where
  width := 5
  operand := a.worth p.star (s.operand 1)
  number := s.qNumber (a.worth p.star (s.operand 1)) (a.worth 0 (s.operand 2))
  checked := true

/-- The fields of an instruction. A short one has no cells for operands that it does not take. -/
def Statement.instructionFields (s : Statement) (p : Placement) (a : Assembly) :
    List NumericField :=
  magnitude 2 (Int64.ofNat s.descriptor.opcode) true ::
    ((if s.descriptor.p = .none ∧ p.length < 7 then []
      else [magnitude 5 (a.worth p.star (s.operand 0)) true]) ++
      if s.descriptor.q = .none ∧ p.length < 12 then [] else [s.qField p a])

/-- The fields of a statement, with its operands as they are in a state. An operand that has no
value there counts as zero. -/
def Statement.numericFields (s : Statement) (p : Placement) (a : Assembly) : List NumericField :=
  match s.kind with
  | .dsa => s.operands.map fun operand => magnitude 5 (a.worth p.star operand) true
  | .dda => [
      magnitude 1 (a.worth 0 (s.operand 1)) false,
      magnitude 5 (a.worth 0 (s.operand 2)) true,
      magnitude 3 (a.worth 0 (s.operand 3)) true,
      magnitude 5 (a.layoutWorth (s.operand 4)) true]
  | .dvlc => p.widths.zipIdx.map fun w =>
      magnitude w.1.toNatClampNeg (a.worth 0 (s.operand (2 + 2 * w.2))) false
  | .instruction => s.instructionFields p a
  | _ => []

/-- Whether the cells of a kind are fields. -/
def Kind.hasFields : Kind → Bool
  | dsa | dda | dvlc | instruction => true
  | _ => false

theorem Leads.numericFields_eq (h : Leads .still a b) (s : Statement) (p : Placement) :
    s.numericFields p b = s.numericFields p a := by
  have hworth : ∀ star operand, b.worth star operand = a.worth star operand := fun star operand =>
    congrArg (·.getD 0) (h.rawValue_eq { star } operand)
  have hlayout : ∀ operand, b.layoutWorth operand = a.layoutWorth operand := fun operand =>
    congrArg (·.getD 0) (h.layoutValue_eq operand)
  simp only [Statement.numericFields, Statement.instructionFields, Statement.qField, hworth,
    hlayout]

theorem Value.Carries.putAddress {fields : List NumericField} {f : NumericField} {rest : Nat}
    (h : v.Carries fields (f.width + rest)) {i n : Word} (hn : f.Given n) (flagFirst : Bool)
    (index : Index) (hlength : v.length < 2 ^ 63) (hf : f.width = 5)
    (hi : i.toInt = (fields.map NumericField.width).sum + 5 - 1) :
    (SpsAssembler.putAddress v i flagFirst n index).Carries (fields ++ [f]) rest :=
  (h.setField hn flagFirst hlength (by rw [hi, hf]; rfl) (by rw [hf]; rfl)).of_digits
    (digits_putAddress v i flagFirst n index)

/-! ## Address rows -/

theorem addresses_carries (field : Text → NumericField)
    (hfield : ∀ operand, (field operand).width = 5) {put : Value → Text × Nat → Step Value}
    (hput : ∀ v operand k, Step.Grants a (fun w => ∀ fields rest,
      v.Carries fields (5 + rest) → (fields.map NumericField.width).sum = 5 * k → v.length ≤ 50 →
        w.Carries (fields ++ [field operand]) rest) (put v (operand, k)))
    (operands : List Text) (k : Nat) (v : Value) :
    Step.Grants a (fun w => ∀ fields, v.Carries fields (5 * operands.length) →
      (fields.map NumericField.width).sum = 5 * k → v.length ≤ 50 →
        w.Carries (fields ++ operands.map field) 0) ((operands.zipIdx k).foldlM put v) := by
  induction operands generalizing k v with
  | nil =>
    refine .pure fun fields hv _ _ => ?_
    rwa [List.map_nil, List.append_nil]
  | cons operand operands ih =>
    rw [List.zipIdx_cons, List.foldlM_cons]
    refine .bind (hput v operand k) fun w =>
      (ih (k + 1) w).mono fun u hu hw fields hv hsum hlen => ?_
    rw [List.length_cons, Nat.mul_add, Nat.add_comm] at hv
    have hcarries := hw fields _ hv hsum hlen
    have hnextSum : ((fields ++ [field operand]).map NumericField.width).sum = 5 * (k + 1) := by
      simp [hfield, hsum]
      omega
    have hsame : w.length = v.length := by
      rw [hcarries.length_eq, hv.length_eq, hnextSum, hsum]
      omega
    have hnext := hu _ hcarries hnextSum (hsame ▸ hlen)
    rwa [List.append_assoc, List.singleton_append] at hnext

theorem putAddresses_carries (ha : a.Attentive) (hkind : s.kind = .dsa)
    (hcount : s.operands.length ≤ maxAddressOperands)
    (hlength : p.length.toNatClampNeg = 5 * s.operands.length) :
    Step.Grants a (·.Carries (s.numericFields p a) 0)
      (putAddresses s p (List.replicate p.length.toNatClampNeg 0)) := by
  unfold maxAddressOperands at hcount
  rw [Statement.numericFields, hkind]
  refine .get_bind fun b => ?_
  dsimp only
  refine (addresses_carries (fun operand => magnitude 5 (a.worth p.star operand) true)
    (fun _ => rfl) (fun v operand k => ?_) s.operands 0 _).mono fun w hw => ?_
  · refine .bind (evaluate_given ha rfl rfl rfl) fun r =>
      .pure fun hr fields rest hv hsum hlen => ?_
    have hplace : (Int64.ofNat (5 * k + 4)).toInt =
        (fields.map NumericField.width).sum + 5 - 1 := by
      have hcells := hv.length_eq
      rw [Int64.toInt_ofNat_of_lt (by omega), hsum]
      omega
    exact hv.putAddress hr true r.2 (by omega) rfl hplace
  · exact hw [] (hlength ▸ Value.carries_replicate _) rfl (by simp; omega)

/-! ## Disk control fields -/

theorem sectorOperand_given (ha : a.Attentive) (operand : Text) :
    Step.Grants a (magnitude 5 (a.worth 0 operand) true).Given (sectorOperand operand) := by
  refine .bind (evaluate_given ha rfl rfl rfl) fun r => .ite (fun _ => ?_) fun _ => .pure id
  exact report_bind_grants ha rfl (.pure _)

theorem sectorCountOperand_given (ha : a.Attentive) (operand : Text) :
    Step.Grants a (magnitude 3 (a.worth 0 operand) true).Given (sectorCountOperand operand) := by
  refine .bind (evaluate_operand ha rfl rfl) fun r =>
    .ite (fun _ => ?_) fun _ => .ite (fun _ => ?_) fun hsmall => .pure fun hr => ?_
  · exact report_bind_grants ha rfl (.pure _)
  · exact report_bind_grants ha rfl (.pure _)
  · have hvalue : r.1 = a.worth 0 operand := hr.1
    have hlo : 0 ≤ (a.worth 0 operand).toInt := nonneg_of_passed rfl hr.2
    have hmost : (Int64.ofNat maxSectorCount).toInt = 200 := rfl
    rw [hvalue, Int64.lt_iff_toInt_lt, hmost] at hsmall
    exact given_magnitude hvalue fun _ _ => by omega

theorem encodeDisk_carries (ha : a.Attentive) (hkind : s.kind = .dda) :
    Step.Grants a (·.Carries (s.numericFields p a) 0) (encodeDisk s) := by
  rw [Statement.numericFields, hkind]
  refine .bind (evaluate_operand ha rfl rfl) fun drive =>
    .bind (sectorOperand_given ha _) fun sector =>
    .bind (sectorCountOperand_given ha _) fun count =>
    .bind (evaluateEven_given ha _) fun address =>
    .pure fun haddress hcount hsector hdrive => ?_
  have hsize : diskLength.toNatClampNeg = 14 := rfl
  have hblank : Value.Carries (List.replicate diskLength.toNatClampNeg 0) [] (1 + 13) :=
    Value.carries_replicate 14
  have hfirst : (magnitude 1 (a.worth 0 (s.operand 1)) false).Given drive.1 :=
    given_magnitude hdrive.1 nofun
  have h1 : Value.Carries (Value.setField _ 0 1 false drive.1) _ (5 + 8) :=
    hblank.setField hfirst false (by simp [hsize]) rfl rfl
  have h2 : Value.Carries (Value.setField _ 5 5 true sector) _ (3 + 5) :=
    h1.setField hsector true (by simp [hsize]) rfl rfl
  have h3 : Value.Carries (Value.setField _ 8 3 true count) _ (5 + 0) :=
    h2.setField hcount true (by simp [hsize]) rfl rfl
  have h4 : Value.Carries (Value.setField _ 13 5 true address) _ 0 :=
    h3.setField haddress true (by simp [hsize]) rfl rfl
  exact h4

/-! ## Variable constants -/

theorem encodeFieldsFrom_carries (ha : a.Attentive) {widths : List (Word × Nat)}
    (hwidths : ∀ w ∈ widths, 0 ≤ w.1.toInt) (stop : Word) (v : Value) :
    Step.Grants a (fun u => ∀ fields : List NumericField,
      v.Carries fields (widths.map (·.1.toNatClampNeg)).sum →
      stop.toInt = (fields.map NumericField.width).sum - 1 → v.length ≤ 50 →
        u.Carries (fields ++ widths.map fun w =>
          magnitude w.1.toNatClampNeg (a.worth 0 (s.operand (2 + 2 * w.2))) false) 0)
      (encodeFieldsFrom s widths stop v) := by
  induction widths generalizing stop v with
  | nil =>
    refine .pure fun fields hv _ _ => ?_
    rwa [List.map_nil, List.append_nil]
  | cons first widths ih =>
    obtain ⟨width, j⟩ := first
    obtain ⟨hlo, hrest⟩ := List.forall_mem_cons.mp hwidths
    dsimp only at hlo
    refine .bind (evaluate_operand ha rfl rfl) fun r =>
      (ih hrest _ _).mono fun u hu hr fields hv hstop hlen => ?_
    rw [List.map_cons, List.sum_cons] at hv
    have hclamp := Word.toInt_eq_clamp hlo
    have hcells := hv.length_eq
    dsimp only at hcells
    have hplace : (stop + width).toInt =
        (fields.map NumericField.width).sum + width.toNatClampNeg - 1 := by
      rw [Word.toInt_add_of (by omega) (by omega)]
      omega
    have hgiven : (magnitude width.toNatClampNeg (a.worth 0 (s.operand (2 + 2 * j)))
        false).Given r.1 :=
      given_magnitude hr.1 nofun
    have hwritten : (v.setField (stop + width) width true r.1).Carries (fields ++ [_]) _ :=
      hv.setField hgiven true (by omega) hplace hclamp
    have hnext : (stop + width).toInt = ((fields ++ [magnitude width.toNatClampNeg
        (a.worth 0 (s.operand (2 + 2 * j))) false]).map NumericField.width).sum - 1 := by
      simp [hplace, magnitude]
    have hall := hu _ hwritten hnext (by rwa [Value.length_setField])
    rwa [List.append_assoc, List.singleton_append] at hall

theorem encodeFields_carries (ha : a.Attentive) (hkind : s.kind = .dvlc)
    (hwidths : ∀ w ∈ p.widths, 0 ≤ w.toInt)
    (hlength : p.length.toInt = (p.widths.map Int64.toNatClampNeg).sum) (hmax : p.length.toInt ≤ 50)
    (h : encodeFields s p a = .ok v b) (hsilent : a.Silent b) :
    v.Carries (s.numericFields p a) 0 := by
  rw [Statement.numericFields, hkind]
  unfold encodeFields at h
  have hsum : (p.widths.zipIdx.map (·.1.toNatClampNeg)).sum = p.length.toNatClampNeg := by
    rw [Int64.toNatClampNeg, hlength, Int.toNat_natCast]
    conv_rhs => rw [← List.zipIdx_map_fst 0 p.widths, List.map_map]
    rfl
  have hfst : ∀ w ∈ p.widths.zipIdx, w.1 ∈ p.widths := fun w hw => List.fst_mem_of_mem_zipIdx hw
  by_cases hnone : p.length = 0
  · rw [if_pos hnone] at h
    cases h
    refine Value.carries_nil fun f hf => ?_
    obtain ⟨w, hw, rfl⟩ := List.mem_map.mp hf
    rw [hnone] at hsum
    exact ⟨List.sum_eq_zero_iff_forall_eq_nat.mp hsum _ (List.mem_map.mpr ⟨w, hw, rfl⟩), rfl⟩
  · have hmoderate : p.length.Moderate := ⟨by omega, by omega⟩
    rw [if_neg hnone, allocate_of_moderate hmoderate] at h
    have hfields := (encodeFieldsFrom_carries ha (s := s) (fun w hw => hwidths w.1 (hfst w hw)) (-1)
      (List.replicate p.length.toNatClampNeg 0)).of_lift h hsilent
    refine hfields [] ?_ rfl ?_
    · rw [hsum]
      exact Value.carries_replicate _
    · rw [List.length_replicate, Int64.toNatClampNeg]
      omega

/-! ## Instructions -/

theorem worth_of_isBlank {operand : Text} (h : operand.isBlank = true) (star : Word) :
    a.worth star operand = 0 := by
  simp [Assembly.worth, Assembly.operandValue, rawValue, h]

theorem encodeP_given (ha : a.Attentive) (star : Word) :
    Step.Grants a (fun r => (magnitude 5 (a.worth star (s.operand 0)) true).Given r.1)
      (encodeP s star) := by
  refine .get_bind fun b => ?_
  dsimp only
  cases s.descriptor.p with
  | none =>
    refine .bind (reportIf_grants ha _ rfl) fun _ => .pure fun hblank => ?_
    rw [worth_of_isBlank (by simpa using hblank)]
    exact given_magnitude rfl fun _ _ => by decide
  | reference => exact evaluate_given ha rfl rfl rfl
  | referenceEven => exact evaluate_given ha rfl rfl (by dsimp only; split <;> rfl)
  | referenceOdd => exact evaluate_given ha rfl rfl (by dsimp only; split <;> rfl)
  | value => exact evaluate_given ha rfl rfl rfl

theorem given_code (operand : Word) {n : Word} (hlo : 0 ≤ n.toInt) (hhi : n.toInt < 100000) :
    Given { width := 5, operand, number := n.toInt.natAbs, checked := true } n := fun _ =>
  ⟨Word.ne_minValue_of_nonneg hlo, rfl, fun _ => by dsimp only; omega⟩

theorem selectCode_given (ha : a.Attentive) {codes : List Word}
    (hcodes : ∀ code ∈ codes, code.Short) {outOfRange : Nat → Word → Cause}
    (hcause : ∀ n w, (outOfRange n w).concernsLabel = false) (operand : Text) (star : Word) :
    Step.Grants a (fun r => Given {
        width := 5, operand := a.worth star operand, checked := true
        number := (codes.getD ((a.worth star operand).toNatClampNeg - 1) 0).toInt.natAbs } r.1)
      (selectCode codes outOfRange operand star) := by
  rw [selectCode_eq]
  refine .bind (evaluate_operand ha rfl rfl) fun r => .ite (fun _ => .pure fun hr => ?_) fun _ => ?_
  · have hcode : (codes.getD (r.1.toNatClampNeg - 1) 0).Short := by
      rw [List.getD_eq_getElem?_getD]
      cases hget : codes[r.1.toNatClampNeg - 1]? with
      | none => exact Word.short_zero
      | some code => exact hcodes code (List.mem_of_getElem? hget)
    rw [hr.1] at hcode ⊢
    exact given_code _ hcode.1 hcode.2
  · exact report_bind_grants ha (hcause _ _) (.pure _)

theorem given_bitAddress {q bit : Word} (hbit : 0 ≤ bit.toInt)
    (hfour : ¬ 10000 ≤ Value.magnitude q) {n : Word}
    (hn : n = if q < 0 then -(10000 * (bit % 10) - q) else 10000 * (bit % 10) + q) :
    Given {
      width := 5, operand := q, checked := true
      number := 10000 * (bit.toInt.natAbs % 10) + q.toInt.natAbs } n := by
  intro hmin
  dsimp only at hmin ⊢
  have hdigit := Word.toInt_mod_ten hbit
  have hzero : (0 : Word).toInt = 0 := rfl
  have hleast : Int64.minValue.toInt = -2 ^ 63 := rfl
  obtain ⟨hsub, hadd, hrange⟩ := toInt_bitAddress (d := bit % 10) hmin hfour (by omega) (by omega)
  have hvalue : n.toInt.natAbs = 10000 * (bit.toInt.natAbs % 10) + q.toInt.natAbs := by
    rw [hn]
    split <;> rename_i hsign <;> rw [Int64.lt_iff_toInt_lt] at hsign
    · rw [Word.toInt_neg_of fun heq => by rw [heq] at hsub; omega, hsub]
      omega
    · rw [hadd]
      omega
  refine ⟨fun heq => ?_, hvalue, fun _ => by omega⟩
  rw [heq, hleast] at hvalue
  omega

theorem bitAddress_given (ha : a.Attentive) (star : Word) :
    Step.Grants a (fun r => Given {
        width := 5, operand := a.worth star (s.operand 1), checked := true
        number := 10000 * ((a.worth 0 (s.operand 2)).toInt.natAbs % 10) +
          (a.worth star (s.operand 1)).toInt.natAbs } r.1)
      (bitAddress s star) := by
  refine .bind (evaluate_operand ha rfl rfl) fun q => .bind (evaluate_operand ha rfl rfl) fun bit =>
    .ite (fun _ => ?_) fun hfour => .ite (fun hneg => .pure fun hbit hq => ?_)
      fun hpos => .pure fun hbit hq => ?_
  · exact report_bind_grants ha rfl (.pure _)
  · have hnonneg := nonneg_of_passed rfl hbit.2
    rw [← hq.1, ← hbit.1]
    exact given_bitAddress (hbit.1 ▸ hnonneg) hfour (if_pos hneg).symm
  · have hnonneg := nonneg_of_passed rfl hbit.2
    rw [← hq.1, ← hbit.1]
    exact given_bitAddress (hbit.1 ▸ hnonneg) hfour (if_neg hpos).symm

theorem encodeQ_given (ha : a.Attentive) (hdefault : s.descriptor.qDefault < 100000) :
    Step.Grants a (fun r => (s.qField p a).Given r.1) (encodeQ s p.star) := by
  unfold Statement.qField Statement.qNumber
  refine .get_bind fun b => ?_
  dsimp only
  cases hq : s.descriptor.q with
  | none =>
    refine .bind (reportIf_grants ha _ rfl) fun _ => .pure fun hblank => ?_
    rw [worth_of_isBlank (by simpa using hblank)]
    exact given_magnitude rfl fun _ _ => by decide
  | reference => exact evaluate_given ha rfl rfl rfl
  | referenceBit => exact bitAddress_given ha p.star
  | immediate => exact evaluate_given ha rfl rfl rfl
  | immediateIndex => exact evaluate_given ha rfl rfl rfl
  | value => exact evaluate_given ha rfl rfl rfl
  | skip => exact selectCode_given ha (short_codes _ (by simp)) (fun _ _ => rfl) _ _
  | skipAfter => exact selectCode_given ha (short_codes _ (by simp)) (fun _ _ => rfl) _ _
  | space => exact selectCode_given ha (short_codes _ (by simp)) (fun _ _ => rfl) _ _
  | spaceAfter => exact selectCode_given ha (short_codes _ (by simp)) (fun _ _ => rfl) _ _
  | literal =>
    refine .ite (fun _ => .pure ?_) fun _ => report_bind_grants ha rfl evaluate_within
    have hword : (Int64.ofNat s.descriptor.qDefault).toInt = s.descriptor.qDefault :=
      Int64.toInt_ofNat_of_lt (by omega)
    have hcode := given_code (a.worth p.star (s.operand 1))
      (by omega : 0 ≤ (Int64.ofNat s.descriptor.qDefault).toInt) (by omega)
    rwa [hword, Int.natAbs_natCast] at hcode

/-- The operation code has two digits, and an instruction is long enough for the operands that it
takes. -/
def Descriptor.isRoomy (d : Descriptor) : Bool :=
  d.opcode < 100 && (d.p == .none || 7 ≤ d.shape.instructionLength) &&
    (d.q == .none || 12 ≤ d.shape.instructionLength)

theorem parse_isRoomy (line : Line) (a : Assembly) : (parse line a).1.descriptor.isRoomy = true :=
  parse_descriptor (by decide +kernel) rfl rfl line a

theorem Value.Carries.putQ {fields : List NumericField} {rest : Nat}
    (h : v.Carries fields (5 + rest)) {q : Word} (hq : (s.qField p a).Given q) (index : Index)
    (hlength : v.length < 2 ^ 63)
    (hi : Field.q.toInt = (fields.map NumericField.width).sum + 5 - 1) :
    (SpsAssembler.putQ s v q index).Carries (fields ++ [s.qField p a]) rest := by
  unfold SpsAssembler.putQ
  split
  · split
    · exact h.setField hq true hlength hi rfl
    · exact h.putAddress hq false index hlength rfl hi
  · exact h.putAddress hq true index hlength rfl hi
  · exact h.putAddress hq false index hlength rfl hi

theorem instructionFields_take (hroomy : s.descriptor.isRoomy = true)
    (hlength : p.length = s.descriptor.shape.instructionLength)
    (h : v.Carries [magnitude 2 (Int64.ofNat s.descriptor.opcode) true,
      magnitude 5 (a.worth p.star (s.operand 0)) true, s.qField p a] 0) :
    Value.Carries (v.take p.length.toNatClampNeg) (s.instructionFields p a) 0 := by
  simp only [Descriptor.isRoomy, Bool.and_eq_true, Bool.or_eq_true, beq_iff_eq,
    decide_eq_true_eq, ← hlength] at hroomy
  obtain ⟨⟨-, hp⟩, hq⟩ := hroomy
  have hcases : p.length = 2 ∨ p.length = 7 ∨ p.length = 12 := by
    rw [hlength]
    cases s.descriptor.shape <;> decide
  unfold Statement.instructionFields
  rcases hcases with hlen | hlen | hlen <;> rw [hlen] at hp hq ⊢
  · rw [if_pos ⟨hp.resolve_right (by decide), by decide⟩,
      if_pos ⟨hq.resolve_right (by decide), by decide⟩]
    exact (show v.Carries ([_] ++ [_, _]) 0 from h).take rfl
  · rw [if_neg fun hshort => absurd hshort.2 (by decide),
      if_pos ⟨hq.resolve_right (by decide), by decide⟩]
    exact (show v.Carries ([_, _] ++ [_]) 0 from h).take rfl
  · rw [if_neg fun hshort => absurd hshort.2 (by decide),
      if_neg fun hshort => absurd hshort.2 (by decide)]
    exact (show v.Carries ([_, _, _] ++ []) 0 from h).take rfl

/-- **The cells of an instruction** are its operation code and its operands. -/
theorem buildInstruction_carries (ha : a.Attentive) (hkind : s.kind = .instruction)
    (hshort : s.descriptor.isShort = true) (hroomy : s.descriptor.isRoomy = true)
    (hlength : p.length = s.descriptor.shape.instructionLength) :
    Step.Grants a (fun v => Value.Carries (v.take p.length.toNatClampNeg) (s.numericFields p a) 0)
      (buildInstruction s p) := by
  rw [Statement.numericFields, hkind]
  simp only [Descriptor.isShort, Bool.and_eq_true, decide_eq_true_eq] at hshort
  refine .bind (encodeP_given ha p.star) fun pr => .bind (encodeQ_given ha hshort.2) fun qr => ?_
  dsimp only
  cases hflags : (putQ s _ qr.1 qr.2).setFlags (flagsOperand s) with
  | none => exact report_bind_grants ha rfl (.pure _)
  | some w =>
    refine .pure fun hq hp => instructionFields_take hroomy hlength ?_
    have hopcode : (magnitude 2 (Int64.ofNat s.descriptor.opcode) true).Given
        (Int64.ofNat s.descriptor.opcode) := by
      simp only [Descriptor.isRoomy, Bool.and_eq_true, decide_eq_true_eq] at hroomy
      refine given_magnitude rfl fun _ _ => ?_
      rw [Int64.toInt_ofNat_of_lt (by omega), Int.natAbs_natCast]
      omega
    have hblank : Value.Carries (List.replicate 12 0) [] (2 + 10) := Value.carries_replicate 12
    have hbare : (bareInstruction (Int64.ofNat s.descriptor.opcode)).Carries _ (5 + 5) :=
      hblank.setField hopcode false (by simp) rfl rfl
    have hleft : (putAddress _ Field.p false pr.1 pr.2).Carries _ (5 + 0) :=
      hbare.putAddress hp false pr.2 (by rw [Memory.length_bareInstruction]; decide) rfl rfl
    have hright : (putQ s _ qr.1 qr.2).Carries _ 0 :=
      hleft.putQ hq qr.2 (by rw [length_putAddress, Memory.length_bareInstruction]; decide) rfl
    exact hright.of_digits (Value.digits_setFlags hflags)

end SpsAssembler
