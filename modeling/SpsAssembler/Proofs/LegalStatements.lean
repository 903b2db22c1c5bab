import SpsAssembler.Proofs.Encoding
import SpsAssembler.Proofs.LegalCells

/-!
# The cells of a statement are legal

The cells of a statement are digits that may be flagged, unflagged marks or blanks, with and without
errors, as long as the numbers that go into its fields have a magnitude. A check leaves the least
word without one. An even address has none either if it is the greatest word or its negative, since
the even number behind the greatest word is the least one.

* `Check.apply_ne_minValue`, `Check.addressEven_ne_minValue`: what checks leave;
* `writtenValues`, `evenValue?`, **`Statement.Spills`**: an operand is left without a magnitude;
* `Step.Yields`: what a step gives behind every evaluation;
* **`isLegal_of_encode`**: the cells of a statement that does not spill.
-/

namespace SpsAssembler

open Value (IsNumeric IsLegal)

variable {s : Statement} {p : Placement} {a b : Assembly}

/-! ## Checked values -/

theorem Word.ne_minValue_of_nonneg {w : Word} (h : 0 ≤ w.toInt) : w ≠ Int64.minValue := by
  rintro rfl
  revert h
  decide

namespace Check

theorem caution_value (faulty : Word → Bool) (cause : Word → Cause) (v : Verdict) :
    (caution faulty cause v).1 = v.1 := by
  unfold caution
  split <;> rfl

/-- A value with a magnitude keeps one behind every check but that of an even address. -/
theorem apply_ne_minValue {check : Check} (hcheck : check ≠ .addressEven) {v : Word}
    (h : v ≠ Int64.minValue) (size : Word) : (check.apply size v).1 ≠ Int64.minValue := by
  have hsign : 0 ≤ (notNegative (v, [])).1.toInt := correct_sign h
  have hupTo : ∀ limit, (upTo limit (v, [])).1 ≠ Int64.minValue := by
    intro limit
    unfold upTo
    rw [correct_value]
    split
    · decide
    · exact h
  cases check with
  | addressEven => exact absurd rfl hcheck
  | none => exact h
  | address => exact Word.ne_minValue_of_nonneg (inCore_nonneg (by decide) hsign)
  | addressOdd => exact Word.ne_minValue_of_nonneg (inCore_nonneg (by decide) (correct_odd hsign))
  | value => exact hupTo maxValue
  | double => exact hupTo maxDoubleValue
  | positive =>
    unfold apply
    rw [correct_value]
    split
    · decide
    · exact Word.ne_minValue_of_nonneg (correct_sign h)
  | _ =>
    unfold apply nearCore
    simp only [caution_value]
    exact h

/-- What the check of an even address does not put right. -/
def SpillsEven (v : Word) : Prop :=
  v = Int64.minValue ∨ v = Int64.maxValue ∨ v = -Int64.maxValue

theorem notNegative_ne_maxValue {v : Word} (h : ¬ SpillsEven v) :
    (notNegative (v, [])).1 ≠ Int64.maxValue := by
  rw [SpillsEven, not_or, not_or] at h
  obtain ⟨-, hmax, hneg⟩ := h
  unfold notNegative
  rw [correct_value]
  split
  · intro heq
    exact hneg (by rw [← heq, Int64.neg_neg])
  · exact hmax

theorem addressEven_ne_minValue {v : Word} (h : ¬ SpillsEven v) (size : Word) :
    (Check.addressEven.apply size v).1 ≠ Int64.minValue := by
  have hsign : 0 ≤ (notNegative (v, [])).1.toInt := correct_sign fun hmin => h (.inl hmin)
  have hne := notNegative_ne_maxValue h
  refine Word.ne_minValue_of_nonneg (inCore_nonneg (by decide) ?_)
  rw [correct_value]
  generalize (notNegative (v, [])).1 = w at hsign hne
  split
  · have hlt := w.toInt_lt
    have hlast : w.toInt ≠ 2 ^ 63 - 1 := fun heq => hne (Int64.toInt_inj.mp heq)
    have hone : (1 : Word).toInt = 1 := rfl
    rw [Word.toInt_add_of (by omega) (by omega)]
    omega
  · exact hsign

end Check

/-! ## Operands that go into core -/

/-- An operand with a given `*`, before it is checked. -/
def Assembly.operandValue (a : Assembly) (star : Word) (operand : Text) : Option Word :=
  rawValue a.scope { star } a.symbols operand

/-- The operands that go into the fields of a statement, besides an even address, before they are
checked. The bit of a bit address is left out, since only its last digit counts. -/
def writtenValues (s : Statement) (p : Placement) (a : Assembly) : List (Option Word) :=
  match s.kind with
  | .dsa => s.operands.map (a.operandValue p.star)
  | .dda => [s.operand 1, s.operand 2, s.operand 3].map (a.operandValue 0)
  | .dvlc => p.widths.zipIdx.map fun w => a.operandValue 0 (s.operand (2 + 2 * w.2))
  | .instruction =>
    (if s.descriptor.p = .none then [] else [a.operandValue p.star (s.operand 0)]) ++
      if s.descriptor.q = .none then [] else [a.operandValue p.star (s.operand 1)]
  | _ => []

/-- The operand that goes into core as an even address, before it is checked: where the program
starts, or where a disk control field points to. -/
def evenValue? (s : Statement) (a : Assembly) : Option Word :=
  match s.kind with
  | .dend => a.layoutValue (s.operand 0)
  | .dda => if a.emitting then a.layoutValue (s.operand 4) else none
  | _ => none

/-- A statement in the state in which it is encoded has an operand that its check leaves without a
magnitude. -/
def Statement.Spills (s : Statement) (p : Placement) (a : Assembly) : Prop :=
  (a.emitting = true ∧ some Int64.minValue ∈ writtenValues s p a) ∨
    ∃ v ∈ evenValue? s a, Check.SpillsEven v

/-! ## Steps that evaluate -/

/-- Behind every evaluation from `a` on, the step gives what has a property. -/
def Step.Yields {α : Type} (a : Assembly) (P : α → Prop) (x : Step α) : Prop :=
  ∀ c, Leads .still a c → P (x c).1

namespace Step.Yields

variable {α β : Type} {P : α → Prop} {Q : β → Prop}

theorem pure {v : α} (h : P v) : Step.Yields a P (pure v) := fun _ _ => h

theorem bind {x : Step α} {f : α → Step β} (hx : Step.Yields a P x) (hwithin : Step.Within .still x)
    (hf : ∀ v, P v → Step.Yields a Q (f v)) : Step.Yields a Q (x >>= f) := fun c hc =>
  hf (x c).1 (hx c hc) (x c).2 (hc.trans (hwithin c))

theorem skip {x : Step α} {f : α → Step β} (hwithin : Step.Within .still x)
    (hf : ∀ v, Step.Yields a Q (f v)) : Step.Yields a Q (x >>= f) := fun c hc =>
  hf (x c).1 (x c).2 (hc.trans (hwithin c))

theorem get_bind {f : Assembly → Step β} (hf : ∀ b, Step.Yields a Q (f b)) :
    Step.Yields a Q (get >>= f) := fun c hc => hf c c hc

theorem ite {c : Prop} [Decidable c] {x y : Step α} (hx : c → Step.Yields a P x)
    (hy : ¬ c → Step.Yields a P y) : Step.Yields a P (if c then x else y) := by
  split
  · exact hx ‹_›
  · exact hy ‹_›

theorem foldlM {f : α → β → Step α} (hf : ∀ v x, Step.Within .still (f v x)) {xs : List β}
    (h : ∀ v, ∀ x ∈ xs, P v → Step.Yields a P (f v x)) {v : α} (hv : P v) :
    Step.Yields a P (xs.foldlM f v) := by
  induction xs generalizing v with
  | nil => exact .pure hv
  | cons x xs ih =>
    rw [List.foldlM_cons]
    exact .bind (h v x List.mem_cons_self hv) (hf v x) fun w hw =>
      ih (fun v y hy => h v y (List.mem_cons_of_mem x hy)) hw

end Step.Yields

theorem evaluate_yields {operand : Text} {usage : Usage} (hordered : usage.ordered = false)
    (hcheck : usage.check ≠ .addressEven)
    (h : a.operandValue usage.star operand ≠ some Int64.minValue) :
    Step.Yields a (fun r => r.1 ≠ Int64.minValue) (evaluate operand usage) := by
  intro c hc
  have hraw : rawValue c.scope usage c.symbols operand = a.operandValue usage.star operand := by
    rw [hc.rawValue_eq]
    exact rawValue_usage (by rfl) (by exact hordered) a.scope a.symbols operand
  change (evaluateIn c.scope usage c.symbols operand).value ≠ _
  rw [evaluateIn_value, hraw]
  cases hv : a.operandValue usage.star operand with
  | none => exact (by decide : (0 : Word) ≠ Int64.minValue)
  | some v =>
    rw [hv] at h
    exact Check.apply_ne_minValue hcheck (fun heq => h (by rw [heq])) _

theorem evaluateEven_yields {operand : Text}
    (h : ∀ v, a.layoutValue operand = some v → ¬ Check.SpillsEven v) :
    Step.Yields a (· ≠ Int64.minValue) (evaluateLayout operand .addressEven) := by
  intro c hc
  rw [evaluateLayout_value, hc.layoutValue_eq]
  cases hv : a.layoutValue operand with
  | none => exact (by decide : (0 : Word) ≠ Int64.minValue)
  | some v => exact Check.addressEven_ne_minValue (h v hv) _

/-! ## The cells of a statement -/

theorem isNumeric_putAddress {v : Value} (h : v.IsNumeric) {address : Word}
    (haddress : address ≠ Int64.minValue) (i : Word) (flagFirst : Bool) (index : Index) :
    (putAddress v i flagFirst address index).IsNumeric :=
  (h.setField haddress _ _ _).setIndexFlags _ _

theorem isNumeric_putQ {v : Value} (h : v.IsNumeric) {q : Word} (hq : q ≠ Int64.minValue)
    (s : Statement) (index : Index) : (putQ s v q index).IsNumeric := by
  unfold putQ
  split
  · split
    · exact h.setField hq _ _ _
    · exact isNumeric_putAddress h hq _ _ _
  · exact isNumeric_putAddress h hq _ _ _
  · exact isNumeric_putAddress h hq _ _ _

theorem putAddresses_yields {v : Value} (hv : v.IsNumeric)
    (h : ∀ operand ∈ s.operands, a.operandValue p.star operand ≠ some Int64.minValue) :
    Step.Yields a IsNumeric (putAddresses s p v) := by
  refine .get_bind fun b => .foldlM (fun v x => ?_) (fun v x hx hv => ?_) hv
  · exact .bind evaluate_within fun _ => .pure _
  · have hmem : x.1 ∈ s.operands := List.fst_mem_of_mem_zipIdx hx
    exact .bind (evaluate_yields rfl nofun (h x.1 hmem)) evaluate_within
      fun r hr => .pure (isNumeric_putAddress hv hr _ _ _)

theorem sectorOperand_yields {operand : Text}
    (h : a.operandValue 0 operand ≠ some Int64.minValue) :
    Step.Yields a (· ≠ Int64.minValue) (sectorOperand operand) := by
  refine .bind (evaluate_yields rfl nofun h) evaluate_within fun r hr =>
    .ite (fun _ => ?_) fun _ => ?_
  · exact .skip (report_within (.one rfl)) fun _ => .pure (by decide)
  · exact .pure hr

theorem sectorCountOperand_yields {operand : Text}
    (h : a.operandValue 0 operand ≠ some Int64.minValue) :
    Step.Yields a (· ≠ Int64.minValue) (sectorCountOperand operand) := by
  refine .bind (evaluate_yields rfl nofun h) evaluate_within fun r hr =>
    .ite (fun _ => ?_) fun _ => .ite (fun _ => ?_) fun _ => ?_
  · exact .skip (report_within (.one rfl)) fun _ => .pure (by decide)
  · exact .skip (report_within (.one rfl)) fun _ => .pure (by decide)
  · exact .pure hr

theorem encodeDisk_yields
    (h : ∀ i, i = 1 ∨ i = 2 ∨ i = 3 → a.operandValue 0 (s.operand i) ≠ some Int64.minValue)
    (heven : ∀ v, a.layoutValue (s.operand 4) = some v → ¬ Check.SpillsEven v) :
    Step.Yields a IsNumeric (encodeDisk s) := by
  refine .bind (evaluate_yields rfl nofun (h 1 (by simp))) evaluate_within fun drive hdrive => ?_
  refine .bind (sectorOperand_yields (h 2 (by simp))) sectorOperand_within fun sector hsector => ?_
  refine .bind (sectorCountOperand_yields (h 3 (by simp))) sectorCountOperand_within
    fun count hcount => ?_
  refine .bind (evaluateEven_yields heven) evaluateLayout_within fun address haddress => .pure ?_
  have hdigits := (Value.isNumeric_replicate diskLength.toNatClampNeg).setField hdrive 0 1 false
  exact ((hdigits.setField hsector _ _ _).setField hcount _ _ _).setField haddress _ _ _

theorem encodeFieldsFrom_yields {widths : List (Word × Nat)} {stop : Word} {v : Value}
    (h : ∀ w ∈ widths, a.operandValue 0 (s.operand (2 + 2 * w.2)) ≠ some Int64.minValue)
    (hv : v.IsNumeric) : Step.Yields a IsNumeric (encodeFieldsFrom s widths stop v) := by
  induction widths generalizing stop v with
  | nil => exact .pure hv
  | cons first rest ih =>
    obtain ⟨hfirst, hrest⟩ := List.forall_mem_cons.mp h
    exact .bind (evaluate_yields rfl nofun hfirst) evaluate_within fun r hr =>
      ih hrest (hv.setField hr _ _ _)

/-- A number that the P or the Q operand gives has a magnitude. -/
abbrev Step.Measured (a : Assembly) (x : Step (Word × Index)) : Prop :=
  Step.Yields a (fun r => r.1 ≠ Int64.minValue) x

theorem encodeP_measured {star : Word}
    (h : s.descriptor.p ≠ .none → a.operandValue star (s.operand 0) ≠ some Int64.minValue) :
    Step.Measured a (encodeP s star) := by
  refine .get_bind fun b => ?_
  dsimp only
  cases hp : s.descriptor.p with
  | none => exact .skip (reportIf_within _ rfl) fun _ => .pure (by decide)
  | reference => exact evaluate_yields rfl nofun (h (by rw [hp]; nofun))
  | referenceEven =>
    exact evaluate_yields rfl (by dsimp only; split <;> nofun) (h (by rw [hp]; nofun))
  | referenceOdd =>
    exact evaluate_yields rfl (by dsimp only; split <;> nofun) (h (by rw [hp]; nofun))
  | value => exact evaluate_yields rfl nofun (h (by rw [hp]; nofun))

theorem selectCode_measured {codes : List Word} (h : ∀ code ∈ codes, code ≠ Int64.minValue)
    (outOfRange : Nat → Word → Cause) (hcause : ∀ n w, (outOfRange n w).concernsLabel = false)
    (operand : Text) (star : Word) :
    Step.Measured a (selectCode codes outOfRange operand star) := by
  rw [selectCode_eq]
  refine .skip evaluate_within fun r => .ite (fun _ => .pure ?_) fun _ => ?_
  · rw [List.getD_eq_getElem?_getD]
    cases hcode : codes[r.1.toNatClampNeg - 1]? with
    | none => exact (by decide : (0 : Word) ≠ Int64.minValue)
    | some code => exact h code (List.mem_of_getElem? hcode)
  · exact .skip (report_within (.one (hcause _ _))) fun _ => .pure (by decide)

theorem toInt_bitAddress {q d : Word} (hq : q ≠ Int64.minValue)
    (hfour : ¬ 10000 ≤ Value.magnitude q) (hlo : -10 < d.toInt) (hhi : d.toInt < 10) :
    (10000 * d - q).toInt = 10000 * d.toInt - q.toInt ∧
      (10000 * d + q).toInt = 10000 * d.toInt + q.toInt ∧ q.toInt.natAbs < 10000 := by
  have hneg := Word.toInt_neg_of hq
  have hzero : (0 : Word).toInt = 0 := rfl
  have hthousands : (10000 : Word).toInt = 10000 := rfl
  have hrange : q.toInt.natAbs < 10000 := by
    unfold Value.magnitude at hfour
    rw [Int64.le_iff_toInt_le] at hfour
    split at hfour <;> rename_i hsign <;> rw [Int64.lt_iff_toInt_lt] at hsign <;> omega
  have hmul : (10000 * d).toInt = 10000 * d.toInt := by
    rw [Word.toInt_mul_of (by rw [hthousands]; omega) (by rw [hthousands]; omega), hthousands]
  refine ⟨?_, ?_, hrange⟩
  · rw [Word.toInt_sub_of (by omega) (by omega), hmul]
  · rw [Word.toInt_add_of (by omega) (by omega), hmul]

theorem bitAddress_bounds {q d : Word} (hq : q ≠ Int64.minValue)
    (hfour : ¬ 10000 ≤ Value.magnitude q) (hlo : -10 < d.toInt) (hhi : d.toInt < 10) :
    -(10000 * d - q) ≠ Int64.minValue ∧ 10000 * d + q ≠ Int64.minValue := by
  obtain ⟨hsub, hadd, hrange⟩ := toInt_bitAddress hq hfour hlo hhi
  have hleast : Int64.minValue.toInt = -2 ^ 63 := rfl
  have hmagnitude : 10000 * d - q ≠ Int64.minValue := fun heq => by
    rw [heq] at hsub
    omega
  constructor
  · intro heq
    have hback := Word.toInt_neg_of hmagnitude
    rw [heq] at hback
    omega
  · intro heq
    rw [heq] at hadd
    omega

theorem bitAddress_measured {star : Word}
    (h : a.operandValue star (s.operand 1) ≠ some Int64.minValue) :
    Step.Measured a (bitAddress s star) := by
  refine .bind (evaluate_yields rfl nofun h) evaluate_within fun q hq => ?_
  refine .skip evaluate_within fun bit => .ite (fun _ => ?_) fun hfour => ?_
  · exact .skip (report_within (.one rfl)) fun _ => .pure (by decide)
  have hdigit : (bit.1 % 10).toInt = bit.1.toInt.tmod 10 := Int64.toInt_mod ..
  have hlo : -10 < (bit.1 % 10).toInt := hdigit ▸ Int.lt_tmod_of_pos _ (by decide)
  have hhi : (bit.1 % 10).toInt < 10 := hdigit ▸ Int.tmod_lt_of_pos _ (by decide)
  obtain ⟨hnegative, hpositive⟩ := bitAddress_bounds hq hfour hlo hhi
  exact .ite (fun _ => .pure hnegative) fun _ => .pure hpositive

theorem short_codes : ∀ codes ∈ [skipCodes, skipAfterCodes, spaceCodes, spaceAfterCodes],
    ∀ code ∈ codes, Word.Short code := by
  have hall : [skipCodes, skipAfterCodes, spaceCodes, spaceAfterCodes].all
      (·.all fun code => 0 ≤ code.toInt && code.toInt < 100000) = true := by decide
  simpa only [List.all_eq_true, Bool.and_eq_true, decide_eq_true_eq, Word.Short] using hall

theorem encodeQ_measured {star : Word} (hdefault : s.descriptor.qDefault < 100000)
    (h : s.descriptor.q ≠ .none → a.operandValue star (s.operand 1) ≠ some Int64.minValue) :
    Step.Measured a (encodeQ s star) := by
  have hcodes : ∀ codes ∈ [skipCodes, skipAfterCodes, spaceCodes, spaceAfterCodes],
      ∀ code ∈ codes, code ≠ Int64.minValue := fun codes hmem code hcode =>
    Word.ne_minValue_of_nonneg (short_codes codes hmem code hcode).1
  have hword : Int64.ofNat s.descriptor.qDefault ≠ Int64.minValue := by
    refine Word.ne_minValue_of_nonneg ?_
    rw [Int64.toInt_ofNat_of_lt (by omega)]
    omega
  refine .get_bind fun b => ?_
  dsimp only
  cases hq : s.descriptor.q with
  | none => exact .skip (reportIf_within _ rfl) fun _ => .pure (by decide)
  | reference => exact evaluate_yields rfl nofun (h (by rw [hq]; nofun))
  | referenceBit => exact bitAddress_measured (h (by rw [hq]; nofun))
  | immediate => exact evaluate_yields rfl nofun (h (by rw [hq]; nofun))
  | immediateIndex => exact evaluate_yields rfl nofun (h (by rw [hq]; nofun))
  | value => exact evaluate_yields rfl nofun (h (by rw [hq]; nofun))
  | skip => exact selectCode_measured (hcodes _ (by simp)) _ (fun _ _ => rfl) _ _
  | skipAfter => exact selectCode_measured (hcodes _ (by simp)) _ (fun _ _ => rfl) _ _
  | space => exact selectCode_measured (hcodes _ (by simp)) _ (fun _ _ => rfl) _ _
  | spaceAfter => exact selectCode_measured (hcodes _ (by simp)) _ (fun _ _ => rfl) _ _
  | literal =>
    refine .ite (fun _ => .pure hword) fun _ => .skip (report_within (.one rfl)) fun _ => ?_
    exact evaluate_yields rfl nofun (h (by rw [hq]; nofun))

/-- The codes of an operation have at most five digits. -/
def Descriptor.isShort (d : Descriptor) : Bool := d.opcode < 100000 && d.qDefault < 100000

theorem parse_isShort (line : Line) (a : Assembly) :
    (parse line a).1.descriptor.isShort = true :=
  parse_descriptor (by decide +kernel) rfl rfl line a

theorem buildInstruction_yields (hshort : s.descriptor.isShort = true)
    (hp : s.descriptor.p ≠ .none → a.operandValue p.star (s.operand 0) ≠ some Int64.minValue)
    (hq : s.descriptor.q ≠ .none → a.operandValue p.star (s.operand 1) ≠ some Int64.minValue) :
    Step.Yields a IsNumeric (buildInstruction s p) := by
  simp only [Descriptor.isShort, Bool.and_eq_true, decide_eq_true_eq] at hshort
  have hopcode : Int64.ofNat s.descriptor.opcode ≠ Int64.minValue := by
    refine Word.ne_minValue_of_nonneg ?_
    rw [Int64.toInt_ofNat_of_lt (by omega)]
    omega
  refine .bind (encodeP_measured hp) (encodeP_within s p.star) fun pr hpr => ?_
  refine .bind (encodeQ_measured hshort.2 hq) (encodeQ_within s p.star) fun qr hqr => ?_
  have hbare := isNumeric_putAddress (isNumeric_bareInstruction hopcode) hpr Field.p false pr.2
  have hdigits := isNumeric_putQ hbare hqr s qr.2
  dsimp only
  cases hflags : (putQ s _ _ _).setFlags (flagsOperand s) with
  | some w => exact .pure (hdigits.setFlags hflags)
  | none => exact .skip (report_within (.one rfl)) fun _ => .pure hdigits

theorem cells_of_constantCells {k : Except Fault Constant} {v : Value}
    (h : constantCells k a = .ok v b) : ∃ c, k = .ok c ∧ v = c.cells := by
  cases k with
  | error f => cases h
  | ok c =>
    cases h
    exact ⟨c, rfl, rfl⟩

theorem isLegal_of_encodeAlpha {v : Value} (h : encodeAlpha s p a = .ok v b) : v.IsLegal := by
  unfold encodeAlpha at h
  split at h
  · obtain ⟨cells, c, hcells, h⟩ := Build.ok_of_bind_ok h
    cases h
    obtain ⟨k, hk, rfl⟩ := cells_of_constantCells hcells
    exact (flaggable_encodeText hk).flag_zero
  · cases h
    decide

theorem isLegal_of_encodeConstant {v : Value} (h : encodeConstant s p a = .ok v b) :
    v.IsLegal := by
  rw [encodeConstant_eq] at h
  split at h
  · cases h
    decide
  · obtain ⟨cells, c, hcells, h⟩ := Build.ok_of_bind_ok h
    cases h
    obtain ⟨k, hk, rfl⟩ := cells_of_constantCells hcells
    split
    · exact isLegal_encodeNumber hk
    · rename_i hne
      exact (flaggable_encodeNumber hk (by simpa using hne)).flag_zero

theorem isLegal_of_encodeSpecial {v : Value} (h : encodeSpecial s p a = .ok v b) : v.IsLegal := by
  unfold encodeSpecial at h
  split at h
  · cases h
    decide
  · obtain ⟨k, hk, rfl⟩ := cells_of_constantCells h
    exact isLegal_encodeNumber hk

theorem isLegal_of_encodeFields {v : Value} (h : encodeFields s p a = .ok v b)
    (hvalues : ∀ w ∈ p.widths.zipIdx,
      a.operandValue 0 (s.operand (2 + 2 * w.2)) ≠ some Int64.minValue) : v.IsLegal := by
  unfold encodeFields at h
  split at h
  · cases h
    decide
  · obtain ⟨n, c, hn, h⟩ := Build.ok_of_bind_ok h
    cases hsize : allocate p.length with
    | error f =>
      rw [hsize] at hn
      cases hn
    | ok k =>
      rw [hsize] at hn
      cases hn
      cases h
      exact (encodeFieldsFrom_yields hvalues (Value.isNumeric_replicate _) _ .refl).isLegal

/-- **The cells of a statement are legal** if none of its operands is left without a magnitude. -/
theorem isLegal_of_encode {v : Value} (h : encode s p a = .ok v b) (hemitting : a.emitting = true)
    (hshort : s.descriptor.isShort = true) (hspills : ¬ s.Spills p a) : v.IsLegal := by
  have hwritten : some Int64.minValue ∉ writtenValues s p a := fun hmem =>
    hspills (.inl ⟨hemitting, hmem⟩)
  have heven : ∀ v ∈ evenValue? s a, ¬ Check.SpillsEven v := fun v hv hspill =>
    hspills (.inr ⟨v, hv, hspill⟩)
  unfold writtenValues at hwritten
  unfold evenValue? at heven
  unfold encode at h
  cases hkind : s.kind with
  | dac => rw [hkind] at h; exact isLegal_of_encodeAlpha h
  | dsac => rw [hkind] at h; exact isLegal_of_encodeAlpha h
  | dc => rw [hkind] at h; exact isLegal_of_encodeConstant h
  | dsc => rw [hkind] at h; exact isLegal_of_encodeSpecial h
  | dnb =>
    rw [hkind] at h
    obtain ⟨rfl, -⟩ := encodeBlanks_cases h
    intro c hc
    rw [(List.mem_replicate.mp hc).2]
    rfl
  | dgm =>
    rw [hkind] at h
    cases h
    decide
  | dot =>
    rw [hkind] at h
    obtain ⟨rfl, -⟩ := encodeOctal_cases h
    exact fun c hc => isLegal_tables.2.2 c (List.mem_of_mem_drop hc)
  | dsa =>
    rw [hkind] at h hwritten
    obtain ⟨rfl, -⟩ := encodeAddresses_cases h
    refine (putAddresses_yields (Value.isNumeric_replicate _) (fun operand hmem heq => ?_) a
      .refl).isLegal
    exact hwritten (List.mem_map.mpr ⟨operand, hmem, heq⟩)
  | dda =>
    rw [hkind] at h hwritten heven
    cases h
    refine (encodeDisk_yields (fun i hi heq => ?_) (fun v hv => ?_) a .refl).isLegal
    · refine hwritten (List.mem_map.mpr ⟨s.operand i, ?_, heq⟩)
      rcases hi with rfl | rfl | rfl <;> simp
    · exact heven v (by simp [hemitting, hv])
  | dvlc =>
    rw [hkind] at h hwritten
    refine isLegal_of_encodeFields h fun w hw heq => ?_
    exact hwritten (List.mem_map.mpr ⟨w, hw, heq⟩)
  | instruction =>
    rw [hkind] at h hwritten
    obtain ⟨rfl, -⟩ := encodeInstruction_cases h
    have hcells : IsNumeric (buildInstruction s p a).1 := by
      refine buildInstruction_yields hshort (fun hp heq => ?_) (fun hq heq => ?_) a .refl
      · exact hwritten (List.mem_append_left _ (by simp [hp, heq]))
      · exact hwritten (List.mem_append_right _ (by simp [hq, heq]))
    exact fun c hc => hcells.isLegal c (List.mem_of_mem_take hc)
  | _ =>
    rw [hkind] at h
    cases h
    decide

end SpsAssembler
