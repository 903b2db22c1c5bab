import SpsAssembler.Proofs.CountedCells
import SpsAssembler.Proofs.SymbolNames

/-!
# The addresses of symbols

A label names one of the cells of its statement, and those lie in core. A statement of length zero
has no cells: only its end is checked, so the counter may place it right behind core, and its label
with it.

* `Check.isOdd_eq`, `alignEven_even`: even addresses;
* `Check.lt_of_clean`, `evaluateLayout_lt_of_clean`: address operands without an error;
* `Kind.Offset`, `Labelled`, **`place_labels`**: which cell a label names;
* `PastCore`, **`Processed.label_bounds`**: the label of one statement;
* **`symbol_addresses`**: the symbols of a program;
* **`endLabel_unnoticed`**: labels behind core.
-/

namespace SpsAssembler

open Assembly (Tame Keeps Checked Counts)

variable {s : Statement} {p : Placement} {a b : Assembly} {o : Outcome} {operands : List Text}

/-! ## Addresses -/

theorem Check.isOdd_eq (v : Word) : isOdd v = decide (v.toInt % 2 = 1) := by
  have hand : v &&& 1 = 1 ↔ v.toBitVec.toNat % 2 = 1 := by
    rw [← Int64.toBitVec_inj, Int64.toBitVec_and, ← BitVec.toNat_inj, BitVec.toNat_and,
      show (1 : Int64).toBitVec.toNat = 1 from rfl, Nat.and_one_is_mod]
  have hmod : v.toInt % 2 = ((v.toBitVec.toNat % 2 : Nat) : Int) := by
    change v.toBitVec.toInt % 2 = _
    rw [BitVec.toInt_eq_toNat_cond]
    split <;> omega
  unfold isOdd
  rw [Bool.eq_iff_iff, beq_iff_eq, decide_eq_true_iff, hand, hmod]
  omega

theorem alignEven_even (hlo : 0 ≤ a.counter.toInt) (hhi : a.counter.toInt ≤ 100000) :
    (alignEven a).2.counter.toInt % 2 = 0 := by
  have hone : (1 : Word).toInt = 1 := rfl
  have happly : (alignEven a).2 =
      if Check.isOdd a.counter then { a with counter := a.counter + 1 } else a := rfl
  rw [happly, Check.isOdd_eq]
  split
  · rename_i hodd
    rw [decide_eq_true_iff] at hodd
    dsimp only
    rw [Word.toInt_add_of (by omega) (by omega)]
    omega
  · rename_i heven
    rw [decide_eq_true_iff] at heven
    omega

theorem even_of_mem_memorySizes {size : Word} (h : size ∈ memorySizes) : size.toInt % 2 = 0 := by
  have hall : memorySizes.all (fun n => n.toInt % 2 == 0) = true := by decide
  simpa using List.all_eq_true.mp hall size h

/-- Checks of addresses that must lie in core. -/
def Check.isAddress : Check → Bool
  | address | addressEven | addressOdd => true
  | _ => false

theorem Check.lt_of_clean {check : Check} (hcheck : check.isAddress = true) {size v : Word}
    (h : ∀ r ∈ (check.apply size v).2, r.isError = false) :
    0 ≤ (check.apply size v).1 ∧ (check.apply size v).1 < size := by
  have hcore : ∀ {w : Verdict} {default : Word},
      (∀ r ∈ (inCore size default w).2, r.isError = false) → (inCore size default w).1 < size := by
    intro w default hw
    obtain ⟨heq, hlt⟩ := correct_of_clean hw
    rw [inCore, heq]
    simpa using hlt
  cases check with
  | address =>
    refine ⟨?_, hcore h⟩
    rw [value_of_clean h]
    exact Int64.not_lt.mp (not_neg_of_clean rfl h)
  | addressEven =>
    refine ⟨?_, hcore h⟩
    rw [value_of_clean h]
    exact Int64.not_lt.mp (not_neg_of_clean rfl h)
  | addressOdd =>
    refine ⟨?_, hcore h⟩
    rw [value_of_clean h]
    exact Int64.not_lt.mp (not_neg_of_clean rfl h)
  | _ => cases hcheck

theorem evaluateLayout_lt_of_clean {operand : Text} {check : Check}
    (hcheck : check.isAddress = true) (hsize : a.options.memorySize ∈ memorySizes)
    (hmuted : a.log.muted = 0)
    (hcount : (evaluateLayout operand check a).2.log.errorCount ≤ a.log.errorCount) :
    0 ≤ (evaluateLayout operand check a).1 ∧
      (evaluateLayout operand check a).1 < a.options.memorySize := by
  rw [evaluateLayout_apply] at hcount
  have hclean := a.log.not_isError_of_errorCount hmuted hcount
  change 0 ≤ (evaluateIn a.scope { star := a.last, ordered := true, check } a.symbols operand).value
    ∧ (evaluateIn a.scope { star := a.last, ordered := true, check } a.symbols operand).value < _
  rcases evaluateIn_value_of_clean _ _ _ _ hclean with hzero | ⟨v, hvalue, hv⟩
  · rw [hzero]
    exact ⟨by decide, (memorySizes_pos hsize).1⟩
  · rw [hvalue]
    exact Check.lt_of_clean hcheck hv

/-! ## Which cell a label names -/

/-- How far behind its first cell a statement that the counter places has its label, if it has no
cells: a string keeps the odd address of its first pair. -/
def Kind.emptyOffset : Kind → Word
  | dac | das => 1
  | _ => 0

/-- The label of cells is one of them; if there are none, it is at a fixed place, behind an even
address if not at the address itself. -/
def Kind.Offset (k : Kind) (aligned : Bool) (length offset : Word) : Prop :=
  (0 ≤ offset.toInt ∧ offset.toInt < length.toInt) ∨
    (length = 0 ∧ offset = k.emptyOffset ∧ (offset ≠ 0 → aligned = true))

/-- The label of a statement is an address in core that an operand gives, or one of the cells of a
statement that the counter places, or fixed by the place of one without cells. -/
inductive Labelled (s : Statement) (a : Assembly) (p : Placement) : Prop
  | given (hlo : 0 ≤ p.labelAddress) (hhi : p.labelAddress < a.options.memorySize)
  | cell (offset : Word) (hcounted : s.isCounted = true)
      (hlabel : p.labelAddress = p.address + offset) (hlo : 0 ≤ offset.toInt)
      (hhi : offset.toInt < p.length.toInt)
  | empty (hcounted : s.isCounted = true) (hlength : p.length = 0)
      (hlabel : p.labelAddress = p.address + s.kind.emptyOffset)
      (heven : s.kind.emptyOffset ≠ 0 → a.Counts → p.address.toInt % 2 = 0)

theorem Labelled.leads (hab : Leads .still a b) (h : Labelled s b p) : Labelled s a p := by
  have hoptions := hab.frame.options
  cases h with
  | given hlo hhi => exact .given hlo (hoptions ▸ hhi)
  | cell offset hcounted hlabel hlo hhi => exact .cell offset hcounted hlabel hlo hhi
  | empty hcounted hlength hlabel heven =>
    refine .empty hcounted hlength hlabel fun hne hcounts => heven hne ?_
    unfold Assembly.Counts
    rw [hoptions, (hab.counter_eq rfl).1]
    exact hcounts

theorem Labelled.of_offset (aligned : Bool) {offset : Word} (hcounted : s.isCounted = true)
    (hlabel : p.labelAddress = p.address + offset)
    (heven : aligned = true → a.Counts → p.address.toInt % 2 = 0)
    (hoffset : s.kind.Offset aligned p.length offset) : Labelled s a p := by
  rcases hoffset with ⟨hlo, hhi⟩ | ⟨hlength, rfl, haligned⟩
  · exact .cell offset hcounted hlabel hlo hhi
  · exact .empty hcounted hlength hlabel fun hne => heven (haligned hne)

/-- The step places the statement, and if it reports no error its label is in order. -/
def Step.Labels (s : Statement) (operands : List Text) (x : Step Placement) : Prop :=
  ∀ a, Tame operands a → a.log.muted = 0 → (x a).2.log.errorCount ≤ a.log.errorCount →
    Labelled s a (x a).1

theorem Step.Labels.bind {α : Type} {x : Step α} {f : α → Step Placement}
    (hx : Step.Within .still x) {P : α → Prop} (hP : ∀ a, Tame operands a → P (x a).1)
    (hf : ∀ v, P v → Step.Labels s operands (f v)) : Step.Labels s operands (x >>= f) := by
  intro a h hmuted hcount
  have hkeeps := Keeps.of_frame (hx a).frame
  exact (hf _ (hP a h) _ (h.leads (hx a)) (hkeeps.muted.trans hmuted)
    (Nat.le_trans hcount hkeeps.errors)).leads (hx a)

/-- What is placed behind a report that may be an error, if it was none. -/
theorem Step.Labels.unless {c : Bool} {cause : Cause} (hcause : cause.concernsLabel = false)
    {f : Unit → Step Placement} {reach : Reach} (hwithin : Step.Within reach (f ()))
    (hf : c = false → Step.Labels s operands (f ())) :
    Step.Labels s operands (reportIf c (error cause) >>= f) := by
  intro a h hmuted hcount
  have hreport : Leads .still a (reportIf c (error cause) a).2 := reportIf_within c hcause a
  have hkeeps := Keeps.of_frame hreport.frame
  have hnone := reportIf_bind_of_clean hwithin hmuted hcount
  exact (hf hnone _ (h.leads hreport) (hkeeps.muted.trans hmuted)
    (Nat.le_trans hcount hkeeps.errors)).leads hreport

theorem Step.Labels.withWidths {x : Step Placement} (hx : Step.Labels s operands x)
    (widths : List Word) : Step.Labels s operands (x >>= fun p => pure { p with widths }) := by
  intro a h hmuted hcount
  cases hx a h hmuted hcount with
  | given hlo hhi => exact .given hlo hhi
  | cell offset hcounted hlabel hlo hhi => exact .cell offset hcounted hlabel hlo hhi
  | empty hcounted hlength hlabel heven => exact .empty hcounted hlength hlabel heven

theorem placeAt_labels {aligned : Bool} {check : Check} {length offset : Word} {address : Text}
    (hname : s.MayName address) (hcheck : check.isAddress = true)
    (hoffset : address.isBlank = true → s.kind.Offset aligned length offset) :
    Step.Labels s operands (placeAt aligned check length offset address) := by
  intro a h hmuted hcount
  obtain ⟨htakes, hnamed⟩ := hname
  unfold placeAt at hcount ⊢
  rw [Step.ite_apply] at hcount ⊢
  split
  · rename_i hblank
    have hcounted : s.isCounted = true := by simp [Statement.isCounted, htakes, hnamed, hblank]
    cases aligned with
    | false => exact .of_offset false hcounted rfl (by simp) (hoffset hblank)
    | true =>
      refine .of_offset true hcounted rfl (fun _ hcounts => ?_) (hoffset hblank)
      have hmax := (toInt_of_mem_memorySizes h.size).2
      exact alignEven_even hcounts.1 (Int.le_trans hcounts.2 hmax)
  · rename_i hblank
    rw [if_neg hblank] at hcount
    obtain ⟨hlo, hhi⟩ := evaluateLayout_lt_of_clean hcheck h.size hmuted hcount
    exact .given hlo hhi

theorem Word.eq_zero_of_toInt {w : Word} (h : w.toInt = 0) : w = 0 := Int64.toInt_inj.mp h

theorem Word.Short.pred_lt_mul {m n : Word} (hm : m.Short) (hn : n.Short)
    (hpos : 0 < (m * n).toInt) : 0 ≤ (m - 1).toInt ∧ (m - 1).toInt < (m * n).toInt := by
  have hone : (1 : Word).toInt = 1 := rfl
  obtain ⟨hmlo, hmhi⟩ := hm
  obtain ⟨hnlo, hnhi⟩ := hn
  have hhi : m.toInt * n.toInt ≤ 100000 * 100000 :=
    Int.mul_le_mul (by omega) (by omega) hnlo (by decide)
  have hlo : 0 ≤ m.toInt * n.toInt := Int.mul_nonneg hmlo hnlo
  rw [Word.toInt_mul_of (by omega) (by omega)] at hpos ⊢
  have hmpos : 0 < m.toInt := by
    by_contra hm
    rw [show m.toInt = 0 by omega, Int.zero_mul] at hpos
    omega
  have hnpos : 0 < n.toInt := by
    by_contra hn
    rw [show n.toInt = 0 by omega, Int.mul_zero] at hpos
    omega
  have hle : m.toInt * 1 ≤ m.toInt * n.toInt := Int.mul_le_mul_of_nonneg_left (by omega) hmlo
  rw [Word.toInt_sub_of (by omega) (by omega)]
  omega

section Offsets

variable {k : Kind} {aligned : Bool} {n m : Word}

theorem Kind.offset_left (hk : k.emptyOffset = 0) (hn : n.Moderate) : k.Offset aligned n 0 := by
  have hzero : (0 : Word).toInt = 0 := rfl
  by_cases hpos : 0 < n.toInt
  · exact .inl ⟨by omega, by omega⟩
  · refine .inr ⟨Word.eq_zero_of_toInt ?_, hk.symm, fun hne => absurd rfl hne⟩
    have hlo := hn.1
    omega

theorem Kind.offset_first (hk : k.emptyOffset = 0) (hm : 0 ≤ m.toInt) (hmn : m.toInt ≤ n.toInt)
    (hn : n.Moderate) : k.Offset aligned n (m - tailOf m) := by
  have hzero : (0 : Word).toInt = 0 := rfl
  have hone : (1 : Word).toInt = 1 := rfl
  have hmax := hn.2
  unfold tailOf
  split
  · rename_i hpos
    rw [Int64.lt_iff_toInt_lt] at hpos
    have hsub : (m - 1).toInt = m.toInt - 1 := Word.toInt_sub_of (by omega) (by omega)
    exact .inl ⟨by omega, by omega⟩
  · rename_i hpos
    rw [Int64.lt_iff_toInt_lt] at hpos
    obtain rfl : m = 0 := Word.eq_zero_of_toInt (by omega)
    exact Kind.offset_left hk hn

theorem Kind.offset_right (hk : k.emptyOffset = 0) (hn : n.Moderate) :
    k.Offset aligned n (n - tailOf n) := Kind.offset_first hk hn.1 (Int.le_refl _) hn

theorem Kind.offset_ite (hk : k.emptyOffset = 0) (hn : n.Moderate)
    (hm : 0 < n.toInt → 0 ≤ m.toInt ∧ m.toInt < n.toInt) :
    k.Offset aligned n (if 0 < n then m else 0) := by
  split
  · rename_i hpos
    rw [Int64.lt_iff_toInt_lt, show (0 : Word).toInt = 0 from rfl] at hpos
    exact .inl (hm hpos)
  · exact Kind.offset_left hk hn

theorem Kind.offset_pairs (hk : k.emptyOffset = 1) (hn : n.Short) : k.Offset true (2 * n) 1 := by
  have hone : (1 : Word).toInt = 1 := rfl
  have hdouble := hn.toInt_double
  have hlo := hn.1
  by_cases hpos : 0 < n.toInt
  · exact .inl ⟨by omega, by omega⟩
  · exact .inr ⟨Word.eq_zero_of_toInt (by omega), hk.symm, fun _ => rfl⟩

end Offsets

theorem placeOrigin_labels : Step.Labels s operands (placeOrigin s) := by
  intro a h hmuted hcount
  obtain ⟨hlo, hhi⟩ :=
    evaluateLayout_lt_of_clean (rfl : Check.address.isAddress = true) h.size hmuted hcount
  exact .given hlo hhi

theorem placeBlock_labels (hkind : s.kind = .dsb) (hname : s.MayName (s.operand 2))
    (h0 : s.operand 0 ∈ operands) (h1 : s.operand 1 ∈ operands) :
    Step.Labels s operands (placeBlock s) := by
  obtain ⟨htakes, hnamed⟩ := hname
  refine .bind evaluateLength_within (fun a h => short_evaluateLayout h h0 rfl) fun size hsize =>
    .bind evaluateLength_within (fun a h => short_evaluateLayout h h1 rfl) fun count hcount => ?_
  intro a h hmuted hclean
  rw [Step.ite_apply] at hclean ⊢
  split
  · rename_i hblank
    have hcounted : s.isCounted = true := by simp [Statement.isCounted, htakes, hnamed, hblank]
    refine .of_offset false hcounted rfl (by simp) ?_
    exact Kind.offset_ite (by rw [hkind]; rfl) (hsize.moderate_mul hcount) fun hpos =>
      hsize.pred_lt_mul hcount hpos
  · rename_i hblank
    rw [if_neg hblank] at hclean
    obtain ⟨hlo, hhi⟩ :=
      evaluateLayout_lt_of_clean (rfl : Check.address.isAddress = true) h.size hmuted hclean
    exact .given hlo hhi

theorem placeAddresses_labels (hkind : s.kind = .dsa)
    (hs : s.operands.length ≤ maxAddressOperands) :
    Step.Labels s operands (placeAddresses s) := by
  intro a _ _ _
  have hcounted : s.isCounted = true := by
    simp [Statement.isCounted, Statement.isNamed, hkind, Kind.addressPlace?, Kind.takesCells]
  have hlength := toInt_addressCells hs
  have hfour : (4 : Word).toInt = 4 := rfl
  have hoffset : s.kind.Offset false (5 * Word.ofLength s.operands)
      (if 0 < 5 * Word.ofLength s.operands then 4 else 0) :=
    Kind.offset_ite (by rw [hkind]; rfl) (moderate_addressCells hs) fun hpos => by omega
  exact .of_offset false hcounted rfl (by simp) hoffset

theorem placeInstruction_labels (hkind : s.kind = .instruction) :
    Step.Labels s operands (placeInstruction s) := by
  intro a _ _ _
  have hcounted : s.isCounted = true := by
    simp [Statement.isCounted, Statement.isNamed, hkind, Kind.addressPlace?, Kind.takesCells]
  refine .cell 0 hcounted (Int64.add_zero _).symm (by decide) ?_
  change 0 < s.descriptor.shape.instructionLength.toInt
  cases s.descriptor.shape <;> decide

theorem headD_le_foldl {widths : List Word} (h : ∀ w ∈ widths, Word.Short w)
    (hcount : widths.length ≤ 20) : 0 ≤ (widths.headD 0).toInt ∧
      (widths.headD 0).toInt ≤ (widths.foldl (· + ·) 0).toInt := by
  cases widths with
  | nil => exact ⟨by decide, by decide⟩
  | cons w widths =>
    obtain ⟨⟨hlo, hhi⟩, hrest⟩ := List.forall_mem_cons.mp h
    rw [List.length_cons] at hcount
    rw [List.headD_cons, List.foldl_cons, Int64.zero_add]
    exact ⟨hlo, le_foldl_add hrest hlo (by omega)⟩

theorem placeFields_labels (hkind : s.kind = .dvlc)
    (h1 : ∀ j ∈ List.range maxFields, s.operand (1 + 2 * j) ∈ operands) :
    Step.Labels s operands (placeFields s) := by
  refine .bind (P := fun widths => (∀ w ∈ widths, Word.Short w) ∧ widths.length = 20)
    (widths_within s) (fun a h => short_widths h h1) fun widths hwidths => ?_
  obtain ⟨hshort, hlen⟩ := hwidths
  obtain ⟨hfirst, hle⟩ := headD_le_foldl hshort (by omega)
  have hmoderate := moderate_sum hshort (by omega)
  refine .unless rfl (.bind placeAt_within fun _ => .pure _) fun hshort => .withWidths ?_ widths
  have hlong : ¬ maxConstantLength < widths.foldl (· + ·) 0 := by simpa using hshort
  rw [if_neg hlong] at hmoderate ⊢
  exact placeAt_labels (Statement.mayName (by rw [hkind]; rfl)) rfl fun _ =>
    Kind.offset_first (by rw [hkind]; rfl) hfirst hle hmoderate

theorem measured_labels {x : Step Word} (hx : Step.Within .still x)
    (hshort : ∀ a, Tame operands a → (x a).1.Short) {aligned : Bool} {check : Check}
    {length offset : Word → Word} {address : Text} (hname : s.MayName address)
    (hcheck : check.isAddress = true) (hn : ∀ n : Word, n.Short → address.isBlank = true →
      s.kind.Offset aligned (length n) (offset n)) : Step.Labels s operands
      (x >>= fun n => placeAt aligned check (length n) (offset n) address) :=
  .bind hx hshort fun n h => placeAt_labels hname hcheck (hn n h)

/-- **Which cell a label names.** -/
theorem place_labels (s : Statement)
    (hs : s.kind = .dsa → s.operands.length ≤ maxAddressOperands)
    (hlabel : s.kind.definesLabel = true) : Step.Labels s s.layoutOperands (place s) := by
  have hmem : ∀ i ∈ s.kind.layoutPlaces, s.operand i ∈ s.layoutOperands :=
    fun i => s.mem_layoutOperands
  have hname : ∀ i, s.kind.addressPlace? = some i → s.MayName (s.operand i) :=
    fun i => Statement.mayName
  have hconstant : s.operand 0 ∈ s.layoutOperands → ∀ a, Tame s.layoutOperands a →
      (constantLength (s.operand 0) a).1.Short := fun h0 _ h => short_constantLength h h0
  have hlength : s.operand 0 ∈ s.layoutOperands → ∀ a, Tame s.layoutOperands a →
      (evaluateLength (s.operand 0) a).1.Short := fun h0 _ h => short_evaluateLayout h h0 rfl
  have hpairs : s.kind.emptyOffset = 1 → ∀ (address : Text) (n : Word), n.Short →
      address.isBlank = true → s.kind.Offset true (2 * n)
        (if address.isBlank then 1 else tailOf (2 * n)) := by
    intro hk address n h hblank
    rw [if_pos hblank]
    exact Kind.offset_pairs hk h
  unfold place
  cases hkind : s.kind <;> rw [hkind] at hmem hname hlabel hpairs
  case dorg => exact placeOrigin_labels
  case dac =>
    exact measured_labels constantLength_within (hconstant (hmem 0 (by decide))) (hname 2 rfl) rfl
      (by rw [hkind]; exact hpairs rfl (s.operand 2))
  case dsac =>
    exact measured_labels constantLength_within (hconstant (hmem 0 (by decide))) (hname 2 rfl) rfl
      fun n h _ => Kind.offset_right (by rw [hkind]; rfl) h.moderate_double
  case das =>
    exact measured_labels evaluateLength_within (hlength (hmem 0 (by decide))) (hname 1 rfl) rfl
      (by rw [hkind]; exact hpairs rfl (s.operand 1))
  case dc =>
    exact measured_labels constantLength_within (hconstant (hmem 0 (by decide))) (hname 2 rfl) rfl
      fun n h _ => Kind.offset_right (by rw [hkind]; rfl) h.moderate
  case dsc =>
    exact measured_labels constantLength_within (hconstant (hmem 0 (by decide))) (hname 2 rfl) rfl
      fun n h _ => Kind.offset_left (by rw [hkind]; rfl) h.moderate
  case dnb =>
    exact measured_labels constantLength_within (hconstant (hmem 0 (by decide))) (hname 1 rfl) rfl
      fun n h _ => Kind.offset_right (by rw [hkind]; rfl) h.moderate
  case dgm =>
    exact placeAt_labels (hname 0 rfl) rfl fun _ =>
      Kind.offset_right (by rw [hkind]; rfl) ⟨by decide, by decide⟩
  case dot =>
    refine .bind (P := Word.Moderate) octalLength_within (fun a _ => moderate_octalLength _ a)
      fun n hlength => placeAt_labels (hname 1 rfl) rfl fun _ => ?_
    exact Kind.offset_right (by rw [hkind]; rfl) hlength
  case ds =>
    exact measured_labels evaluateLength_within (hlength (hmem 0 (by decide))) (hname 1 rfl) rfl
      fun n h _ => Kind.offset_right (by rw [hkind]; rfl) h.moderate
  case dss =>
    exact measured_labels evaluateLength_within (hlength (hmem 0 (by decide))) (hname 1 rfl) rfl
      fun n h _ => Kind.offset_left (by rw [hkind]; rfl) h.moderate
  case dsb =>
    exact placeBlock_labels hkind (hname 2 rfl) (hmem 0 (by decide)) (hmem 1 (by decide))
  case dsa => exact placeAddresses_labels hkind (hs hkind)
  case dda =>
    exact placeAt_labels (hname 0 rfl) rfl fun _ =>
      Kind.offset_left (by rw [hkind]; rfl) ⟨by decide, by decide⟩
  case dvlc =>
    exact placeFields_labels hkind fun j hj =>
      hmem _ (List.mem_cons_of_mem _ (List.mem_map_of_mem hj))
  case instruction => exact placeInstruction_labels hkind
  all_goals cases hlabel

/-! ## One statement -/

/-- A statement without cells that the counter places right behind core. Its label is the end of core,
or for a string the address behind that. -/
structure PastCore (size : Word) (s : Statement) (p : Placement) : Prop where
  counted : s.isCounted = true
  length : p.length = 0
  address : p.address = size
  label : p.labelAddress.toInt = size.toInt + s.kind.emptyOffset.toInt

theorem Kind.toInt_emptyOffset (k : Kind) :
    0 ≤ k.emptyOffset.toInt ∧ k.emptyOffset.toInt ≤ 1 ∧
      (k.emptyOffset = 0 → k.emptyOffset.toInt = 0) := by
  cases k <;> decide

/-- **The label of a statement without an error** is an address in core, unless the statement has no
cells and stands behind core. -/
theorem Processed.label_bounds (h : Processed s a o b) (hchecked : a.Checked)
    (hs : s.kind = .dsa → s.operands.length ≤ maxAddressOperands)
    (hcount : b.log.errorCount ≤ a.log.errorCount) (hcounts : a.Counts)
    (hlabel : s.kind.definesLabel = true) : 0 ≤ o.placement.labelAddress.toInt ∧
      (o.placement.labelAddress.toInt < a.options.memorySize.toInt ∨
        PastCore a.options.memorySize s o.placement) := by
  have hplacement : o.placement = (place s a).1 := by rw [h.placement, layOut_apply]
  have hclean := h.place_clean hcount
  have hlabelled : Labelled s a o.placement := by
    rw [hplacement]
    exact place_labels s hs hlabel a (tame_of_clean hchecked.size hchecked.muted hclean)
      hchecked.muted hclean
  have hadvances := h.advances hchecked hs hcount hcounts
  have hend := hadvances.counts.2
  rw [h.keeps.options] at hend
  obtain ⟨-, hmax⟩ := toInt_of_mem_memorySizes hchecked.size
  have hlo := hcounts.1
  cases hlabelled with
  | given hnonneg hlt =>
    rw [Int64.le_iff_toInt_le] at hnonneg
    rw [Int64.lt_iff_toInt_lt] at hlt
    exact ⟨hnonneg, .inl hlt⟩
  | cell offset hcounted heq hnonneg hlt =>
    obtain ⟨hstart, hlength, hsum⟩ := hadvances.cells hcounted
    have hvalue : o.placement.labelAddress.toInt = o.placement.address.toInt + offset.toInt := by
      rw [heq, Word.toInt_add_of (by omega) (by omega)]
    exact ⟨by omega, .inl (by omega)⟩
  | empty hcounted hlength heq heven =>
    obtain ⟨hstart, -, hsum⟩ := hadvances.cells hcounted
    obtain ⟨holo, hohi, hozero⟩ := s.kind.toInt_emptyOffset
    rw [hlength, show (0 : Word).toInt = 0 from rfl] at hsum
    have hvalue : o.placement.labelAddress.toInt =
        o.placement.address.toInt + s.kind.emptyOffset.toInt := by
      rw [heq, Word.toInt_add_of (by omega) (by omega)]
    refine ⟨by omega, ?_⟩
    by_cases hpast : o.placement.address = a.options.memorySize
    · exact .inr ⟨hcounted, hlength, hpast, hpast ▸ hvalue⟩
    · left
      have hne : o.placement.address.toInt ≠ a.options.memorySize.toInt :=
        fun heq => hpast (Int64.toInt_inj.mp heq)
      by_cases hzero : s.kind.emptyOffset = 0
      · have := hozero hzero
        omega
      · -- Both the address and the size of core are even, so there is a cell between them.
        have hparity := heven hzero hcounts
        have hsize := even_of_mem_memorySizes hchecked.size
        omega

/-! ## Programs -/

theorem label_bounds_of_handleLine {line : Line} {processed : Bool}
    (h : handleLine line a = .ok (o, processed) b) (hchecked : a.Checked)
    (hcount : b.log.errorCount ≤ a.log.errorCount) (hcounts : a.Counts)
    (hlabel : o.statement.kind.definesLabel = true) : processed = true ∧
      0 ≤ o.placement.labelAddress.toInt ∧
      (o.placement.labelAddress.toInt < a.options.memorySize.toInt ∨
        PastCore a.options.memorySize o.statement o.placement) := by
  have hprocessed := processed_of_definesLabel h hlabel
  subst hprocessed
  have hframe := (parse_leads line a).frame
  have hoptions : (parse line (a.atLine line.number)).2.options = a.options := hframe.options
  have hbounds := (processed_of_handleLine h).label_bounds (hchecked.parse line)
    (operands_of_handleLine h) (Nat.le_trans hcount hframe.errors) (hcounts.parse line) hlabel
  rw [hoptions] at hbounds
  exact ⟨rfl, hbounds⟩

/-- **The addresses of symbols.** In a program without an error every symbol has an address in core,
unless it is the label of a statement of length zero that the counter has placed right behind
core. -/
theorem symbol_addresses {options : Options} {first second : Reading Line} {run : Run}
    {program : Program} (hsize : options.memorySize ∈ memorySizes)
    (hrun : assemble options first second = .ok run) (hprogram : run.result = .ok program)
    (hok : program.ok = true) :
    ∀ s ∈ program.symbols.symbols, 0 ≤ s.address.toInt ∧
      (s.address.toInt < options.memorySize.toInt ∨
        ∃ m ∈ run.first.filterMap Event.placed?, PastCore options.memorySize m.1 m.2 ∧
          s.address = m.2.labelAddress ∧ s.kind = m.1.kind ∧ s.defined = m.1.line.number) := by
  intro s hs
  obtain ⟨a, b, c, d, h⟩ := twoPasses_of_assemble hrun hprogram
  obtain ⟨hclean, -⟩ := h.clean hok
  obtain ⟨hoptions, hchecked, hcounts⟩ := h.start_ready hsize
  obtain ⟨vs, -, hvs, -, -, -, hrec, -, -⟩ := h.visits
  have haddress : s.address = s.bare.address := rfl
  rcases h.symbol_cases hvs hs with hundefined | ⟨v, hv, hlabel, hsymbol⟩
  · have hmin := (toInt_of_mem_memorySizes hsize).1
    have hzero : s.address.toInt = 0 := by rw [haddress, hundefined]; rfl
    exact ⟨by omega, .inl (by omega)⟩
  · obtain ⟨before, after, rfl⟩ := List.append_of_mem hv
    obtain ⟨hbefore, hline, hafter⟩ := hvs.split
    have hfirst := hbefore.keeps.errors
    have hthis := (keeps_of_handleLine hline).errors
    have hrest := hafter.keeps.errors
    have hmet := (hbefore.counts hchecked (by omega) hcounts).1
    obtain ⟨hprocessed, hnonneg, hbounds⟩ := label_bounds_of_handleLine hline
      (hbefore.checked hchecked) (by omega) hmet hlabel
    rw [hbefore.keeps.options, hoptions] at hbounds
    rw [haddress, hsymbol]
    refine ⟨hnonneg, hbounds.imp_right fun hpast => ?_⟩
    refine ⟨(v.outcome.statement, v.outcome.placement), ?_, hpast, rfl, ?_, ?_⟩
    · exact hrec.mem_placed hv hprocessed
    · exact congrArg Symbol.kind hsymbol
    · have hdefined : s.defined = v.line.number := congrArg Symbol.defined hsymbol
      rw [hdefined, statement_of_handleLine hline, parse_line]

/-- The names of the symbols of a table, with their addresses. -/
def SymbolTable.addresses (t : SymbolTable) : List (Text × Word) :=
  t.symbols.map fun s => (s.name, s.address)

/-- A source that fills the last cell of core, with labels on statements of length zero behind it. -/
def endSource : Reading Line where
  items := [
    .line { number := 1, label := ascii "A", operation := ascii "DS", operands := ascii "5" },
    .line { number := 2, operation := ascii "DORG", operands := ascii "19999" },
    .line { number := 3, operation := ascii "DS", operands := ascii "1" },
    .line { number := 4, label := ascii "B", operation := ascii "DS", operands := ascii "0" },
    .line { number := 5, label := ascii "C", operation := ascii "DAS", operands := ascii "0" },
    .line { number := 6, operation := ascii "DEND", operands := ascii "402" }]

theorem endSource_assembles : ∃ run program,
    assemble { memorySize := 20000, tables := false } endSource endSource = .ok run ∧
      run.result = .ok program ∧ program.pass1.errors = 0 ∧ program.pass2.errors = 0 ∧
      program.symbols.addresses = [(ascii "A", 406), (ascii "B", 20000), (ascii "C", 20001)] := by
  exact assemble_of_afterPasses (fun _ _ symbols => symbols.addresses) rfl (by decide) rfl rfl
    (by decide +kernel)

theorem symbol_addresses_endSource : ∃ run program,
    assemble { memorySize := 20000, tables := false } endSource endSource = .ok run ∧
      run.result = .ok program ∧ program.ok = true ∧
      program.symbols.addresses = [(ascii "A", 406), (ascii "B", 20000), (ascii "C", 20001)] ∧
      ∀ s ∈ program.symbols.symbols, 0 ≤ s.address.toInt ∧
        (s.address.toInt < 20000 ∨
          ∃ m ∈ run.first.filterMap Event.placed?, PastCore 20000 m.1 m.2 ∧
            s.address = m.2.labelAddress ∧ s.kind = m.1.kind ∧ s.defined = m.1.line.number) := by
  obtain ⟨run, program, hrun, hprogram, h1, h2, haddresses⟩ := endSource_assembles
  have hok : program.ok = true := by rw [Program.ok, h1, h2]; rfl
  exact ⟨run, program, hrun, hprogram, hok, haddresses,
    symbol_addresses (by decide) hrun hprogram hok⟩

/-- **A label behind core is not noticed.** The statement has no cells, so its end is not beyond core,
and nothing else is checked about a label that the counter gives. -/
theorem endLabel_unnoticed : ∃ run program,
    assemble { memorySize := 20000, tables := false } endSource endSource = .ok run ∧
      run.result = .ok program ∧ program.ok = true ∧
      ∃ s ∈ program.symbols.symbols, ¬ s.address.toInt < 20000 := by
  obtain ⟨run, program, hrun, hprogram, h1, h2, haddresses⟩ := endSource_assembles
  refine ⟨run, program, hrun, hprogram, by rw [Program.ok, h1, h2]; rfl, ?_⟩
  obtain ⟨s, hs, haddress⟩ : ∃ s ∈ program.symbols.symbols, (s.name, s.address) = (ascii "B", 20000) :=
    List.mem_map.mp (by rw [SymbolTable.addresses] at haddresses; rw [haddresses]; simp)
  refine ⟨s, hs, ?_⟩
  rw [(Prod.mk.inj haddress).2]
  decide

end SpsAssembler
