import SpsAssembler.Proofs.Bounds
import SpsAssembler.Proofs.Core

/-!
# What statements are encoded as

Flags and fields never change how many cells a value has, so the cells of a statement are those that
were set aside for it, or a few that its kind fixes. A statement that takes a moderate number of
cells is always encoded.

* `Value.length_setFlags`, `length_putAddress`: writing into a value;
* `length_putAddresses`, `length_buildInstruction`: what is written into;
* `Statement.Slices`, **`place_slices`**: what is sliced off is there;
* **`encode_ok`**: every statement of a moderate length is encoded;
* `encode_atMost`: how many cells there may be in any case.
-/

namespace SpsAssembler

/-! ## Writing into a value -/

namespace Value

@[simp] theorem length_setIndexFlags (v : Value) (i reg : Word) :
    (v.setIndexFlags i reg).length = v.length := by
  unfold setIndexFlags
  dsimp only
  split <;> split <;> split <;> simp

@[simp] theorem length_flagListed (digits : Text) (v : Value) :
    (flagListed digits v).length = v.length := by
  fun_induction flagListed digits v with
  | case1 => rfl
  | case2 => exact length_flag _ _
  | case3 _ _ _ _ _ ih => rw [ih, length_flag]
  | case4 _ _ _ _ _ _ ih => rw [ih, length_flag]
  | case5 _ _ _ _ _ _ ih => rw [ih, length_flag]

theorem length_setFlags {v w : Value} {digits : Text} (h : v.setFlags digits = some w) :
    w.length = v.length := by
  unfold setFlags at h
  split at h
  · cases h
    rfl
  · split at h
    · cases h
      exact length_flagListed _ _
    · cases h

end Value

@[simp] theorem length_putAddress (v : Value) (i : Word) (flagFirst : Bool) (address : Word)
    (index : Index) : (putAddress v i flagFirst address index).length = v.length := by
  simp [putAddress]

@[simp] theorem length_putQ (s : Statement) (v : Value) (q : Word) (index : Index) :
    (putQ s v q index).length = v.length := by
  unfold putQ
  split
  · split <;> simp
  · simp
  · simp

/-! ## Constants -/

theorem allocate_of_moderate {n : Word} (h : n.Moderate) : allocate n = .ok n.toNatClampNeg := by
  obtain ⟨hlo, hhi⟩ := h
  have hneg : ¬ n < 0 := by
    rw [Int64.lt_iff_toInt_lt, show (0 : Word).toInt = 0 from rfl]
    omega
  have hlarge : ¬ maxSize < n.toNatClampNeg := by
    rw [Int64.toNatClampNeg, maxSize]
    omega
  simp [allocate, hneg, hlarge]

/-! ## Statements -/

/-- The step comes to an end with at most `n` cells. -/
def Build.Sized (n : Nat) (x : Build Value) : Prop := ∀ a, ∃ v b, x a = .ok v b ∧ v.length ≤ n

namespace Build.Sized

variable {m n : Nat}

theorem pure {v : Value} (h : v.length ≤ n) : Build.Sized n (pure v) := fun a => ⟨v, a, rfl, h⟩

theorem lift {x : Step Value} (h : ∀ a, (x a).1.length ≤ n) : Build.Sized n (liftM x) :=
  fun a => ⟨(x a).1, (x a).2, rfl, h a⟩

theorem mono {x : Build Value} (hx : Build.Sized m x) (h : m ≤ n) : Build.Sized n x := by
  intro a
  obtain ⟨v, b, hv, hlength⟩ := hx a
  exact ⟨v, b, hv, Nat.le_trans hlength h⟩

theorem map {x : Build Value} {g : Value → Value} (hx : Build.Sized n x)
    (hg : ∀ v, (g v).length = v.length) : Build.Sized n (x >>= fun v => Pure.pure (g v)) := by
  intro a
  obtain ⟨v, b, hv, hlength⟩ := hx a
  refine ⟨g v, b, ?_, by rwa [hg]⟩
  rw [Build.bind_ok hv]
  rfl

theorem ite {c : Prop} [Decidable c] {x y : Build Value} (hx : Build.Sized n x)
    (hy : Build.Sized n y) : Build.Sized n (if c then x else y) := by
  split
  · exact hx
  · exact hy

end Build.Sized

theorem constantCells_sized {c : Except Fault Constant} {n : Nat}
    (h : ∃ k, c = .ok k ∧ k.cells.length ≤ n) : Build.Sized n (constantCells c) := by
  obtain ⟨k, rfl, hk⟩ := h
  exact fun a => ⟨k.cells, _, rfl, hk⟩

theorem Word.Moderate.toInt_double_half {n : Word} (h : n.Moderate) :
    (2 * (n / 2)).toInt = 2 * (n.toInt / 2) := by
  obtain ⟨hlo, hhi⟩ := h
  have htwo : (2 : Word).toInt = 2 := rfl
  have hhalf : (n / 2).toInt = n.toInt / 2 := by
    rw [Int64.toInt_div, htwo, Int.tdiv_eq_ediv_of_nonneg hlo]
    exact Int.bmod_eq_of_le (by omega) (by omega)
  rw [Word.toInt_mul_of (by rw [htwo, hhalf]; omega) (by rw [htwo, hhalf]; omega), htwo, hhalf]

theorem Word.Moderate.double_half {n : Word} (h : n.Moderate) :
    (2 * (n / 2)).Moderate ∧ (2 * (n / 2)).toNatClampNeg ≤ n.toNatClampNeg := by
  have hdouble := h.toInt_double_half
  obtain ⟨hlo, hhi⟩ := h
  rw [Word.Moderate, Int64.toNatClampNeg, Int64.toNatClampNeg, hdouble]
  omega

section

variable {s : Statement} {p : Placement} (h : p.length.Moderate)

include h

theorem encodeAlpha_sized : Build.Sized (p.length.toNatClampNeg + 2) (encodeAlpha s p) := by
  obtain ⟨hmoderate, hle⟩ := h.double_half
  obtain ⟨c, hc, hlength⟩ := encodeText_ok (allocate_of_moderate hmoderate) (s.operand 1)
  refine .ite (.map (constantCells_sized ⟨c, hc, by omega⟩) fun v => ?_) (.pure (Nat.zero_le _))
  exact Value.length_flag v 0

theorem encodeConstant_sized : Build.Sized p.length.toNatClampNeg (encodeConstant s p) := by
  obtain ⟨c, hc, hlength⟩ := encodeNumber_ok (allocate_of_moderate h) false (s.operand 1)
  have hcells := constantCells_sized ⟨c, hc, Nat.le_of_eq hlength⟩
  rw [encodeConstant_eq]
  refine .ite (.pure (Nat.zero_le _)) (.map hcells fun v => ?_)
  split
  · rfl
  · exact Value.length_flag v 0

theorem encodeSpecial_sized : Build.Sized p.length.toNatClampNeg (encodeSpecial s p) := by
  obtain ⟨c, hc, hlength⟩ := encodeNumber_ok (allocate_of_moderate h) true (s.operand 1)
  exact .ite (.pure (Nat.zero_le _)) (constantCells_sized ⟨c, hc, Nat.le_of_eq hlength⟩)

theorem encodeBlanks_sized : Build.Sized p.length.toNatClampNeg (encodeBlanks p) := by
  refine .ite ?_ (.pure (Nat.zero_le _))
  rw [allocate_of_moderate h]
  exact fun a => ⟨_, a, rfl, Nat.le_of_eq List.length_replicate⟩

end

theorem length_foldlM {β : Type} {f : Value → β → Step Value}
    (hf : ∀ v x a, (f v x a).1.length = v.length) (xs : List β) (v : Value) (a : Assembly) :
    (xs.foldlM f v a).1.length = v.length := by
  induction xs generalizing v a with
  | nil => rfl
  | cons x xs ih =>
    rw [List.foldlM_cons, Step.bind_apply, ih, hf]

theorem length_putAddresses (s : Statement) (p : Placement) (cells : Value) (a : Assembly) :
    (putAddresses s p cells a).1.length = cells.length := by
  unfold putAddresses
  rw [Step.bind_apply, length_foldlM]
  intro v x b
  exact length_putAddress ..

theorem encodeAddresses_ok {s : Statement} {p : Placement} {k : Nat} (h : allocate p.length = .ok k)
    (a : Assembly) : encodeAddresses s p a = .ok (putAddresses s p (List.replicate k 0) a).1
      (putAddresses s p (List.replicate k 0) a).2 := by
  unfold encodeAddresses
  rw [h]
  rfl

theorem encodeAddresses_sized {s : Statement} {p : Placement} (h : p.length.Moderate) :
    Build.Sized p.length.toNatClampNeg (encodeAddresses s p) := by
  refine fun a => ⟨_, _, encodeAddresses_ok (allocate_of_moderate h) a, Nat.le_of_eq ?_⟩
  rw [length_putAddresses, List.length_replicate]

theorem length_encodeFieldsFrom (s : Statement) (widths : List (Word × Nat)) (stop : Word)
    (v : Value) (a : Assembly) : (encodeFieldsFrom s widths stop v a).1.length = v.length := by
  induction widths generalizing stop v a with
  | nil => rfl
  | cons first rest ih =>
    obtain ⟨width, j⟩ := first
    rw [encodeFieldsFrom, Step.bind_apply, ih, Value.length_setField]

theorem encodeFields_sized {s : Statement} {p : Placement} (h : p.length.Moderate) :
    Build.Sized p.length.toNatClampNeg (encodeFields s p) := by
  refine .ite (.pure (Nat.zero_le _)) ?_
  rw [allocate_of_moderate h]
  refine fun a => ⟨_, _, rfl, Nat.le_of_eq ?_⟩
  rw [length_encodeFieldsFrom, List.length_replicate]

theorem length_encodeDisk (s : Statement) (a : Assembly) : (encodeDisk s a).1.length = 14 := by
  unfold encodeDisk
  simp only [Step.bind_apply, Step.pure_apply, Value.length_setField, List.length_replicate]
  rfl

/-- **An instruction is built in twelve cells.** -/
theorem length_buildInstruction (s : Statement) (p : Placement) (a : Assembly) :
    (buildInstruction s p a).1.length = 12 := by
  unfold buildInstruction
  simp only [Step.bind_apply]
  generalize hv : putQ s _ _ _ = v
  have hlength : v.length = 12 := by
    rw [← hv, length_putQ, length_putAddress, Memory.length_bareInstruction]
  cases hflags : v.setFlags (flagsOperand s) with
  | some w =>
    dsimp only
    rw [Step.pure_apply, Value.length_setFlags hflags, hlength]
  | none =>
    dsimp only
    rw [Step.bind_apply, Step.pure_apply, hlength]

/-! ## Slices -/

/-- What is sliced off a table or an instruction is not longer than it. -/
structure Statement.Slices (s : Statement) (p : Placement) : Prop where
  octal : s.kind = .dot → p.length.toInt ≤ (octalTable maxOctalPower).length
  instruction : s.kind = .instruction → p.length.toInt ≤ 12

/-- **What is sliced off is there**, however a statement is placed. -/
theorem place_slices (s : Statement) (a : Assembly) : s.Slices (place s a).1 where
  octal hkind := by
    have hplace : place s = octalLength (s.operand 0) >>= fun n => placeRight n (s.operand 1) := by
      unfold place
      rw [hkind]
    have hall : ∀ n ∈ List.range (maxOctalPower + 1),
        (Word.ofLength (octalTable n)).toInt ≤ (octalTable maxOctalPower).length := by decide +kernel
    obtain ⟨power, hpower, hlength⟩ := octalLength_mem (s.operand 0) a
    rw [hplace, Step.bind_apply, placeRight, placeAt_length, hlength]
    exact hall power (List.mem_range.mpr (Nat.lt_succ_of_le hpower))
  instruction hkind := by
    have hplace : place s = placeInstruction s := by
      unfold place
      rw [hkind]
    rw [hplace]
    change s.descriptor.shape.instructionLength.toInt ≤ 12
    cases s.descriptor.shape <;> decide

section Slices

variable {s : Statement} {p : Placement} (h : p.length.Moderate) (hs : s.Slices p)

include h hs

theorem encodeOctal_sized (hkind : s.kind = .dot) :
    Build.Sized p.length.toNatClampNeg (encodeOctal p) := by
  have hle := hs.octal hkind
  obtain ⟨hlo, -⟩ := h
  unfold encodeOctal
  generalize octalTable maxOctalPower = table at hle
  have hslice : slice table.toArray (table.toArray.size - p.length.toInt) table.toArray.size =
      .ok (table.drop (table.length - p.length.toNatClampNeg)).toArray := by
    rw [show (table.toArray.size : Int) - p.length.toInt =
      (table.length - p.length.toNatClampNeg : Nat) by
        rw [List.size_toArray, Int64.toNatClampNeg]; omega]
    exact slice_back (by omega)
  dsimp only
  rw [hslice]
  refine fun a => ⟨_, a, rfl, ?_⟩
  rw [List.length_drop]
  omega

theorem encodeInstruction_ok (hkind : s.kind = .instruction) (a : Assembly) :
    encodeInstruction s p a = .ok ((buildInstruction s p a).1.take p.length.toNatClampNeg)
      (buildInstruction s p a).2 := by
  have hle := hs.instruction hkind
  obtain ⟨hlo, -⟩ := h
  have hslice : slice (buildInstruction s p a).1.toArray 0 p.length.toInt =
      .ok ((buildInstruction s p a).1.take p.length.toNatClampNeg).toArray := by
    have hlength := length_buildInstruction s p a
    rw [Word.toInt_eq_clamp hlo]
    exact slice_front (by rw [hlength, Int64.toNatClampNeg]; omega)
  unfold encodeInstruction
  rw [Build.lift_bind, hslice]
  rfl

theorem encodeInstruction_sized (hkind : s.kind = .instruction) :
    Build.Sized p.length.toNatClampNeg (encodeInstruction s p) := fun a =>
  ⟨_, _, encodeInstruction_ok h hs hkind a, by rw [List.length_take]; omega⟩

/-- **Every statement of a moderate length is encoded**, in hardly more cells than that. -/
theorem encode_ok : Build.Sized (p.length.toNatClampNeg + 14) (encode s p) := by
  unfold encode
  cases hkind : s.kind
  case dac => exact (encodeAlpha_sized h).mono (by omega)
  case dsac => exact (encodeAlpha_sized h).mono (by omega)
  case dc => exact (encodeConstant_sized h).mono (by omega)
  case dsc => exact (encodeSpecial_sized h).mono (by omega)
  case dnb => exact (encodeBlanks_sized h).mono (by omega)
  case dgm => exact .pure (by simp)
  case dot => exact (encodeOctal_sized h hs hkind).mono (by omega)
  case dsa => exact (encodeAddresses_sized h).mono (by omega)
  case dda => exact .lift fun a => by rw [length_encodeDisk]; omega
  case dvlc => exact (encodeFields_sized h).mono (by omega)
  case instruction => exact (encodeInstruction_sized h hs hkind).mono (by omega)
  all_goals exact .pure (Nat.zero_le _)

end Slices

/-! ## Values of any length -/

/-- If the step comes to an end, it gives at most `n` cells. -/
def Build.AtMost (n : Nat) (x : Build Value) : Prop := ∀ a v b, x a = .ok v b → v.length ≤ n

namespace Build.AtMost

variable {n : Nat}

theorem of_sized {x : Build Value} (h : Build.Sized n x) : Build.AtMost n x := by
  intro a v b hv
  obtain ⟨w, c, hw, hlength⟩ := h a
  rw [hw] at hv
  cases hv
  exact hlength

theorem map {x : Build Value} {g : Value → Value} (hx : Build.AtMost n x)
    (hg : ∀ v, (g v).length = v.length) : Build.AtMost n (x >>= fun v => Pure.pure (g v)) := by
  intro a v b hv
  obtain ⟨w, c, hw, hpure⟩ := Build.ok_of_bind_ok hv
  cases hpure
  rw [hg]
  exact hx a w _ hw

theorem ite {c : Prop} [Decidable c] {x y : Build Value} (hx : Build.AtMost n x)
    (hy : Build.AtMost n y) : Build.AtMost n (if c then x else y) := by
  split
  · exact hx
  · exact hy

end Build.AtMost

/-- No statement has many more cells than a store. -/
def maxCells : Nat := maxSize + 200

theorem constantCells_atMost {c : Except Fault Constant} {n : Word}
    (hok : ∀ k, allocate n = .ok k → ∃ d, c = .ok d ∧ d.cells.length ≤ k + 2)
    (herror : ∀ f, allocate n = .error f → c = .error f) :
    Build.AtMost maxCells (constantCells c) := by
  cases hn : allocate n with
  | error f =>
    intro a v b hv
    rw [herror f hn] at hv
    cases hv
  | ok k =>
    obtain ⟨d, hd, hlength⟩ := hok k hn
    have hle := (allocate_cases hn).2
    exact .of_sized (constantCells_sized ⟨d, hd, by rw [maxCells]; omega⟩)

theorem encodeNumber_atMost (n : Word) (extended : Bool) (text : Text) :
    Build.AtMost maxCells (constantCells (encodeNumber n extended text)) := by
  refine constantCells_atMost (n := n) (fun k hk => ?_) fun f hf => by
    rw [encodeNumber_eq, hf]
  obtain ⟨d, hd, hlength⟩ := encodeNumber_ok hk extended text
  exact ⟨d, hd, by omega⟩

theorem encodeText_atMost (n : Word) (text : Text) :
    Build.AtMost maxCells (constantCells (encodeText n text)) := by
  refine constantCells_atMost (n := 2 * n) (fun k hk => ?_) fun f hf => by
    rw [encodeText_eq, hf]
  obtain ⟨d, hd, -, hlength⟩ := encodeText_ok hk text
  exact ⟨d, hd, hlength⟩

theorem encodeFields_atMost (s : Statement) (p : Placement) :
    Build.AtMost maxCells (encodeFields s p) := by
  refine .ite (.of_sized (.pure (Nat.zero_le _))) ?_
  cases hn : allocate p.length with
  | error f => intro a v b hv; cases hv
  | ok k =>
    have hle := (allocate_cases hn).2
    refine .of_sized fun a => ⟨_, _, rfl, ?_⟩
    rw [length_encodeFieldsFrom, List.length_replicate, maxCells]
    omega

theorem encodeBlanks_atMost (p : Placement) : Build.AtMost maxCells (encodeBlanks p) := by
  refine .ite ?_ (.of_sized (.pure (Nat.zero_le _)))
  cases hn : allocate p.length with
  | error f => intro a v b hv; cases hv
  | ok k =>
    have hle := (allocate_cases hn).2
    refine .of_sized fun a => ⟨_, a, rfl, ?_⟩
    rw [List.length_replicate, maxCells]
    omega

theorem encodeAddresses_atMost (s : Statement) (p : Placement) :
    Build.AtMost maxCells (encodeAddresses s p) := by
  cases hn : allocate p.length with
  | error f =>
    intro a v b hv
    rw [encodeAddresses, hn] at hv
    cases hv
  | ok k =>
    have hle := (allocate_cases hn).2
    refine .of_sized fun a => ⟨_, _, encodeAddresses_ok hn a, ?_⟩
    rw [length_putAddresses, List.length_replicate, maxCells]
    omega

theorem length_octalTable : (octalTable maxOctalPower).length ≤ 200 := by decide +kernel

/-- **A statement that is encoded** has a bounded number of cells. -/
theorem encode_atMost (s : Statement) (p : Placement) : Build.AtMost maxCells (encode s p) := by
  have hflag : ∀ v : Value, (v.flag 0).length = v.length := fun v => Value.length_flag v 0
  have hnil : Build.AtMost maxCells (pure []) := .of_sized (.pure (Nat.zero_le _))
  have halpha : Build.AtMost maxCells (encodeAlpha s p) :=
    .ite (.map (encodeText_atMost _ _) hflag) hnil
  unfold encode
  cases hkind : s.kind <;> dsimp only
  case dac => exact halpha
  case dsac => exact halpha
  case dc =>
    rw [encodeConstant_eq]
    refine .ite hnil (.map (encodeNumber_atMost _ _ _) fun v => ?_)
    split
    · rfl
    · exact hflag v
  case dsc => exact .ite hnil (encodeNumber_atMost _ _ _)
  case dnb => exact encodeBlanks_atMost p
  case dgm => exact .of_sized (.pure (by decide))
  case dot =>
    intro a v b hv
    have htable := length_octalTable
    rw [(encodeOctal_cases hv).1, List.length_drop, maxCells]
    omega
  case dsa => exact encodeAddresses_atMost s p
  case dda => exact .of_sized (.lift fun a => by rw [length_encodeDisk]; decide)
  case dvlc => exact encodeFields_atMost s p
  case instruction =>
    intro a v b hv
    rw [(encodeInstruction_cases hv).1, List.length_take, length_buildInstruction, maxCells]
    omega
  all_goals exact hnil

end SpsAssembler
