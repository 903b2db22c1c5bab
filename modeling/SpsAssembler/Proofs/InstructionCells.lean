import SpsAssembler.Proofs.FlagLists
import SpsAssembler.Proofs.StoredNumbers

/-!
# The cells of instructions

An instruction has two digits for its code and five for each operand. Signs, index registers,
immediate operands and the flags operand all flag some of them; what one of them sets, the next one
leaves as it is. Signs, index registers and immediate operands never share a cell, so that an
instruction without flags of its own can be read back.

* `instructionDigits`, `instructionFlags`: the digits and the flagged positions;
* **`Value.setField_eq`**, `Value.setIndexFlags_eq`, `Value.setFlags_eq`: what is written is marked;
* `instructionCells`, **`instructionCells_eq`**: all twelve cells;
* `encodeP_register`, `encodeQ_register`: the index registers;
* `Value.field_mark_mod`, `Value.field_mark`: reading a marked field back;
* `decodeInstruction`, **`decode_instructionCells`**: reading an instruction back;
* `instructionCells_exact`, `encode_instruction`: the digits and flags of what is encoded;
* **`instruction_exact`**: from the line to the cells.
-/

namespace SpsAssembler

/-! ## Digits and flags -/

open Value (digitsOf magnitude)

/-- The digits of an instruction, none of them flagged. -/
def instructionDigits (code p q : Word) : Value :=
  digitsOf 2 code ++ digitsOf 5 (magnitude p) ++ digitsOf 5 (magnitude q)

/-- A negative number in the field that ends at `i`. -/
def signFlags (i : Nat) (n : Word) : List Nat := if n < 0 then [i] else []

/-- An index register over the three digits before `i`, four, two and one. -/
def indexFlags (i : Nat) (register : Word) : List Nat :=
  (if register &&& 4 != 0 then [i - 3] else []) ++ (if register &&& 2 != 0 then [i - 2] else []) ++
    if register &&& 1 != 0 then [i - 1] else []

/-- The positions that a flags operand marks in twelve cells. -/
def listedFlags (digits : Text) : List Nat :=
  match Value.setFlags (List.replicate 12 0) digits with
  | some v => (List.range 12).filter fun i => (v.getD i 0).isFlagged
  | none => []

/-- Whether the Q operand is flagged as immediate. Where it has no index, a flags operand says so
itself. -/
def Statement.isImmediate (s : Statement) : Bool :=
  match s.descriptor.q with
  | .immediate => (s.operand 2).isBlank
  | .immediateIndex => true
  | _ => false

/-- The positions that are flagged in an instruction. -/
def instructionFlags (s : Statement) (p q : Word × Index) : List Nat :=
  signFlags 6 p.1 ++ indexFlags 6 p.2.register ++ (if s.isImmediate then [7] else []) ++
    signFlags 11 q.1 ++ indexFlags 11 q.2.register ++ listedFlags (flagsOperand s)

theorem mem_indexFlags {i j : Nat} {register : Word} : i ∈ indexFlags j register ↔
    (i = j - 3 ∧ register &&& 4 ≠ 0) ∨ (i = j - 2 ∧ register &&& 2 ≠ 0) ∨
      (i = j - 1 ∧ register &&& 1 ≠ 0) := by
  simp only [indexFlags, List.mem_append, List.mem_ite_nil_right, List.mem_singleton, bne_iff_ne,
    or_assoc, and_comm]

theorem mem_instructionFlags {s : Statement} {p q : Word × Index} {i : Nat} :
    i ∈ instructionFlags s p q ↔
      (i = 6 ∧ p.1 < 0) ∨ (i = 11 ∧ q.1 < 0) ∨ i ∈ indexFlags 6 p.2.register ∨
        i ∈ indexFlags 11 q.2.register ∨ (i = 7 ∧ s.isImmediate = true) ∨
        i ∈ listedFlags (flagsOperand s) := by
  simp only [instructionFlags, signFlags, List.mem_append, List.mem_ite_nil_right,
    List.mem_singleton]
  tauto

/-! ## Marks -/

namespace Value

variable {ps qs : List Nat} {v w : Value}

@[simp] theorem digits_mark (ps : List Nat) (v : Value) : (v.mark ps).digits = v.digits := by
  refine List.ext_getElem? fun i => ?_
  simp only [digits, List.getElem?_map, getElem?_mark, Option.map_map]
  congr 1
  funext c
  simp only [Function.comp_apply]
  split
  · rw [digit_flagged]
  · rfl

theorem take_mark (n : Nat) (ps : List Nat) (v : Value) :
    (v.mark ps).take n = mark ps (v.take n) := by
  refine List.ext_getElem? fun i => ?_
  rw [List.getElem?_take, getElem?_mark, getElem?_mark, List.getElem?_take]
  split <;> rfl

theorem mark_append (h : ∀ p ∈ ps, p < v.length) (w : Value) :
    v.mark ps ++ w = mark ps (v ++ w) := by
  refine List.ext_getElem? fun i => ?_
  rw [getElem?_mark]
  by_cases hi : i < v.length
  · rw [List.getElem?_append_left (by rwa [length_mark]), List.getElem?_append_left hi,
      getElem?_mark]
  · have hmem : i ∉ ps := fun hmem => hi (h i hmem)
    rw [List.getElem?_append_right (by rw [length_mark]; omega), length_mark,
      List.getElem?_append_right (by omega)]
    simp [hmem]

theorem flag_cond (c : Prop) [Decidable c] {i : Nat} (hi : i < 2 ^ 63) (v : Value) :
    (if c then v.flag (Int64.ofNat i) else v) = v.mark (if c then [i] else []) := by
  split
  · exact flag_ofNat hi v
  · exact (mark_nil v).symm

/-- **A number in a field** replaces the digits of the field with its own, and flags its sign and
perhaps its first digit. -/
theorem setField_eq {i width : Nat} (flagFirst : Bool) (n : Word) (hi : i < v.length)
    (hpos : 0 < width) (hwidth : width ≤ i + 1) (hv : v.length < 2 ^ 63) :
    v.setField (Int64.ofNat i) (Int64.ofNat width) flagFirst n =
      mark (signFlags i n ++ if flagFirst then [i + 1 - width] else [])
        (v.take (i + 1 - width) ++ digitsOf width (magnitude n) ++ v.drop (i + 1)) := by
  have hsome : Int64.ofNat width ≠ 0 := fun hzero => by
    have hclamp := Word.clamp_ofNat (n := width) (by omega)
    rw [hzero, show (0 : Word).toNatClampNeg = 0 from rfl] at hclamp
    omega
  have hfirst : Int64.ofNat i - Int64.ofNat width + 1 = Int64.ofNat (i + 1 - width) := by
    rw [Int64.ofNat_sub _ _ hwidth, Int64.ofNat_add, show Int64.ofNat 1 = 1 from rfl]
    grind
  unfold setField
  rw [if_neg hsome, Word.clamp_ofNat (by omega), putDigits_eq _ hi hwidth hv]
  dsimp only
  rw [hfirst, flag_cond _ (by omega), flag_cond _ (by omega), mark_mark]
  rfl

theorem setIndexFlags_eq {i : Nat} (hlo : 3 ≤ i) (hhi : i < 2 ^ 63) (register : Word) (v : Value) :
    v.setIndexFlags (Int64.ofNat i) register = v.mark (indexFlags i register) := by
  have hthree : Int64.ofNat i - 3 = Int64.ofNat (i - 3) := (Int64.ofNat_sub i 3 hlo).symm
  have htwo : Int64.ofNat i - 2 = Int64.ofNat (i - 2) := (Int64.ofNat_sub i 2 (by omega)).symm
  have hone : Int64.ofNat i - 1 = Int64.ofNat (i - 1) := (Int64.ofNat_sub i 1 (by omega)).symm
  unfold setIndexFlags
  dsimp only
  rw [hthree, htwo, hone, flag_cond _ (by omega), flag_cond _ (by omega), flag_cond _ (by omega),
    mark_mark, mark_mark, indexFlags, List.append_assoc]

/-- The flags operand marks the same positions in every value of twelve cells, and none if it is
blank or no list. -/
theorem setFlags_eq (hv : v.length = 12) (digits : Text) :
    (v.setFlags digits).getD v = v.mark (listedFlags digits) := by
  have hmark : ∀ ps, v.mark ps = v.mark ((List.range 12).filter fun i =>
      ((mark ps (List.replicate 12 0)).getD i 0).isFlagged) := by
    intro ps
    refine List.ext_getElem? fun i => ?_
    rw [getElem?_mark, getElem?_mark]
    by_cases hi : i < 12
    · have hiff : i ∈ (List.range 12).filter (fun i =>
          ((mark ps (List.replicate 12 0)).getD i 0).isFlagged) ↔ i ∈ ps := by
        rw [List.mem_filter, List.getD_eq_getElem?_getD, getElem?_mark,
          List.getElem?_replicate_of_lt hi]
        have hzero : Cell.isFlagged 0 = false := rfl
        have hflag : (Cell.flagged 0).isFlagged = true := rfl
        by_cases hmem : i ∈ ps <;> simp [hmem, hi, hzero, hflag]
      simp only [hiff]
    · rw [List.getElem?_eq_none (by omega)]
      rfl
  unfold setFlags listedFlags setFlags
  split
  · rw [Option.getD_some]
    conv_lhs => rw [← mark_nil v, hmark, mark_nil]
  · split
    · rw [Option.getD_some, flagListed_eq, hmark]
      simp only [flagListed_eq]
    · exact (mark_nil v).symm

end Value

theorem putAddress_eq {v : Value} {i : Nat} (hi : i < v.length) (hlo : 4 ≤ i)
    (hv : v.length < 2 ^ 63) (flagFirst : Bool) (n : Word) (index : Index) :
    putAddress v (Int64.ofNat i) flagFirst n index =
      Value.mark (signFlags i n ++ (if flagFirst then [i - 4] else []) ++
        indexFlags i index.register) (v.take (i - 4) ++ digitsOf 5 (magnitude n) ++ v.drop (i + 1)) := by
  have hfield := Value.setField_eq flagFirst n hi (by decide : 0 < 5) (by omega) hv
  rw [putAddress, show (5 : Word) = Int64.ofNat 5 from rfl, hfield,
    Value.setIndexFlags_eq (by omega) (by omega), Value.mark_mark]
  rfl

/-! ## Instructions -/

/-- All cells of an instruction, whether they are kept or not. -/
def instructionCells (s : Statement) (p q : Word × Index) : Value :=
  let v := putAddress (bareInstruction (Int64.ofNat s.descriptor.opcode)) Field.p false p.1 p.2
  let v := putQ s v q.1 q.2
  (v.setFlags (flagsOperand s)).getD v

theorem bareInstruction_eq {code : Nat} (hcode : code < 2 ^ 63) :
    bareInstruction (Int64.ofNat code) = digitsOf 2 (Int64.ofNat code) ++ List.replicate 10 0 := by
  have hpositive : ¬ Int64.ofNat code < 0 := Word.not_ofNat_neg hcode
  have hfield : Value.setField (List.replicate 12 0) (Int64.ofNat 1) (Int64.ofNat 2) false
      (Int64.ofNat code) = _ :=
    Value.setField_eq false _ (by simp) (by decide) (by decide) (by simp)
  rw [bareInstruction, show Field.op = Int64.ofNat 1 from rfl,
    show (2 : Word) = Int64.ofNat 2 from rfl, hfield, signFlags, if_neg hpositive, magnitude,
    if_neg hpositive]
  simp

section Instruction

variable {s : Statement} {p q : Word × Index} {v : Value}

theorem putQ_eq (hv : v.length = 12)
    (hplain : s.descriptor.q = .immediate → q.2.register = 0) :
    putQ s v q.1 q.2 = Value.mark ((if s.isImmediate then [7] else []) ++ signFlags 11 q.1 ++
      indexFlags 11 q.2.register) (v.take 7 ++ digitsOf 5 (magnitude q.1)) := by
  have haddress : ∀ first, putAddress v Field.q first q.1 q.2 =
      Value.mark ((if first then [7] else []) ++ signFlags 11 q.1 ++ indexFlags 11 q.2.register)
        (v.take 7 ++ digitsOf 5 (magnitude q.1)) := by
    intro first
    rw [show Field.q = Int64.ofNat 11 from rfl, putAddress_eq (by omega) (by decide) (by omega)]
    rw [List.drop_of_length_le (by omega), List.append_nil]
    refine Value.mark_congr (fun i => ?_) _
    simp only [List.mem_append]
    tauto
  unfold putQ Statement.isImmediate
  cases hq : s.descriptor.q with
  | immediate =>
    dsimp only
    split
    · have hnone : putAddress v Field.q true q.1 q.2 = v.setField Field.q 5 true q.1 := by
        rw [putAddress, hplain hq]
        rfl
      rw [← hnone]
      exact haddress true
    · exact haddress false
  | immediateIndex => exact haddress true
  | _ => exact haddress false

/-- **All cells of an instruction** are its digits, with its flags on them. -/
theorem instructionCells_eq (hcode : s.descriptor.opcode < 2 ^ 63)
    (hplain : s.descriptor.q = .immediate → q.2.register = 0) :
    instructionCells s p q = Value.mark (instructionFlags s p q)
      (instructionDigits (Int64.ofNat s.descriptor.opcode) p.1 q.1) := by
  have hfirst : ∀ i ∈ signFlags 6 p.1 ++ indexFlags 6 p.2.register, i < 7 := by
    unfold signFlags indexFlags
    split <;> split <;> split <;> split <;> decide
  unfold instructionCells
  dsimp only
  generalize hcells : putAddress (bareInstruction (Int64.ofNat s.descriptor.opcode)) Field.p false
    p.1 p.2 = v
  have hv : v.length = 12 := by
    rw [← hcells, length_putAddress, Memory.length_bareInstruction]
  -- What is marked before the Q operand is written stands in front of it.
  have hleft : v.take 7 = Value.mark (signFlags 6 p.1 ++ indexFlags 6 p.2.register)
      (digitsOf 2 (Int64.ofNat s.descriptor.opcode) ++ digitsOf 5 (magnitude p.1)) := by
    rw [← hcells, bareInstruction_eq hcode, show Field.p = Int64.ofNat 6 from rfl,
      putAddress_eq (by simp) (by decide) (by simp), Value.take_mark,
      List.take_left' (Value.length_digitsOf 2 _), List.take_left' (by simp), if_neg (by decide),
      List.append_nil]
  rw [Value.setFlags_eq (by rw [length_putQ, hv]), putQ_eq hv hplain, hleft,
    Value.mark_append (by simpa using hfirst), Value.mark_mark, Value.mark_mark]
  simp only [instructionFlags, instructionDigits, List.append_assoc]

theorem buildInstruction_value (s : Statement) (pl : Placement) (a : Assembly) :
    (buildInstruction s pl a).1 = instructionCells s (encodeP s pl.star a).1
      (encodeQ s pl.star (encodeP s pl.star a).2).1 := by
  unfold buildInstruction instructionCells
  simp only [Step.bind_apply]
  generalize putQ s _ _ _ = v
  cases hflags : v.setFlags (flagsOperand s) with
  | some w => rfl
  | none => rfl

end Instruction

/-! ## Index registers -/

/-- The numbers of index registers; 0 is none. -/
def registers : List Word := [0, 1, 2, 3, 4, 5, 6, 7]

theorem mem_registers_of_registerOf? {b : Byte} {n : Word} (h : registerOf? b = some n) :
    n ∈ registers := by
  have hall : ∀ b : Byte, (registerOf? b).all registers.contains = true :=
    forall_cell (by decide +kernel)
  have hmem := hall b
  rw [h] at hmem
  exact List.contains_iff_mem.mp hmem

theorem Index.register_of_read? {t : Text} {i : Index} (h : Index.read? t = some i) :
    i.register ∈ registers := by
  unfold Index.read? at h
  split at h
  · split at h
    · obtain ⟨n, hn, rfl⟩ := Option.map_eq_some_iff.mp h
      exact mem_registers_of_registerOf? hn
    · cases h
  · split at h
    · obtain ⟨n, hn, rfl⟩ := Option.map_eq_some_iff.mp h
      exact mem_registers_of_registerOf? hn
    · cases h
  · cases h

theorem readIndex_register (t : Text) : (readIndex t).1.register ∈ registers := by
  unfold readIndex
  have hnone : (0 : Word) ∈ registers := by decide
  split
  · exact hnone
  · cases hindex : Index.read? t with
    | some i => exact Index.register_of_read? hindex
    | none => exact hnone

theorem evaluateIn_index (scope : Scope) (usage : Usage) (table : SymbolTable) (operand : Text) :
    (evaluateIn scope usage table operand).index = {} ∨ (usage.indexed = true ∧
      (evaluateIn scope usage table operand).index =
        (readIndex (Expression.read table.divide operand).index).1) := by
  rw [evaluateIn_eq]
  split
  · exact .inl rfl
  · dsimp only
    split
    · exact .inl rfl
    · split
      · exact .inl rfl
      · split
        · exact .inl rfl
        · split
          · exact .inl rfl
          · cases usage.indexed with
            | true => exact .inr ⟨rfl, rfl⟩
            | false => exact .inl rfl

theorem evaluate_plain {usage : Usage} (h : usage.indexed = false) (operand : Text) (a : Assembly) :
    (evaluate operand usage a).1.2 = {} := by
  rcases evaluateIn_index a.scope usage a.symbols operand with hnone | ⟨hindexed, -⟩
  · exact hnone
  · rw [h] at hindexed
    cases hindexed

/-- The step always gives the number of an index register. -/
def Step.NamesRegister (x : Step (Word × Index)) : Prop := ∀ a, (x a).1.2.register ∈ registers

namespace Step.NamesRegister

variable {α : Type} {x y : Step (Word × Index)}

theorem pure (n : Word) : Step.NamesRegister (pure (n, {})) := fun _ =>
  show (0 : Word) ∈ registers by decide

theorem bind {x : Step α} {f : α → Step (Word × Index)} (h : ∀ v, (f v).NamesRegister) :
    Step.NamesRegister (x >>= f) := fun a => h (x a).1 (x a).2

theorem ite {c : Prop} [Decidable c] (hx : x.NamesRegister) (hy : y.NamesRegister) :
    Step.NamesRegister (if c then x else y) := by
  split
  · exact hx
  · exact hy

end Step.NamesRegister

theorem evaluate_register (operand : Text) (usage : Usage) :
    (evaluate operand usage).NamesRegister := fun a => by
  change (evaluateIn a.scope usage a.symbols operand).index.register ∈ registers
  rcases evaluateIn_index a.scope usage a.symbols operand with hnone | ⟨-, hindex⟩
  · rw [hnone]
    decide
  · rw [hindex]
    exact readIndex_register _

theorem selectCode_register (codes : List Word) (outOfRange : Nat → Word → Cause) (operand : Text)
    (star : Word) : (selectCode codes outOfRange operand star).NamesRegister :=
  .bind fun _ => .ite (.bind fun _ => .pure _) (.bind fun _ => .pure _)

theorem bitAddress_register (s : Statement) (star : Word) : (bitAddress s star).NamesRegister :=
  .bind fun _ => .bind fun _ =>
    .ite (.bind fun _ => .pure _) (.ite (.pure _) (.pure _))

theorem encodeP_register (s : Statement) (star : Word) : (encodeP s star).NamesRegister := by
  refine .bind fun a => ?_
  cases s.descriptor.p with
  | none => exact .bind fun _ => .pure _
  | _ => exact evaluate_register _ _

theorem encodeQ_register (s : Statement) (star : Word) : (encodeQ s star).NamesRegister := by
  refine .bind fun a => ?_
  cases s.descriptor.q with
  | none => exact .bind fun _ => .pure _
  | referenceBit => exact bitAddress_register _ _
  | skip => exact selectCode_register _ _ _ _
  | skipAfter => exact selectCode_register _ _ _ _
  | space => exact selectCode_register _ _ _ _
  | spaceAfter => exact selectCode_register _ _ _ _
  | literal => exact .ite (.pure _) (.bind fun _ => evaluate_register _ _)
  | _ => exact evaluate_register _ _

theorem encodeQ_plain {s : Statement} (h : s.descriptor.q = .immediate) (star : Word)
    (a : Assembly) : (encodeQ s star a).1.2.register = 0 := by
  unfold encodeQ
  rw [Step.bind_apply, h]
  exact congrArg Index.register (evaluate_plain rfl _ _)

/-! ## Reading an instruction back -/

/-- What can be read off the cells of an instruction. -/
structure DecodedInstruction where
  code : Word
  p : Word
  pRegister : Word
  q : Word
  qRegister : Word
  deriving DecidableEq, Repr

/-- Whether there is a flagged cell at `i`. -/
def Value.isFlaggedAt (v : Value) (i : Nat) : Bool := v[i]?.elim false Cell.isFlagged

/-- The index register that the flags before position `i` spell. -/
def Value.registerAt (v : Value) (i : Nat) : Word :=
  (if v.isFlaggedAt (i - 3) then 4 else 0) + (if v.isFlaggedAt (i - 2) then 2 else 0) +
    if v.isFlaggedAt (i - 1) then 1 else 0

/-- Reads an instruction of twelve cells. -/
def decodeInstruction (v : Value) : Except Fault DecodedInstruction := do
  let code ← v.field Field.op 2
  let p ← v.field Field.p 5
  let q ← v.field Field.q 5
  pure ⟨code, p, v.registerAt 6, q, v.registerAt 11⟩

theorem decodeInstruction_of_fields {v : Value} {code p q : Word}
    (hcode : v.field Field.op 2 = .ok code) (hp : v.field Field.p 5 = .ok p)
    (hq : v.field Field.q 5 = .ok q) :
    decodeInstruction v = .ok ⟨code, p, v.registerAt 6, q, v.registerAt 11⟩ := by
  rw [decodeInstruction, hcode, hp, hq]
  rfl

theorem Cell.digit_spec : ∀ c : Cell, c ≤ 9 → c.isNumeral = true ∧ c.flagged.isNumeral = true ∧
    c.isFlagged = false ∧ c.flagged.isFlagged = true :=
  forall_cell (by decide +kernel)

namespace Value

variable {ps : List Nat} {v : Value}

theorem digitsOf_le (width : Nat) {n : Word} (hn : 0 ≤ n.toInt) :
    ∀ c ∈ digitsOf width n, c ≤ 9 := by
  induction width generalizing n with
  | zero => exact fun _ hc => absurd hc List.not_mem_nil
  | succ width ih =>
    have hdiv := Word.toInt_div_ten hn
    have hmod := Word.toInt_mod_ten hn
    have hall : ([0, 1, 2, 3, 4, 5, 6, 7, 8, 9] : List Word).all
        (fun d => d.lowByte ≤ 9) = true := by decide
    have hlast : (n % 10).lowByte ≤ 9 := by
      simpa using List.all_eq_true.mp hall _ (Word.eq_digit (a := n % 10) (by omega) (by omega))
    exact List.forall_mem_append.mpr ⟨ih (by omega), by simpa using hlast⟩

theorem isFlaggedAt_mark (hv : ∀ c ∈ v, c ≤ 9) {i : Nat} (hi : i < v.length) :
    (v.mark ps).isFlaggedAt i = true ↔ i ∈ ps := by
  obtain ⟨-, -, hplain, hflagged⟩ := Cell.digit_spec v[i] (hv _ (List.getElem_mem hi))
  rw [isFlaggedAt, getElem?_mark, List.getElem?_eq_getElem hi]
  by_cases hmem : i ∈ ps <;> simp [hmem, hplain, hflagged]

theorem isNumeric_mark (hv : ∀ c ∈ v, c ≤ 9) : (v.mark ps).IsNumeric := by
  intro c hc
  obtain ⟨i, hi, rfl⟩ := List.mem_mapIdx.mp hc
  obtain ⟨hplain, hflagged, -, -⟩ := Cell.digit_spec v[i] (hv _ (List.getElem_mem hi))
  split
  · exact hflagged
  · exact hplain

theorem number_congr {w : Value} (h : v.digits = w.digits) : number v = number w := by
  have hnumber : ∀ u : Value, number u = u.digits.foldl (fun n d => n * 10 + Int64.ofNat d) 0 :=
    fun u => by rw [number, digits, List.foldl_map]
  rw [hnumber, hnumber, h]

/-- **A field of marked digits** spells what is left of the number in its last digits, if its last
digit is marked for the sign. -/
theorem field_mark_mod {pre post : Value} {width i : Nat} {n : Word}
    (hcells : v = pre ++ digitsOf width (magnitude n) ++ post) (hlength : v.length < 2 ^ 63)
    (hi : i + 1 = pre.length + width) (hpos : 0 < width) (hleast : n ≠ Int64.minValue)
    (hsign : i ∈ ps ↔ n < 0) :
    ∃ r, (v.mark ps).field (Int64.ofNat i) (Int64.ofNat width) = .ok r ∧
      r.toInt = n.toInt.sign * ↑(n.toInt.natAbs % 10 ^ width) := by
  have hmagnitude := toInt_magnitude hleast
  -- The last cell of the field is a digit, so that its flag is the mark.
  obtain ⟨c, hc, hle⟩ : ∃ c, v[i]? = some c ∧ c ≤ 9 := by
    have hlast : width - 1 < (digitsOf width (magnitude n)).length := by
      rw [length_digitsOf]
      omega
    refine ⟨_, ?_, digitsOf_le width (by omega) _ (List.getElem_mem hlast)⟩
    rw [hcells, List.append_assoc, List.getElem?_append_right (by omega),
      List.getElem?_append_left (by rw [length_digitsOf]; omega),
      show i - pre.length = width - 1 by omega, List.getElem?_eq_getElem hlast]
  obtain ⟨-, -, hplain, hflagged⟩ := Cell.digit_spec c hle
  have hlast : (v.mark ps)[i]? = some (if i ∈ ps then c.flagged else c) := by
    rw [getElem?_mark, hc, Option.map_some]
  have hflag : (if i ∈ ps then c.flagged else c).isFlagged = true ↔ n < 0 := by
    rw [← hsign]
    by_cases hmem : i ∈ ps <;> simp [hmem, hplain, hflagged]
  have hdigits : digits (((v.mark ps).take (i + 1)).drop (i + 1 - width)) =
      (digitsOf width (magnitude n)).digits := by
    rw [digits, List.map_drop, List.map_take, ← digits, digits_mark, digits, ← List.map_take,
      ← List.map_drop, ← digits, hcells, hi, Nat.add_sub_cancel, List.take_left' (by simp),
      List.drop_left]
  have hnumber : (number (((v.mark ps).take (i + 1)).drop (i + 1 - width))).toInt =
      ↑(n.toInt.natAbs % 10 ^ width) := by
    rw [number_congr hdigits, toInt_number_digitsOf width (by omega), hmagnitude, Int.toNat_natCast]
  refine ⟨_, field_eq hlast hpos (by omega) (by rwa [length_mark]), ?_⟩
  generalize number (((v.mark ps).take (i + 1)).drop (i + 1 - width)) = m at hnumber
  have hzero : (0 : Word).toInt = 0 := rfl
  by_cases hn : n < 0
  · have hm : m ≠ Int64.minValue := by
      rintro rfl
      exact absurd hnumber (by rw [show Int64.minValue.toInt = -2 ^ 63 from rfl]; omega)
    rw [if_pos (hflag.mpr hn), Word.toInt_neg_of hm, hnumber,
      Int.sign_eq_neg_one_of_neg (by rwa [Int64.lt_iff_toInt_lt, hzero] at hn), Int.neg_one_mul]
  · rw [if_neg (mt hflag.mp hn), hnumber]
    rw [Int64.lt_iff_toInt_lt, hzero] at hn
    rcases Int.lt_or_eq_of_le (Int.not_lt.mp hn) with hpositive | hnone
    · rw [Int.sign_eq_one_of_pos hpositive, Int.one_mul]
    · rw [← hnone]
      simp

/-- **A field of marked digits is read back**, if its last digit is marked for the sign. -/
theorem field_mark {pre post : Value} {width i : Nat} {n : Word}
    (hcells : v = pre ++ digitsOf width (magnitude n) ++ post) (hlength : v.length < 2 ^ 63)
    (hi : i + 1 = pre.length + width) (hpos : 0 < width) (hleast : n ≠ Int64.minValue)
    (hsize : n.toInt.natAbs < 10 ^ width) (hsign : i ∈ ps ↔ n < 0) :
    (v.mark ps).field (Int64.ofNat i) (Int64.ofNat width) = .ok n := by
  obtain ⟨r, hfield, hr⟩ := field_mark_mod hcells hlength hi hpos hleast hsign
  rw [Nat.mod_eq_of_lt hsize, Int.sign_mul_natAbs] at hr
  rw [hfield, Int64.toInt_inj.mp hr]

/-- **An index register is read back** from the three digits that are marked for it. -/
theorem registerAt_mark (hv : ∀ c ∈ v, c ≤ 9) {i : Nat} (hlo : 3 ≤ i) (hi : i ≤ v.length)
    {register : Word} (hregister : register ∈ registers)
    (hps : ∀ k, i - 3 ≤ k → k < i → (k ∈ ps ↔ k ∈ indexFlags i register)) :
    (v.mark ps).registerAt i = register := by
  have hall : registers.all (fun r => (if r &&& 4 ≠ 0 then 4 else 0) +
      (if r &&& 2 ≠ 0 then 2 else 0) + (if r &&& 1 ≠ 0 then 1 else 0) == r) = true := by decide
  have hflag : ∀ k, 1 ≤ k → k ≤ 3 → ((v.mark ps).isFlaggedAt (i - k) = true ↔
      (k = 3 ∧ register &&& 4 ≠ 0) ∨ (k = 2 ∧ register &&& 2 ≠ 0) ∨
        (k = 1 ∧ register &&& 1 ≠ 0)) := by
    intro k hk hk'
    have hplace : ∀ j ≤ 3, (i - k = i - j ↔ k = j) := by omega
    rw [isFlaggedAt_mark hv (by omega), hps _ (by omega) (by omega), mem_indexFlags,
      hplace 3 (by decide), hplace 2 (by decide), hplace 1 (by decide)]
  have hfour : (v.mark ps).isFlaggedAt (i - 3) = true ↔ register &&& 4 ≠ 0 :=
    (hflag 3 (by decide) (by decide)).trans (by simp)
  have htwo : (v.mark ps).isFlaggedAt (i - 2) = true ↔ register &&& 2 ≠ 0 :=
    (hflag 2 (by decide) (by decide)).trans (by simp)
  have hone : (v.mark ps).isFlaggedAt (i - 1) = true ↔ register &&& 1 ≠ 0 :=
    (hflag 1 (by decide) (by decide)).trans (by simp)
  unfold registerAt
  simp only [hfour, htwo, hone]
  exact beq_iff_eq.mp (List.all_eq_true.mp hall register hregister)

end Value

section Decoding

variable {s : Statement} {p q : Word × Index}

theorem instructionDigits_le {code : Nat} (hcode : code < 100) {p q : Word}
    (hp : p ≠ Int64.minValue) (hq : q ≠ Int64.minValue) :
    ∀ c ∈ instructionDigits (Int64.ofNat code) p q, c ≤ 9 := by
  have hpositive : (0 : Int) ≤ (Int64.ofNat code).toInt := by
    rw [Int64.toInt_ofNat_of_lt (by omega)]
    omega
  have hp' := Value.toInt_magnitude hp
  have hq' := Value.toInt_magnitude hq
  exact List.forall_mem_append.mpr ⟨List.forall_mem_append.mpr
    ⟨Value.digitsOf_le 2 hpositive, Value.digitsOf_le 5 (by omega)⟩, Value.digitsOf_le 5 (by omega)⟩

/-- The digits of an instruction spell its code and the last five digits of its operands. -/
theorem spells_instructionDigits {code : Nat} (hcode : code < 100) {p q : Word}
    (hp : p ≠ Int64.minValue) (hq : q ≠ Int64.minValue) :
    Spells ((instructionDigits (Int64.ofNat code) p q).digits.take 2) code ∧
      Spells (((instructionDigits (Int64.ofNat code) p q).digits.drop 2).take 5)
        (p.toInt.natAbs % 100000) ∧
      Spells ((instructionDigits (Int64.ofNat code) p q).digits.drop 7)
        (q.toInt.natAbs % 100000) := by
  have hword : (Int64.ofNat code).toInt = code := Int64.toInt_ofNat_of_lt (by omega)
  have hspells : ∀ {n : Word}, n ≠ Int64.minValue →
      Spells (digitsOf 5 (magnitude n)).digits (n.toInt.natAbs % 100000) := by
    intro n hn
    have hmagnitude := Value.toInt_magnitude hn
    have hlast := Value.spells_digitsOf_mod 5 (n := magnitude n) (by omega)
    rwa [hmagnitude, Int.toNat_natCast] at hlast
  have hfirst : Spells (digitsOf 2 (Int64.ofNat code)).digits code := by
    have hall := Value.spells_digitsOf_mod 2 (n := Int64.ofNat code) (by omega)
    rwa [hword, Int.toNat_natCast, Nat.mod_eq_of_lt (by omega)] at hall
  rw [instructionDigits, Value.digits_append, Value.digits_append]
  refine ⟨?_, ?_, ?_⟩
  · rwa [List.append_assoc, List.take_left' (by simp)]
  · rw [List.append_assoc, List.drop_left' (by simp), List.take_left' (by simp)]
    exact hspells hp
  · rw [List.drop_left' (by simp)]
    exact hspells hq

/-- **An instruction without flags of its own is read back**, if its operands have five digits. -/
theorem decode_instructionCells (hcode : s.descriptor.opcode < 100)
    (hplain : s.descriptor.q = .immediate → q.2.register = 0)
    (hnone : listedFlags (flagsOperand s) = []) (hpr : p.2.register ∈ registers)
    (hqr : q.2.register ∈ registers) (hp : p.1.toInt.natAbs ≤ 99999)
    (hq : q.1.toInt.natAbs ≤ 99999) :
    decodeInstruction (instructionCells s p q) = .ok ⟨Int64.ofNat s.descriptor.opcode, p.1,
      p.2.register, q.1, q.2.register⟩ := by
  have hleast : ∀ {n : Word}, n.toInt.natAbs ≤ 99999 → n ≠ Int64.minValue := by
    rintro n hn rfl
    exact absurd hn (by decide)
  have hpositive : ¬ Int64.ofNat s.descriptor.opcode < 0 := Word.not_ofNat_neg (by omega)
  have hwhole : (Int64.ofNat s.descriptor.opcode).toInt.natAbs < 10 ^ 2 := by
    rw [Int64.toInt_ofNat_of_lt (by omega), Int.natAbs_natCast]
    exact hcode
  have hdigits := instructionDigits_le hcode (hleast hp) (hleast hq)
  have hmagnitude : magnitude (Int64.ofNat s.descriptor.opcode) = Int64.ofNat s.descriptor.opcode :=
    if_neg hpositive
  have hflags : ∀ i, i ∈ instructionFlags s p q ↔ (i = 6 ∧ p.1 < 0) ∨ (i = 11 ∧ q.1 < 0) ∨
      i ∈ indexFlags 6 p.2.register ∨ i ∈ indexFlags 11 q.2.register ∨
      (i = 7 ∧ s.isImmediate = true) := by
    intro i
    rw [mem_instructionFlags, hnone]
    simp
  have hlength : (instructionDigits (Int64.ofNat s.descriptor.opcode) p.1 q.1).length < 2 ^ 63 := by
    simp [instructionDigits]
  rw [instructionCells_eq (by omega) hplain]
  generalize instructionFlags s p q = flags at hflags
  have hcodeField := Value.field_mark
    (show instructionDigits _ p.1 q.1 = [] ++ digitsOf 2 (magnitude _) ++ _ by
      rw [instructionDigits, hmagnitude, List.nil_append, List.append_assoc])
    hlength rfl (by decide) (hleast (by omega)) hwhole
    (show 1 ∈ flags ↔ _ by simp [hflags, mem_indexFlags, hpositive])
  have hpField := Value.field_mark rfl hlength (show 6 + 1 = _ + 5 by simp) (by decide)
    (hleast hp) (by omega) (show 6 ∈ flags ↔ _ by simp [hflags, mem_indexFlags])
  have hqField := Value.field_mark (List.append_nil _).symm hlength
    (show 11 + 1 = _ + 5 by simp) (by decide) (hleast hq) (by omega)
    (show 11 ∈ flags ↔ _ by simp [hflags, mem_indexFlags])
  -- Neither signs nor an immediate operand flag the digits of an index register.
  have hpRegister := Value.registerAt_mark hdigits (by decide) (by simp [instructionDigits]) hpr
    (show ∀ k, 6 - 3 ≤ k → k < 6 → (k ∈ flags ↔ _) by grind [mem_indexFlags])
  have hqRegister := Value.registerAt_mark hdigits (by decide) (by simp [instructionDigits]) hqr
    (show ∀ k, 11 - 3 ≤ k → k < 11 → (k ∈ flags ↔ _) by grind [mem_indexFlags])
  rw [decodeInstruction_of_fields hcodeField hpField hqField, hpRegister, hqRegister]

end Decoding

/-! ## From the line to the cells -/

/-- **The cells of an instruction, digit by digit and flag by flag.** -/
theorem instructionCells_exact {s : Statement} {p q : Word × Index}
    (hcode : s.descriptor.opcode < 100) (hplain : s.descriptor.q = .immediate → q.2.register = 0)
    (hp : p.1 ≠ Int64.minValue) (hq : q.1 ≠ Int64.minValue) :
    (instructionCells s p q).length = 12 ∧ (instructionCells s p q).IsNumeric ∧
      Spells ((instructionCells s p q).digits.take 2) s.descriptor.opcode ∧
      Spells (((instructionCells s p q).digits.drop 2).take 5) (p.1.toInt.natAbs % 100000) ∧
      Spells ((instructionCells s p q).digits.drop 7) (q.1.toInt.natAbs % 100000) ∧
      ∀ i < 12, (instructionCells s p q).isFlaggedAt i = true ↔ i ∈ instructionFlags s p q := by
  have hle := instructionDigits_le hcode hp hq
  have hlength : (instructionDigits (Int64.ofNat s.descriptor.opcode) p.1 q.1).length = 12 := by
    simp [instructionDigits]
  obtain ⟨hfirst, hsecond, hthird⟩ := spells_instructionDigits hcode hp hq
  rw [instructionCells_eq (by omega) hplain, Value.digits_mark, Value.length_mark]
  refine ⟨hlength, Value.isNumeric_mark hle, hfirst, hsecond, hthird, fun i hi => ?_⟩
  exact Value.isFlaggedAt_mark hle (by omega)

theorem encode_instruction {s : Statement} (hkind : s.kind = .instruction) (a : Assembly) :
    encode s (layOut s a).1 (layOut s a).2 =
      .ok ((instructionCells s (encodeP s (layOut s a).1.star (layOut s a).2).1
        (encodeQ s (layOut s a).1.star (encodeP s (layOut s a).1.star (layOut s a).2).2).1).take
          s.descriptor.shape.instructionLength.toNatClampNeg)
        (buildInstruction s (layOut s a).1 (layOut s a).2).2 := by
  have hlength : (layOut s a).1.length = s.descriptor.shape.instructionLength := by
    rw [layOut_apply]
    exact placement_of_instruction hkind
  have hmoderate : (layOut s a).1.length.Moderate := by
    rw [hlength]
    cases s.descriptor.shape <;> exact ⟨by decide, by decide⟩
  have hslices : s.Slices (layOut s a).1 := by
    rw [layOut_apply]
    exact place_slices s a
  have hencode : ∀ pl, encode s pl = encodeInstruction s pl := by
    intro pl
    unfold encode
    rw [hkind]
  rw [hencode, encodeInstruction_ok hmoderate hslices hkind, buildInstruction_value, hlength]

theorem listedFlags_of_isBlank {digits : Text} (h : digits.isBlank = true) :
    listedFlags digits = [] := by
  unfold listedFlags Value.setFlags
  rw [if_pos h]
  decide

/-- **Instructions are encoded exactly, and can be read back.** In the second pass every instruction
is encoded, and it keeps the first two, seven or all of its twelve cells. These hold the digits of
its code and the last five of each operand, and the flags are those of the signs, the index
registers, an immediate operand and the flags operand. -/
theorem instruction_exact {line : Line} {a b : Assembly} {s : Statement}
    (hparse : parse line a = (s, b)) (hkind : s.kind = .instruction) (hpass : a.log.pass = 2) :
    let pl := (layOut s b).1
    let c := (layOut s b).2
    let p := (encodeP s pl.star c).1
    let q := (encodeQ s pl.star (encodeP s pl.star c).2).1
    let cells := instructionCells s p q
    let kept := s.descriptor.shape.instructionLength.toNatClampNeg
    kept ∈ [2, 7, 12] ∧
    (∃ d, encode s pl c = .ok (cells.take kept) d ∧
      process s b = (store pl.address (cells.take kept) >>= fun _ =>
        pure ⟨s, s.descriptor.shape, pl, cells.take kept, []⟩) d) ∧
    (p.1 ≠ Int64.minValue → q.1 ≠ Int64.minValue →
      cells.length = 12 ∧ cells.IsNumeric ∧
      Spells (cells.digits.take 2) s.descriptor.opcode ∧
      Spells ((cells.digits.drop 2).take 5) (p.1.toInt.natAbs % 100000) ∧
      Spells (cells.digits.drop 7) (q.1.toInt.natAbs % 100000) ∧
      (∀ i < 12, cells.isFlaggedAt i = true ↔
        (i = 6 ∧ p.1 < 0) ∨ (i = 11 ∧ q.1 < 0) ∨ i ∈ indexFlags 6 p.2.register ∨
          i ∈ indexFlags 11 q.2.register ∨ (i = 7 ∧ s.isImmediate = true) ∨
          i ∈ listedFlags (flagsOperand s)) ∧
      ((flagsOperand s).isBlank = true ∨
        Value.setFlags (List.replicate 12 0) (flagsOperand s) = none →
          listedFlags (flagsOperand s) = [])) ∧
    ((flagsOperand s).isBlank = true → p.1.toInt.natAbs ≤ 99999 → q.1.toInt.natAbs ≤ 99999 →
      decodeInstruction cells = .ok ⟨Int64.ofNat s.descriptor.opcode, p.1, p.2.register, q.1,
        q.2.register⟩) := by
  intro pl c p q cells kept
  have hcode : s.descriptor.opcode < 100 := by
    have hroomy := parse_isRoomy line a
    rw [hparse] at hroomy
    simp only [Descriptor.isRoomy, Bool.and_eq_true, decide_eq_true_eq] at hroomy
    exact hroomy.1.1
  have hplain : s.descriptor.q = .immediate → q.2.register = 0 := fun hq => encodeQ_plain hq _ _
  have hemitting : c.emitting = true := by
    have hleads : Leads .still a (parse line a).2 := parse_within line a
    have hparsed := Assembly.Keeps.of_frame hleads.frame
    rw [hparse] at hparsed
    rw [Assembly.emitting, (layOut_keeps s b).pass, hparsed.pass, hpass]
    rfl
  have hencode : encode s pl c = .ok (cells.take kept) _ := encode_instruction hkind b
  refine ⟨?_, ⟨_, hencode, ?_⟩, fun hp hq => ?_, fun hblank hp hq => ?_⟩
  · unfold kept
    cases s.descriptor.shape <;> decide
  · unfold process
    rw [Build.lift_bind, Build.get_bind, if_pos hemitting, Build.bind_ok hencode]
  · obtain ⟨hlength, hnumeric, hfirst, hsecond, hthird, hflags⟩ :=
      instructionCells_exact hcode hplain hp hq
    refine ⟨hlength, hnumeric, hfirst, hsecond, hthird, fun i hi => ?_, ?_⟩
    · exact (hflags i hi).trans mem_instructionFlags
    · rintro (hblank | hrejected)
      · exact listedFlags_of_isBlank hblank
      · rw [listedFlags, hrejected]
  · exact decode_instructionCells hcode hplain (listedFlags_of_isBlank hblank)
      (encodeP_register _ _ _) (encodeQ_register _ _ _) hp hq

/-- A state of the second pass on a machine with index registers. -/
def indexedPass : Assembly where
  options := { model := .two, memorySize := 20000 }
  log := { warnings := true, pass := 2 }
  symbols := { divide := true }
  memory := Memory.undefined 20000
  counter := startAddress

/-- A branch with a negative address and a negative increment, each with an index register. -/
def branchLine : Line where
  number := 1
  operation := ascii "BXM"
  operands := ascii "-1234(A5),-56(3)"

/-- The statement of that line. -/
def branch : Statement where
  line := branchLine
  descriptor := (Descriptor.instr "BXM" 62 .referenceEven .immediateIndex).onModel2
  operands := [ascii "-1234(A5)", ascii "-56(3)", []]

/-- Its place, and the state in which it is encoded. -/
def branchLaid : Placement × Assembly := layOut branch indexedPass

theorem instruction_exact_branch :
    parse branchLine indexedPass = (branch, indexedPass) ∧ branch.kind = .instruction ∧
    indexedPass.log.pass = 2 ∧ (flagsOperand branch).isBlank = true ∧
    (∃ d, encode branch branchLaid.1 branchLaid.2 =
      .ok [6, 2, 0, 0x11, 2, 0x13, 0x14, 0x10, 0, 0x10, 0x15, 0x16] d) ∧
    decodeInstruction [6, 2, 0, 0x11, 2, 0x13, 0x14, 0x10, 0, 0x10, 0x15, 0x16] =
      .ok ⟨62, -1234, 5, -56, 3⟩ := by
  have hparse : parse branchLine indexedPass = (branch, indexedPass) :=
    Prod.ext (by decide +kernel) rfl
  obtain ⟨-, ⟨d, hencode, -⟩, -, hdecode⟩ := instruction_exact hparse rfl rfl
  have hp : (encodeP branch branchLaid.1.star branchLaid.2).1 = (-1234, ⟨5, some 'A'.toUInt8⟩) := by
    decide +kernel
  have hq : (encodeQ branch branchLaid.1.star
      (encodeP branch branchLaid.1.star branchLaid.2).2).1 = (-56, ⟨3, none⟩) := by
    decide +kernel
  have hcells : instructionCells branch (-1234, ⟨5, some 'A'.toUInt8⟩) (-56, ⟨3, none⟩) =
      [6, 2, 0, 0x11, 2, 0x13, 0x14, 0x10, 0, 0x10, 0x15, 0x16] := by
    decide +kernel
  rw [show layOut branch indexedPass = branchLaid from rfl, hp, hq, hcells] at hencode hdecode
  exact ⟨hparse, rfl, rfl, rfl, ⟨d, hencode⟩, hdecode rfl (by decide) (by decide)⟩

end SpsAssembler
