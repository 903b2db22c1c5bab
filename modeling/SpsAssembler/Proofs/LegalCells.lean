import Mathlib.Tactic.SplitIfs
import SpsAssembler.Proofs.Core
import SpsAssembler.Proofs.Positions

/-!
# Legal cells

A cell of core holds nothing, a digit that may be flagged, or an unflagged mark or blank. Fields,
constants and tables are made of such cells: a field holds digits whatever is flagged in it, and the
first cell of a constant is flagged only if it is a digit.

* `Cell.isNumeral`, `Cell.isLegal`;
* **`Value.IsNumeric.setField`**, `IsNumeric.setFlags`: what is written into fields;
* **`flaggable_encodeText`**, **`flaggable_encodeNumber`**: constants;
* **`Memory.IsLegal.seed`**, `Memory.IsLegal.written`: core.
-/

namespace SpsAssembler

namespace Cell

/-- A digit, flagged or not. -/
def isNumeral (c : Cell) : Bool := c ≤ cellMask && c.digit ≤ 9

/-- What a cell of core may hold. -/
def isLegal (c : Cell) : Bool :=
  c == undefined || c.isNumeral || c == recordMark || c == numericBlank || c == groupMark

theorem isNumeral_flagged : ∀ c : Cell, c.isNumeral = true → (flagged c).isNumeral = true := by
  refine forall_cell ?_
  decide +kernel

theorem isLegal_of_isNumeral {c : Cell} (h : c.isNumeral = true) : c.isLegal = true := by
  simp [isLegal, h]

end Cell

namespace Value

/-- Every cell is a digit, flagged or not. -/
def IsNumeric (v : Value) : Prop := ∀ c ∈ v, c.isNumeral = true

/-- Every cell is legal. -/
def IsLegal (v : Value) : Prop := ∀ c ∈ v, c.isLegal = true

/-- Every cell is legal, and the first one may be flagged. -/
def IsFlaggable (v : Value) : Prop := v.IsLegal ∧ ∀ c ∈ v.head?, c.isNumeral = true

-- Along the list: the instances for all cells there are would try every one of them.
instance (v : Value) : Decidable v.IsNumeric :=
  decidable_of_iff (v.all Cell.isNumeral = true) List.all_eq_true

instance (v : Value) : Decidable v.IsLegal :=
  decidable_of_iff (v.all Cell.isLegal = true) List.all_eq_true

variable {v w : Value}

theorem isNumeric_replicate (n : Nat) : IsNumeric (List.replicate n 0) := by
  intro c hc
  rw [(List.mem_replicate.mp hc).2]
  rfl

theorem IsNumeric.isLegal (h : v.IsNumeric) : v.IsLegal := fun c hc =>
  Cell.isLegal_of_isNumeral (h c hc)

theorem IsNumeric.append (hv : v.IsNumeric) (hw : w.IsNumeric) : IsNumeric (v ++ w) :=
  List.forall_mem_append.mpr ⟨hv, hw⟩

theorem IsNumeric.isFlaggable (h : v.IsNumeric) : v.IsFlaggable :=
  ⟨h.isLegal, fun c hc => h c (List.mem_of_head? hc)⟩

theorem IsNumeric.append_isFlaggable (hv : v.IsNumeric) (hw : w.IsFlaggable) :
    IsFlaggable (v ++ w) := by
  refine ⟨List.forall_mem_append.mpr ⟨hv.isLegal, hw.1⟩, ?_⟩
  cases v with
  | nil => exact hw.2
  | cons d v =>
    intro c hc
    cases hc
    exact hv _ List.mem_cons_self

/-! ## Flags and fields -/

theorem forall_mem_modify {P : Cell → Prop} {f : Cell → Cell} (h : ∀ c ∈ v, P c)
    (hf : ∀ c ∈ v, P (f c)) (i : Nat) : ∀ c ∈ v.modify i f, P c := by
  intro c hc
  obtain ⟨j, hj, rfl⟩ := List.getElem_of_mem hc
  rw [List.getElem_modify]
  split
  · exact hf _ (List.getElem_mem _)
  · exact h _ (List.getElem_mem _)

theorem IsNumeric.modifyAt {f : Cell → Cell} (h : v.IsNumeric) (i : Word)
    (hf : ∀ c ∈ v, Cell.isNumeral (f c) = true) : (v.modifyAt i f).IsNumeric := by
  rw [modifyAt_eq]
  split
  · exact forall_mem_modify h hf _
  · exact h

theorem IsNumeric.flag (h : v.IsNumeric) (i : Word) : (v.flag i).IsNumeric :=
  h.modifyAt i fun c hc => Cell.isNumeral_flagged c (h c hc)

theorem IsFlaggable.flag_zero (h : v.IsFlaggable) : (v.flag 0).IsLegal := by
  cases v with
  | nil => exact h.1
  | cons c v =>
    obtain ⟨hlegal, hhead⟩ := h
    have hc := Cell.isLegal_of_isNumeral (Cell.isNumeral_flagged c (hhead c rfl))
    exact List.forall_mem_cons.mpr ⟨hc, (List.forall_mem_cons.mp hlegal).2⟩

theorem isNumeral_lowByte {n : Word} (h : 0 ≤ n.toInt) :
    Cell.isNumeral (n % 10).lowByte = true := by
  have hall : ([0, 1, 2, 3, 4, 5, 6, 7, 8, 9] : List Word).all
      (fun d => Cell.isNumeral d.lowByte) = true := by decide
  have hmod := Word.toInt_mod_ten h
  exact List.all_eq_true.mp hall _ (Word.eq_digit (by omega) (by omega))

theorem IsNumeric.putDigits {n : Word} (hn : 0 ≤ n.toInt) (h : v.IsNumeric) (width : Nat)
    (i : Word) : (putDigits width i n v).IsNumeric := by
  induction width generalizing i n v with
  | zero => exact h
  | succ width ih =>
    have hdiv := Word.toInt_div_ten hn
    rw [Value.putDigits]
    split
    · exact h
    · exact ih (by omega) (h.modifyAt i fun c hc => isNumeral_lowByte hn) (i - 1)

theorem magnitude_nonneg {n : Word} (h : n ≠ Int64.minValue) : 0 ≤ (magnitude n).toInt := by
  have hneg := Word.toInt_neg_of h
  have hzero : (0 : Word).toInt = 0 := rfl
  unfold magnitude
  split <;> rename_i hn <;> rw [Int64.lt_iff_toInt_lt] at hn <;> omega

/-- **A field holds digits** if its number has a magnitude. -/
theorem IsNumeric.setField {n : Word} (h : v.IsNumeric) (hn : n ≠ Int64.minValue) (i width : Word)
    (flagFirst : Bool) : (v.setField i width flagFirst n).IsNumeric := by
  have hput := h.putDigits (magnitude_nonneg hn) width.toNatClampNeg i
  unfold Value.setField
  dsimp only
  split_ifs
  · exact h
  · exact (hput.flag _).flag _
  · exact hput.flag _
  · exact hput.flag _
  · exact hput

theorem IsNumeric.setIndexFlags (h : v.IsNumeric) (i reg : Word) :
    (v.setIndexFlags i reg).IsNumeric := by
  have hflag : ∀ {w : Value} (c : Bool) (j : Word), w.IsNumeric →
      (if c then w.flag j else w).IsNumeric := by
    intro w c j hw
    split
    · exact hw.flag j
    · exact hw
  exact hflag _ _ (hflag _ _ (hflag _ _ h))

theorem IsNumeric.flagListed (h : v.IsNumeric) (digits : Text) :
    (flagListed digits v).IsNumeric := by
  induction digits, v using Value.flagListed.induct with
  | case1 v => exact h
  | case2 v d => exact h.flag _
  | case3 v d e rest hten ih =>
    rw [Value.flagListed, if_pos hten]
    exact ih (h.flag _)
  | case4 v d e rest hten heleven ih =>
    rw [Value.flagListed, if_neg hten, if_pos heleven]
    exact ih (h.flag _)
  | case5 v d e rest hten heleven ih =>
    rw [Value.flagListed, if_neg hten, if_neg heleven]
    exact ih (h.flag _)

theorem IsNumeric.setFlags (h : v.IsNumeric) {digits : Text} (hw : v.setFlags digits = some w) :
    w.IsNumeric := by
  unfold Value.setFlags at hw
  split_ifs at hw
  · cases hw
    exact h
  · cases hw
    exact h.flagListed digits

end Value

open Value (IsNumeric IsLegal IsFlaggable)

/-! ## Constants -/

theorem isNumeric_constantCells : ∀ b : Byte,
    (isNumeralByte true b = true → (numeralCell b).isNumeral = true) ∧
      (alphaCells b).IsNumeric := by
  refine forall_cell ?_
  decide +kernel

theorem isNumeric_flagLast {v : Value} (h : v.IsNumeric) : (flagLast v).IsNumeric :=
  Value.forall_mem_modify h (fun c hc => Cell.isNumeral_flagged c (h c hc)) _

theorem isNumeric_padCells {v : Value} (h : v.IsNumeric) (n : Nat) : (padCells n v).IsNumeric :=
  h.append (Value.isNumeric_replicate _)

/-- **The first cell of an alphameric constant** is a digit. -/
theorem flaggable_encodeText {length : Word} {text : Text} {c : Constant}
    (h : encodeText length text = .ok c) : c.cells.IsFlaggable := by
  rw [encodeText_eq] at h
  split at h
  · cases h
  · rename_i n _
    extract_lets marked body room cells mark at h
    have hcells : cells.IsNumeric := by
      refine isNumeric_padCells (fun c hc => ?_) _
      obtain ⟨b, -, hb⟩ := List.mem_flatMap.mp hc
      exact (isNumeric_constantCells b).2 c hb
    have hmark : ∀ rest, IsFlaggable (mark ++ List.replicate rest 0) := by
      intro rest
      have hrest := Value.isNumeric_replicate rest
      unfold mark
      split
      · have hpair : IsLegal [0, Cell.recordMark] := by decide
        refine ⟨List.forall_mem_append.mpr ⟨hpair, hrest.isLegal⟩, fun c hc => ?_⟩
        cases hc
        rfl
      · exact hrest.isFlaggable
    split at h
    · cases h
      exact (Value.isNumeric_replicate n).isFlaggable
    · cases h
      rw [padCells, List.append_assoc]
      exact hcells.append_isFlaggable (hmark _)

/-- **A numeric constant** is a row of digits, and perhaps a record mark behind them. -/
theorem cells_encodeNumber {length : Word} {extended : Bool} {text : Text} {c : Constant}
    (h : encodeNumber length extended text = .ok c) : ∃ digits mark : Value, digits.IsNumeric ∧
      (mark = [] ∨ mark = [Cell.recordMark]) ∧ c.cells = digits ++ mark := by
  rw [encodeNumber_eq] at h
  split at h
  · cases h
  · extract_lets negative marked unmarked digits room mark excess cells signed lost at h
    have hmark : mark = [] ∨ mark = [Cell.recordMark] := by
      unfold mark
      split
      · exact .inr rfl
      · exact .inl rfl
    split at h
    · cases h
      exact ⟨_, mark, Value.isNumeric_replicate room, hmark, rfl⟩
    · rename_i hall
      cases h
      have hcells : cells.IsNumeric := by
        refine (Value.isNumeric_replicate _).append fun c hc => ?_
        obtain ⟨b, hb, rfl⟩ := List.mem_map.mp hc
        have hbyte : isNumeralByte extended b = true := by
          have hdigits : digits.all (isNumeralByte extended) = true := by simpa using hall
          exact List.all_eq_true.mp hdigits b (List.mem_of_mem_drop hb)
        refine (isNumeric_constantCells b).1 ?_
        cases extended <;> simp_all [isNumeralByte]
      have hsigned : signed.IsNumeric := by
        unfold signed
        split
        · exact isNumeric_flagLast hcells
        · exact hcells
      exact ⟨signed, mark, hsigned, hmark, rfl⟩

theorem isLegal_encodeNumber {length : Word} {extended : Bool} {text : Text} {c : Constant}
    (h : encodeNumber length extended text = .ok c) : c.cells.IsLegal := by
  obtain ⟨digits, mark, hdigits, hmark, hcells⟩ := cells_encodeNumber h
  rw [hcells]
  have hlegal : mark.IsLegal := by rcases hmark with rfl | rfl <;> decide
  exact List.forall_mem_append.mpr ⟨hdigits.isLegal, hlegal⟩

/-- The first cell of a numeric constant is a digit, unless it is a record mark alone. -/
theorem flaggable_encodeNumber {length : Word} {extended : Bool} {text : Text} {c : Constant}
    (h : encodeNumber length extended text = .ok c) (hne : c.cells ≠ [Cell.recordMark]) :
    c.cells.IsFlaggable := by
  refine ⟨isLegal_encodeNumber h, ?_⟩
  obtain ⟨digits, mark, hdigits, hmark, hcells⟩ := cells_encodeNumber h
  rw [hcells] at hne ⊢
  cases digits with
  | nil =>
    rcases hmark with rfl | rfl
    · simp
    · exact absurd rfl hne
  | cons d digits =>
    intro c hc
    cases hc
    exact hdigits _ List.mem_cons_self

/-! ## Tables -/

theorem isLegal_tables : multiplyTable.IsNumeric ∧ addTable.IsNumeric ∧
    (octalTable maxOctalPower).IsLegal := by decide +kernel

theorem isNumeric_bareInstruction {code : Word} (h : code ≠ Int64.minValue) :
    (bareInstruction code).IsNumeric := (Value.isNumeric_replicate 12).setField h _ _ _

/-! ## Core -/

namespace Memory

/-- Every cell of core is legal. -/
def IsLegal (m : Memory) : Prop := Value.IsLegal m.cells.toList

variable {m : Memory} {v : Value}

theorem isLegal_write {cells : Array Cell} (hcells : Value.IsLegal cells.toList) (hv : v.IsLegal)
    (i : Nat) : Value.IsLegal (write cells i v).toList := by
  induction v generalizing cells i with
  | nil => exact hcells
  | cons c v ih =>
    obtain ⟨hc, hv⟩ := List.forall_mem_cons.mp hv
    refine ih (fun d hd => ?_) hv (i + 1)
    rw [Array.toList_setIfInBounds] at hd
    rcases List.mem_or_eq_of_mem_set hd with hd | rfl
    · exact hcells d hd
    · exact hc

theorem isLegal_replicate (n : Nat) : IsLegal ⟨Array.replicate n Cell.undefined⟩ := by
  intro c hc
  rw [Array.toList_replicate] at hc
  rw [(List.mem_replicate.mp hc).2]
  rfl

theorem IsLegal.written (h : m.IsLegal) (hv : v.IsLegal) (address : Word) :
    (m.written address v).IsLegal := isLegal_write h hv _

theorem IsLegal.place (h : m.IsLegal) (hv : v.IsLegal) (i : Nat) : (m.place i v).IsLegal := by
  unfold Memory.place
  split
  · exact isLegal_write h hv i
  · exact h

/-- **Low core is legal** if the entry of the program has a magnitude. -/
theorem IsLegal.seed (h : m.IsLegal) {entry : Word} (hentry : entry ≠ Int64.minValue)
    (halt tables addInCore : Bool) : (m.seed entry halt tables addInCore).IsLegal := by
  have hbare : ∀ {code : Word}, code ≠ Int64.minValue → (bareInstruction code).IsLegal :=
    fun hcode => (isNumeric_bareInstruction hcode).isLegal
  have hbranch : ((bareInstruction 49).setField Field.p 5 false entry).IsLegal :=
    ((isNumeric_bareInstruction (by decide)).setField hentry _ _ _).isLegal
  have hsecond : (if halt then 48 else 41 : Word) ≠ Int64.minValue := by cases halt <;> decide
  unfold Memory.seed
  generalize (if halt then 48 else 41 : Word) = second at hsecond
  have hstart := ((h.place (hbare (by decide : (41 : Word) ≠ _)) 0).place (hbare hsecond) 12).place
    hbranch 24
  have hmultiply := hstart.place isLegal_tables.1.isLegal 100
  have hmark : Value.IsLegal [Cell.recordMark] := by decide
  dsimp only
  split_ifs
  · exact (hmultiply.place isLegal_tables.2.1.isLegal 300).place hmark 400
  · exact hmultiply.place hmark 400
  · exact hstart

end Memory

end SpsAssembler
