import SpsAssembler.Proofs.InstructionCells

/-!
# Packing numbers into fields

What is left in each cell when a number is packed into a field depends on the place of the cell in
the field, and not on the row of cells. So a field that runs over the end of a row is written as far
as it is there, and the cells beside a field stay as they are.

* `InField`, `Value.HasField`: the positions of a field, and rows that have all of them;
* `placeDigit`, `packedCell`: the cell at a position of a field;
* `Value.getElem?_putDigits`, **`Value.getElem?_setField`**: packing, cell by cell;
* `Value.setField_shift`: packing in a row and in a part of it;
* `Value.field_setField`: reading a field back;
* **`field_packed`**: all of it together.
-/

namespace SpsAssembler

/-! ## The cells of a field -/

/-- The positions of the `width` digits that end at `i`. -/
def InField (i width : Word) (p : Nat) : Prop := i.toInt - width.toInt + 1 ≤ p ∧ p ≤ i.toInt

instance (i width : Word) (p : Nat) : Decidable (InField i width p) := by
  unfold InField; infer_instance

/-- The row has all positions of the field. -/
def Value.HasField (v : Value) (i width : Word) : Prop :=
  0 ≤ i.toInt - width.toInt + 1 ∧ i.toInt < v.length

instance (v : Value) (i width : Word) : Decidable (v.HasField i width) := by
  unfold Value.HasField; infer_instance

/-- The digit of `n` that has `place` digits behind it. -/
def placeDigit (n place : Nat) : Cell := (n / 10 ^ place % 10).toUInt8

/-- What the cell at `p` is when `n` is packed into the field. -/
def packedCell (i width : Word) (flagFirst : Bool) (n : Word) (p : Nat) : Cell :=
  if (p = i.toInt ∧ n < 0) ∨ (p = i.toInt - width.toInt + 1 ∧ flagFirst = true) then
    (placeDigit n.toInt.natAbs (i.toInt - p).toNat).flagged
  else placeDigit n.toInt.natAbs (i.toInt - p).toNat

theorem toNat_placeDigit (n place : Nat) : (placeDigit n place).toNat = n / 10 ^ place % 10 := by
  have hall : ∀ d ∈ List.range 10, d.toUInt8.toNat = d := by decide
  exact hall _ (List.mem_range.mpr (Nat.mod_lt _ (by decide)))

theorem placeDigit_div (n lost place : Nat) :
    placeDigit (n / 10 ^ lost) place = placeDigit n (lost + place) := by
  rw [placeDigit, placeDigit, Nat.div_div_eq_div_mul, ← Nat.pow_add]

theorem packedCell_shift {i j width : Word} (flagFirst : Bool) (n : Word) {p shift : Nat}
    (h : j.toInt = i.toInt + shift) :
    packedCell j width flagFirst n (p + shift) = packedCell i width flagFirst n p := by
  have hlast : ((p + shift : Nat) : Int) = j.toInt ↔ (p : Int) = i.toInt := by omega
  have hfirst : ((p + shift : Nat) : Int) = j.toInt - width.toInt + 1 ↔
      (p : Int) = i.toInt - width.toInt + 1 := by omega
  have hplace : j.toInt - (p + shift : Nat) = i.toInt - p := by omega
  unfold packedCell
  rw [hplace]
  simp only [hlast, hfirst]

namespace Value

variable {v w : Value} {i j width n : Word} {p : Nat}

/-! ## Digits -/

theorem lowByte_mod_ten {n : Word} (hn : 0 ≤ n.toInt) :
    (n % 10).lowByte = placeDigit n.toInt.toNat 0 := by
  have hmod := Word.toInt_mod_ten hn
  have hall : ([0, 1, 2, 3, 4, 5, 6, 7, 8, 9] : List Word).all
      (fun d => d.lowByte == d.toInt.toNat.toUInt8) = true := by decide
  have hbyte : (n % 10).lowByte = (n % 10).toInt.toNat.toUInt8 := by
    simpa using List.all_eq_true.mp hall _ (Word.eq_digit (a := n % 10) (by omega) (by omega))
  rw [hbyte, placeDigit, Nat.pow_zero, Nat.div_one,
    show (n % 10).toInt.toNat = n.toInt.toNat % 10 by omega]

/-- **Writing digits, cell by cell.** Positions that are not there change nothing at those that
are. -/
theorem getElem?_putDigits (width : Nat) (i : Word) {n : Word} (hn : 0 ≤ n.toInt) (v : Value)
    (p : Nat) : (putDigits width i n v)[p]? =
      if p ≤ i.toInt ∧ i.toInt < p + width then
        v[p]?.map fun _ => placeDigit n.toInt.toNat (i.toInt - p).toNat
      else v[p]? := by
  induction width generalizing i n v with
  | zero => rw [putDigits, if_neg (by omega)]
  | succ width ih =>
    rw [putDigits]
    by_cases hi : i < 0
    · have hneg : i.toInt < 0 := by rwa [Int64.lt_iff_toInt_lt] at hi
      rw [if_pos hi, if_neg (by omega)]
    · have hpos : 0 ≤ i.toInt := by rwa [Int64.lt_iff_toInt_lt, Int.not_lt] at hi
      have hone : (1 : Word).toInt = 1 := rfl
      have hlt := i.toInt_lt
      have hpred : (i - 1).toInt = i.toInt - 1 := by
        rw [Word.toInt_sub_of (by omega) (by omega), hone]
      have hdiv := Word.toInt_div_ten hn
      rw [if_neg hi, ih _ (by omega), hpred, getElem?_modifyAt,
        show (n / 10).toInt.toNat = n.toInt.toNat / 10 ^ 1 by omega]
      -- At the digit just written, among the others, and elsewhere.
      by_cases hat : (p : Int) = i.toInt
      · simp only [hat, if_true]
        rw [if_neg (by omega), if_pos (by omega), lowByte_mod_ten hn, Int.sub_self]
        rfl
      · simp only [hat, if_false, Option.map_id_fun', id]
        split_ifs with hrest hfield hfield
        · rw [placeDigit_div, show 1 + (i.toInt - 1 - p).toNat = (i.toInt - p).toNat by omega]
        · omega
        · omega
        · rfl

/-! ## Flags -/

theorem getElem?_ite_flag (c : Prop) [Decidable c] (v : Value) (i : Word) (p : Nat) :
    (if c then v.flag i else v)[p]? =
      v[p]?.map fun d => if p = i.toInt ∧ c then d.flagged else d := by
  by_cases hc : c
  · simp [hc, getElem?_flag]
  · simp [hc]

theorem ite_flagged (a b : Prop) [Decidable a] [Decidable b] (d : Cell) :
    (if b then (if a then d.flagged else d).flagged else if a then d.flagged else d) =
      if a ∨ b then d.flagged else d := by
  by_cases ha : a <;> by_cases hb : b <;> simp [ha, hb, flagged_flagged]

/-! ## Fields -/

theorem toInt_start (hwidth : 1 ≤ width) (hstart : -2 ^ 63 ≤ i.toInt - width.toInt + 1) :
    (i - width + 1).toInt = i.toInt - width.toInt + 1 := by
  have hpos : 1 ≤ width.toInt := Int64.le_iff_toInt_le.mp hwidth
  have hone : (1 : Word).toInt = 1 := rfl
  have hi := i.toInt_lt
  have hlt := width.toInt_lt
  have hless : (width - 1).toInt = width.toInt - 1 := by
    rw [Word.toInt_sub_of (by omega) (by omega), hone]
  rw [show i - width + 1 = i - (width - 1) by grind, Word.toInt_sub_of (by omega) (by omega), hless]
  omega

/-- **Packing, cell by cell**: each cell of the field is what its place in the field makes it, and
every other cell stays. -/
theorem getElem?_setField (flagFirst : Bool) (hwidth : 1 ≤ width) (hn : n ≠ Int64.minValue)
    (hstart : -2 ^ 63 ≤ i.toInt - width.toInt + 1) (v : Value) (p : Nat) :
    (v.setField i width flagFirst n)[p]? =
      if InField i width p then v[p]?.map fun _ => packedCell i width flagFirst n p else v[p]? := by
  have hpos : 1 ≤ width.toInt := Int64.le_iff_toInt_le.mp hwidth
  have hsome : width ≠ 0 := by
    rintro rfl
    exact absurd hpos (by decide)
  have hmagnitude := toInt_magnitude hn
  have hfield : ((p : Int) ≤ i.toInt ∧ i.toInt < p + width.toNatClampNeg) ↔ InField i width p := by
    rw [InField, Int64.toNatClampNeg]
    omega
  unfold setField
  rw [if_neg hsome]
  dsimp only
  rw [getElem?_ite_flag, getElem?_ite_flag, getElem?_putDigits _ _ (by omega),
    toInt_start hwidth hstart, hmagnitude, Int.toNat_natCast]
  simp only [hfield]
  by_cases hp : InField i width p
  · rw [if_pos hp, if_pos hp]
    cases v[p]? with
    | none => rfl
    | some c =>
      simp only [Option.map_some]
      rw [ite_flagged, packedCell]
  · have hlast : (p : Int) ≠ i.toInt := fun heq => hp ⟨by omega, by omega⟩
    have hfirst : (p : Int) ≠ i.toInt - width.toInt + 1 := fun heq => hp ⟨by omega, by omega⟩
    rw [if_neg hp, if_neg hp]
    simp [hlast, hfirst]

/-- The cells of a field that are there are those of the same field in a row that has all of it. -/
theorem setField_shift {shift : Nat} (flagFirst : Bool) (hwidth : 1 ≤ width)
    (hn : n ≠ Int64.minValue) (hj : w.HasField j width) (hshift : j.toInt = i.toInt + shift)
    (hp : p < v.length) (hfield : InField i width p) :
    (v.setField i width flagFirst n)[p]? = (w.setField j width flagFirst n)[p + shift]? := by
  obtain ⟨hfirst, hlast⟩ := hj
  have hlo := hfield.1
  have hhi := hfield.2
  have hlt := width.toInt_lt
  have hmoved : InField j width (p + shift) := ⟨by omega, by omega⟩
  rw [getElem?_setField flagFirst hwidth hn (by omega), if_pos hfield,
    getElem?_setField flagFirst hwidth hn (by omega), if_pos hmoved,
    packedCell_shift flagFirst n hshift, List.getElem?_eq_getElem hp,
    List.getElem?_eq_getElem (by omega : p + shift < w.length)]
  rfl

/-- A field gives back the number that was packed into it, as far as it has digits for it. -/
theorem field_setField {flagFirst : Bool} (hv : v.length < 2 ^ 63) (hwidth : 1 ≤ width)
    (hn : n ≠ Int64.minValue) (hfield : v.HasField i width)
    (hsingle : ¬ (flagFirst = true ∧ width = 1)) :
    ∃ r, (v.setField i width flagFirst n).field i width = .ok r ∧
      r.toInt = n.toInt.sign * ↑(n.toInt.natAbs % 10 ^ width.toNatClampNeg) := by
  obtain ⟨hfirst, hlast⟩ := hfield
  have hpos : 1 ≤ width.toInt := Int64.le_iff_toInt_le.mp hwidth
  obtain ⟨k, hk, rfl⟩ := Word.exists_ofNat (a := i) (by omega)
  obtain ⟨m, hm, rfl⟩ := Word.exists_ofNat (a := width) (by omega)
  rw [Int64.toInt_ofNat_of_lt hk, Int64.toInt_ofNat_of_lt hm] at hfirst
  rw [Int64.toInt_ofNat_of_lt hk] at hlast
  rw [Int64.toInt_ofNat_of_lt hm] at hpos
  -- A flag on the high-order digit is no sign, since that digit is another one than the last.
  have hsign : k ∈ signFlags k n ++ (if flagFirst then [k + 1 - m] else []) ↔ n < 0 := by
    have hother : flagFirst = true → k ≠ k + 1 - m := by
      intro hflag heq
      refine hsingle ⟨hflag, ?_⟩
      rw [show m = 1 by omega]
      rfl
    simp only [signFlags, List.mem_append, List.mem_ite_nil_right, List.mem_singleton, and_true]
    exact or_iff_left fun h => hother h.1 h.2
  rw [setField_eq flagFirst n (by omega) (by omega) (by omega) hv, Word.clamp_ofNat hm]
  exact field_mark_mod rfl (by simp; omega) (by simp; omega) (by omega) hn hsign

end Value

/-! ## Packing -/

/-- **A number is packed into its field, and nothing else changes.** Rows have fewer than `2 ^ 63`
cells, so that their positions are words. The cells beside the field stay, as long as its positions
are words too. If the row has all of them, each cell of the field holds the digit of its place,
flagged at the low-order position of a negative number and, if that is asked for, at the high-order
position; and the field gives back the number with its sign, as far as it has digits for it. A row
that has only a part of the field is written there as a row that has all of it. -/
theorem field_packed {v : Value} {i width n : Word} (flagFirst : Bool) (hv : v.length < 2 ^ 63)
    (hwidth : 1 ≤ width) (hn : n ≠ Int64.minValue) :
    (-2 ^ 63 ≤ i.toInt - width.toInt + 1 →
      ∀ p, ¬ InField i width p → (v.setField i width flagFirst n)[p]? = v[p]?) ∧
    (v.HasField i width →
      (∀ p, InField i width p → ∃ d : Cell,
        d.toNat = n.toInt.natAbs / 10 ^ (i.toInt - p).toNat % 10 ∧
        (v.setField i width flagFirst n)[p]? =
          some (if (p = i.toInt ∧ n < 0) ∨ (p = i.toInt - width.toInt + 1 ∧ flagFirst = true) then
            d.flagged else d)) ∧
      (¬ (flagFirst = true ∧ width = 1) → ∃ r,
        (v.setField i width flagFirst n).field i width = .ok r ∧
        r.toInt = n.toInt.sign * ↑(n.toInt.natAbs % 10 ^ width.toNatClampNeg))) ∧
    ∀ (w : Value) (j : Word) (shift : Nat), w.HasField j width → j.toInt = i.toInt + shift →
      ∀ p < v.length, InField i width p →
        (v.setField i width flagFirst n)[p]? = (w.setField j width flagFirst n)[p + shift]? := by
  refine ⟨fun hstart p hp => ?_, fun hfield => ⟨fun p hp => ?_, fun hsingle => ?_⟩,
    fun w j shift hj hshift p hlt hp => ?_⟩
  · rw [Value.getElem?_setField flagFirst hwidth hn hstart, if_neg hp]
  · obtain ⟨hfirst, hlast⟩ := hfield
    have hlt : p < v.length := by
      have hle := hp.2
      omega
    refine ⟨placeDigit n.toInt.natAbs (i.toInt - p).toNat, toNat_placeDigit _ _, ?_⟩
    rw [Value.getElem?_setField flagFirst hwidth hn (by omega), if_pos hp,
      List.getElem?_eq_getElem hlt, Option.map_some, packedCell]
  · exact Value.field_setField hv hwidth hn hfield hsingle
  · exact Value.setField_shift flagFirst hwidth hn hj hshift hlt hp

/-- A row with marks, flags and a cell that nothing was stored in. -/
def motleyRow : Value := [0x0A, 0xE0, 7, 0x13, 5, 0x1F, 2, 0x0F]

theorem field_packed_motleyRow :
    motleyRow.HasField 5 4 ∧
      motleyRow.setField 5 4 true (-12345) = [0x0A, 0xE0, 0x12, 3, 4, 0x15, 2, 0x0F] ∧
      (motleyRow.setField 5 4 true (-12345))[6]? = motleyRow[6]? ∧
      (∃ r, (motleyRow.setField 5 4 true (-12345)).field 5 4 = .ok r ∧ r.toInt = -2345) ∧
      ∀ p < 2, InField 2 4 p → (Value.setField [9, 9] 2 4 true (-12345))[p]? =
        (motleyRow.setField 5 4 true (-12345))[p + 3]? := by
  have hfield : motleyRow.HasField 5 4 := by decide
  obtain ⟨hframe, hpacked, -⟩ := @field_packed motleyRow 5 4 (-12345) true (by decide) (by decide)
    (by decide)
  obtain ⟨-, -, hclipped⟩ := @field_packed [9, 9] 2 4 (-12345) true (by decide) (by decide)
    (by decide)
  refine ⟨hfield, by decide, hframe (by decide) 6 (by decide), (hpacked hfield).2 (by decide), ?_⟩
  exact hclipped motleyRow 5 3 hfield (by decide)

end SpsAssembler
