import Mathlib.Algebra.Group.Int.Defs
import Mathlib.Algebra.Group.Nat.Defs
import SpsAssembler.Machine.Cell

/-!
# Words as numbers, and numbers in fields

Words wrap, but sums that stay in range are sums of integers. A number that fits into the digits of
a field is read back from them.

* `Word.toInt_add_of`, `Word.toInt_sub_of`, `Word.toInt_mul_of`: arithmetic that does not wrap;
* `Value.digitsOf`: the digits of a number;
* `Value.getElem?_modifyAt`, `Value.putDigits_eq`, `Value.field_eq`: what is written at a position and
  into a field, and what is read from it;
* `Value.toInt_number_digitsOf`, **`Value.number_digitsOf`**: a number is read back from its digits;
* `Value.getElem?_flag`: one flag.
-/

namespace SpsAssembler

namespace Word

variable {a b : Word}

theorem toInt_add_of (hlo : -2 ^ 63 ≤ a.toInt + b.toInt) (hhi : a.toInt + b.toInt < 2 ^ 63) :
    (a + b).toInt = a.toInt + b.toInt := by
  rw [Int64.toInt_add]
  exact Int.bmod_eq_of_le (by omega) (by omega)

theorem toInt_sub_of (hlo : -2 ^ 63 ≤ a.toInt - b.toInt) (hhi : a.toInt - b.toInt < 2 ^ 63) :
    (a - b).toInt = a.toInt - b.toInt := by
  rw [Int64.toInt_sub]
  exact Int.bmod_eq_of_le (by omega) (by omega)

theorem toInt_neg_of (h : a ≠ Int64.minValue) : (-a).toInt = -a.toInt := by
  have hlo := a.le_toInt
  have hhi := a.toInt_lt
  have hne : a.toInt ≠ -2 ^ 63 := fun heq => h (Int64.toInt_inj.mp heq)
  rw [Int64.toInt_neg]
  exact Int.bmod_eq_of_le (by omega) (by omega)

theorem toInt_mul_of (hlo : -2 ^ 63 ≤ a.toInt * b.toInt) (hhi : a.toInt * b.toInt < 2 ^ 63) :
    (a * b).toInt = a.toInt * b.toInt := by
  rw [Int64.toInt_mul]
  exact Int.bmod_eq_of_le (by omega) (by omega)

theorem toInt_div_ten (h : 0 ≤ a.toInt) : (a / 10).toInt = a.toInt / 10 := by
  have ha := a.toInt_lt
  rw [Int64.toInt_div, show (10 : Word).toInt = 10 from rfl, Int.tdiv_eq_ediv_of_nonneg h]
  exact Int.bmod_eq_of_le (by omega) (by omega)

theorem toInt_mod_ten (h : 0 ≤ a.toInt) : (a % 10).toInt = a.toInt % 10 := by
  rw [Int64.toInt_mod, show (10 : Word).toInt = 10 from rfl, Int.tmod_eq_emod_of_nonneg h]

theorem clamp_ofNat {n : Nat} (h : n < 2 ^ 63) : (Int64.ofNat n).toNatClampNeg = n := by
  rw [Int64.toNatClampNeg, Int64.toInt_ofNat_of_lt h]
  rfl

theorem not_ofNat_neg {n : Nat} (h : n < 2 ^ 63) : ¬ Int64.ofNat n < 0 := by
  rw [Int64.lt_iff_toInt_lt, Int64.toInt_ofNat_of_lt h, show (0 : Word).toInt = 0 from rfl]
  omega

theorem toInt_eq_clamp (h : 0 ≤ a.toInt) : a.toInt = a.toNatClampNeg :=
  (Int.toNat_of_nonneg h).symm

theorem exists_ofNat (h : 0 ≤ a.toInt) : ∃ n : Nat, n < 2 ^ 63 ∧ a = Int64.ofNat n := by
  have hlt := a.toInt_lt
  refine ⟨a.toInt.toNat, by omega, Int64.toInt_inj.mp ?_⟩
  rw [Int64.toInt_ofNat_of_lt (by omega)]
  omega

theorem eq_digit (hlo : 0 ≤ a.toInt) (hhi : a.toInt < 10) :
    a ∈ ([0, 1, 2, 3, 4, 5, 6, 7, 8, 9] : List Word) := by
  have h : a = Int64.ofInt a.toInt := (Int64.ofInt_toInt a).symm
  rw [h]
  generalize a.toInt = n at hlo hhi
  have hn : n = 0 ∨ n = 1 ∨ n = 2 ∨ n = 3 ∨ n = 4 ∨ n = 5 ∨ n = 6 ∨ n = 7 ∨ n = 8 ∨ n = 9 := by
    omega
  rcases hn with rfl | rfl | rfl | rfl | rfl | rfl | rfl | rfl | rfl | rfl <;> decide

end Word

/-- What is true of the first 256 numbers as cells is true of every cell. -/
theorem forall_cell {P : Cell → Prop} (h : ∀ n ∈ List.range 256, P n.toUInt8) : ∀ c, P c := by
  intro c
  have hc := h c.toNat (List.mem_range.mpr c.toNat_lt)
  rwa [show c.toNat.toUInt8 = c from UInt8.ofNat_toNat] at hc

namespace Value

/-- The `width` low digits of `n`, the low-order one last. -/
def digitsOf : Nat → Word → Value
  | 0, _ => []
  | width + 1, n => digitsOf width (n / 10) ++ [(n % 10).lowByte]

@[simp] theorem length_digitsOf (width : Nat) (n : Word) : (digitsOf width n).length = width := by
  induction width generalizing n with
  | zero => rfl
  | succ width ih => simp [digitsOf, ih]

/-- The number that digits spell. -/
def number (digits : Value) : Word :=
  digits.foldl (fun n c => n * 10 + Int64.ofNat c.digit.toNat) 0

theorem lowByte_digit {n : Word} (hlo : 0 ≤ n.toInt) (hhi : n.toInt < 10) :
    Int64.ofNat (Cell.digit n.lowByte).toNat = n ∧ Cell.isFlagged n.lowByte = false := by
  have hall : ([0, 1, 2, 3, 4, 5, 6, 7, 8, 9] : List Word).all (fun d =>
      Int64.ofNat (Cell.digit d.lowByte).toNat == d && !Cell.isFlagged d.lowByte) = true := by decide
  simpa using List.all_eq_true.mp hall n (Word.eq_digit hlo hhi)

theorem toInt_number_digitsOf (width : Nat) {n : Word} (hn : 0 ≤ n.toInt) :
    (number (digitsOf width n)).toInt = ↑(n.toInt.toNat % 10 ^ width) := by
  induction width generalizing n with
  | zero =>
    rw [Nat.pow_zero, Nat.mod_one]
    rfl
  | succ width ih =>
    have hdiv := Word.toInt_div_ten hn
    have hmod := Word.toInt_mod_ten hn
    have hlt := n.toInt_lt
    have hrest := ih (n := n / 10) (by omega)
    rw [show (n / 10).toInt.toNat = n.toInt.toNat / 10 by omega] at hrest
    -- The number never grows beyond `n`, so that nothing wraps.
    have hle := Nat.mod_le (n.toInt.toNat / 10) (10 ^ width)
    have hlast := (lowByte_digit (n := n % 10) (by omega) (by omega)).1
    have hsplit : number (digitsOf (width + 1) n) =
        number (digitsOf width (n / 10)) * 10 + n % 10 := by
      unfold number
      rw [digitsOf, List.foldl_append, List.foldl_cons, List.foldl_nil, hlast]
    have hten : (number (digitsOf width (n / 10)) * 10).toInt =
        (number (digitsOf width (n / 10))).toInt * 10 :=
      Word.toInt_mul_of (b := 10) (by rw [show (10 : Word).toInt = 10 from rfl]; omega)
        (by rw [show (10 : Word).toInt = 10 from rfl]; omega)
    rw [hsplit, Word.toInt_add_of (by omega) (by omega), hten, hrest, hmod, Nat.pow_succ',
      Nat.mod_mul]
    omega

theorem number_digitsOf {width : Nat} {n : Word} (hlo : 0 ≤ n.toInt)
    (hhi : n.toInt < 10 ^ width) : number (digitsOf width n) = n := by
  have hcast : ((10 ^ width : Nat) : Int) = 10 ^ width := Int.natCast_pow 10 width
  apply Int64.toInt_inj.mp
  rw [toInt_number_digitsOf width hlo, Nat.mod_eq_of_lt (by omega)]
  omega

/-! ## Positions -/

theorem modifyAt_eq (v : Value) (i : Word) (f : Cell → Cell) :
    v.modifyAt i f = if 0 ≤ i then v.modify i.toNatClampNeg f else v := by
  unfold modifyAt
  by_cases hi : 0 ≤ i
  · rw [if_pos hi]
    split
    · rename_i h
      rw [List.modify_eq_set, List.getElem?_eq_getElem h.2]
      rfl
    · rename_i h
      rw [List.modify_eq_self (Nat.not_lt.mp fun hlt => h ⟨hi, hlt⟩)]
  · rw [if_neg hi, dif_neg fun h => hi h.1]

@[simp] theorem length_modifyAt (v : Value) (i : Word) (f : Cell → Cell) :
    (v.modifyAt i f).length = v.length := by
  rw [modifyAt_eq]
  split
  · exact List.length_modify ..
  · rfl

theorem getElem?_modifyAt (v : Value) (i : Word) (f : Cell → Cell) (p : Nat) :
    (v.modifyAt i f)[p]? = v[p]?.map fun c => if p = i.toInt then f c else c := by
  rw [modifyAt_eq]
  split
  · rename_i hi
    have hplace : i.toNatClampNeg = p ↔ (p : Int) = i.toInt := by
      rw [Int64.le_iff_toInt_le, show (0 : Word).toInt = 0 from rfl] at hi
      rw [Int64.toNatClampNeg]
      omega
    rw [List.getElem?_modify]
    congr 1
    funext c
    simp only [hplace]
  · rename_i hi
    have hne : (p : Int) ≠ i.toInt := by
      rw [Int64.le_iff_toInt_le, show (0 : Word).toInt = 0 from rfl] at hi
      omega
    simp [hne]

theorem putDigits_eq {width i : Nat} (n : Word) {v : Value} (hi : i < v.length)
    (hwidth : width ≤ i + 1) (hv : v.length < 2 ^ 63) :
    putDigits width (Int64.ofNat i) n v =
      v.take (i + 1 - width) ++ digitsOf width n ++ v.drop (i + 1) := by
  induction width generalizing i n v with
  | zero => rw [putDigits, digitsOf, List.append_nil, Nat.sub_zero, List.take_append_drop]
  | succ width ih =>
    have hput : v.modifyAt (Int64.ofNat i) (fun _ => (n % 10).lowByte) =
        v.take i ++ (n % 10).lowByte :: v.drop (i + 1) := by
      rw [modifyAt_eq, if_pos (Int64.not_lt.mp (Word.not_ofNat_neg (by omega))),
        Word.clamp_ofNat (by omega), List.modify_eq_set, List.set_eq_take_append_cons_drop,
        if_pos hi]
    rw [putDigits, if_neg (Word.not_ofNat_neg (by omega)), hput]
    cases i with
    | zero =>
      obtain rfl : width = 0 := by omega
      rfl
    | succ i =>
      have hpred : Int64.ofNat (i + 1) - 1 = Int64.ofNat i :=
        (Int64.ofNat_sub (i + 1) 1 (by omega)).symm
      have hlength : (v.take (i + 1)).length = i + 1 := List.length_take_of_le (by omega)
      have hsize : (v.take (i + 1) ++ (n % 10).lowByte :: v.drop (i + 1 + 1)).length = v.length := by
        rw [List.length_append, hlength, List.length_cons, List.length_drop]
        omega
      rw [hpred, ih (n / 10) (by omega) (by omega) (by omega), digitsOf,
        List.take_append_of_le_length (by omega), List.take_take, List.drop_left' hlength,
        Nat.min_eq_left (by omega), Nat.add_sub_add_right]
      simp only [List.append_assoc, List.cons_append, List.nil_append]

/-- What a field spells: the number of its digits, negative if the last one is flagged. -/
theorem field_eq {width i : Nat} {v : Value} {last : Cell} (hlast : v[i]? = some last)
    (hpos : 0 < width) (hwidth : width ≤ i + 1) (hv : v.length < 2 ^ 63) :
    v.field (Int64.ofNat i) (Int64.ofNat width) =
      .ok (if last.isFlagged then -number ((v.take (i + 1)).drop (i + 1 - width))
        else number ((v.take (i + 1)).drop (i + 1 - width))) := by
  have hi : i < v.length := (List.getElem?_eq_some_iff.mp hlast).1
  have hword : (Int64.ofNat i).toInt = i := Int64.toInt_ofNat_of_lt (by omega)
  have hwidth' : (Int64.ofNat width).toInt = width := Int64.toInt_ofNat_of_lt (by omega)
  have hlength : (Word.ofLength v).toInt = v.length := Int64.toInt_ofNat_of_lt hv
  have hone : (1 : Word).toInt = 1 := rfl
  have hzero : (0 : Word).toInt = 0 := rfl
  have hsub : (Int64.ofNat i - Int64.ofNat width).toInt = (i : Int) - width := by
    rw [Word.toInt_sub_of (by omega) (by omega), hword, hwidth']
  have hstart : (Int64.ofNat i - Int64.ofNat width + 1).toInt = (i : Int) - width + 1 := by
    rw [Word.toInt_add_of (by omega) (by omega), hsub, hone]
  have hnat : (Int64.ofNat i).toNatClampNeg = i := Word.clamp_ofNat (by omega)
  have hnat' : (Int64.ofNat i - Int64.ofNat width + 1).toNatClampNeg = i + 1 - width := by
    rw [Int64.toNatClampNeg, hstart]
    omega
  have h1 : ¬ Int64.ofNat i < Int64.ofNat i - Int64.ofNat width + 1 := by
    rw [Int64.lt_iff_toInt_lt, hstart, hword]
    omega
  have h2 : ¬ Int64.ofNat i - Int64.ofNat width + 1 < 0 := by
    rw [Int64.lt_iff_toInt_lt, hstart, hzero]
    omega
  have h3 : ¬ Word.ofLength v ≤ Int64.ofNat i := by
    rw [Int64.le_iff_toInt_le, hlength, hword]
    omega
  have h4 : ¬ Int64.ofNat i < 0 := Word.not_ofNat_neg (by omega)
  unfold field
  simp only [h1, h2, h3, h4, if_false, decide_false, Bool.or_self, Bool.false_eq_true, hnat, hnat',
    hlast]
  rfl

/-! ## Flags -/

theorem getElem?_flag (v : Value) (i : Word) (p : Nat) :
    (v.flag i)[p]? = v[p]?.map fun c => if p = i.toInt then c.flagged else c :=
  v.getElem?_modifyAt i Cell.flagged p

/-! ## Lengths -/

@[simp] theorem length_flag (v : Value) (i : Word) : (v.flag i).length = v.length :=
  v.length_modifyAt i Cell.flagged

@[simp] theorem length_putDigits (width : Nat) (i n : Word) (v : Value) :
    (putDigits width i n v).length = v.length := by
  induction width generalizing i n v with
  | zero => rfl
  | succ width ih =>
    rw [putDigits]
    split
    · rfl
    · rw [ih, length_modifyAt]

@[simp] theorem length_setField (v : Value) (i width : Word) (flagFirst : Bool) (n : Word) :
    (v.setField i width flagFirst n).length = v.length := by
  unfold setField
  split
  · rfl
  · dsimp only
    split <;> split <;> simp

end Value

end SpsAssembler
