import Mathlib.Data.List.Forall2
import Mathlib.Data.Nat.Digits.Defs
import SpsAssembler.Proofs.Encoding

/-!
# The digits of fields

Flags apart, a value is a row of decimal digits. Flags change none of them, and a number that is
written into a field changes those of the field only. A field has room for the last digits of a
number, so it spells the number if that has no more of them.

* `Value.digits`, `Spells`: the digits of cells and the number that digits spell;
* `Value.digits_setIndexFlags`, `Value.digits_setFlags`: flags change no digit;
* **`Value.digits_setField`**: a field spells the number that was written into it;
* `NumericField`, `NumericField.Holds`: a field of a statement, and the digits in it;
* `Value.Carries`, **`Value.Carries.setField`**: fields that are written one behind the other.
-/

namespace SpsAssembler

/-- Decimal digits, the low-order one last, spell a number. -/
def Spells (digits : List Nat) (n : Nat) : Prop :=
  (∀ d ∈ digits, d < 10) ∧ Nat.ofDigits 10 digits.reverse = n

instance (digits : List Nat) (n : Nat) : Decidable (Spells digits n) := by
  unfold Spells; infer_instance

theorem spells_nil : Spells [] 0 := ⟨by simp, rfl⟩

theorem Spells.snoc {digits : List Nat} {n d : Nat} (h : Spells digits n) (hd : d < 10) :
    Spells (digits ++ [d]) (10 * n + d) := by
  refine ⟨List.forall_mem_append.mpr ⟨h.1, by simpa using hd⟩, ?_⟩
  rw [List.reverse_append, List.reverse_singleton, List.singleton_append, Nat.ofDigits_cons, h.2]
  exact Nat.add_comm d (10 * n)

namespace Value

/-- The digits of cells, whether they are flagged or not. -/
def digits (v : Value) : List Nat := v.map fun c => (Cell.digit c).toNat

variable {v w : Value}

@[simp] theorem length_digits (v : Value) : v.digits.length = v.length := List.length_map _

theorem digits_append (v w : Value) : digits (v ++ w) = v.digits ++ w.digits := List.map_append

theorem digits_replicate (n : Nat) : digits (List.replicate n 0) = List.replicate n 0 := by
  simp [digits, Cell.digit]

/-! ## Flags -/

theorem digit_flagged : ∀ c : Cell, (Cell.flagged c).digit = c.digit := by
  refine forall_cell ?_
  decide +kernel

@[simp] theorem digits_flag (v : Value) (i : Word) : (v.flag i).digits = v.digits := by
  refine List.ext_getElem? fun k => ?_
  simp only [digits, List.getElem?_map, getElem?_flag]
  cases v[k]? with
  | none => rfl
  | some c =>
    rw [Option.map_some, Option.map_some, Option.map_some]
    split
    · rw [digit_flagged]
    · rfl

@[simp] theorem digits_setIndexFlags (v : Value) (i reg : Word) :
    (v.setIndexFlags i reg).digits = v.digits := by
  unfold setIndexFlags
  dsimp only
  split <;> split <;> split <;> simp

theorem digits_flagListed (listed : Text) (v : Value) :
    (flagListed listed v).digits = v.digits := by
  fun_induction flagListed listed v with
  | case1 => rfl
  | case2 => exact digits_flag _ _
  | case3 _ _ _ _ _ ih => rw [ih, digits_flag]
  | case4 _ _ _ _ _ _ ih => rw [ih, digits_flag]
  | case5 _ _ _ _ _ _ ih => rw [ih, digits_flag]

theorem digits_setFlags {listed : Text} (h : v.setFlags listed = some w) : w.digits = v.digits := by
  unfold setFlags at h
  split at h
  · cases h
    rfl
  · split at h
    · cases h
      exact digits_flagListed _ _
    · cases h

/-! ## Numbers -/

/-- The last digits of a number spell what is left of it without the others. -/
theorem spells_digitsOf_mod (width : Nat) {n : Word} (hlo : 0 ≤ n.toInt) :
    Spells (digitsOf width n).digits (n.toInt.toNat % 10 ^ width) := by
  induction width generalizing n with
  | zero =>
    rw [Nat.pow_zero, Nat.mod_one]
    exact spells_nil
  | succ width ih =>
    have hdiv := Word.toInt_div_ten hlo
    have hmod := Word.toInt_mod_ten hlo
    have hrest := ih (n := n / 10) (by omega)
    have hlast : (Cell.digit (n % 10).lowByte).toNat = n.toInt.toNat % 10 := by
      have hdigit := congrArg Int64.toInt
        (lowByte_digit (n := n % 10) (by omega) (by omega)).1
      have hlt := (Cell.digit (n % 10).lowByte).toNat_lt
      rw [Int64.toInt_ofNat_of_lt (by omega), hmod] at hdigit
      omega
    have hsnoc := hrest.snoc (Nat.mod_lt n.toInt.toNat (by decide : 0 < 10))
    rw [digitsOf, digits_append, Nat.pow_succ', Nat.mod_mul, Nat.add_comm]
    rw [show (n / 10).toInt.toNat = n.toInt.toNat / 10 by omega] at hsnoc
    rwa [← hlast] at hsnoc ⊢

theorem spells_digitsOf {width : Nat} {n : Word} (hlo : 0 ≤ n.toInt)
    (hhi : n.toInt < 10 ^ width) : Spells (digitsOf width n).digits n.toInt.toNat := by
  have hspells := spells_digitsOf_mod width hlo
  rwa [Nat.mod_eq_of_lt (by zify; omega)] at hspells

theorem toInt_magnitude {n : Word} (h : n ≠ Int64.minValue) :
    (magnitude n).toInt = n.toInt.natAbs := by
  unfold magnitude
  have hneg := Word.toInt_neg_of h
  have hzero : (0 : Word).toInt = 0 := rfl
  split <;> rename_i hsign <;> rw [Int64.lt_iff_toInt_lt] at hsign <;> omega

/-- **A field spells the number that was written into it**, if the number has a magnitude of no more
digits, and the digits on both sides stay. -/
theorem digits_setField {pre mid post : List Nat} {i width n : Word} (flagFirst : Bool)
    (hv : v.digits = pre ++ mid ++ post) (hlength : v.length < 2 ^ 63)
    (hi : i.toInt = pre.length + mid.length - 1) (hwidth : width.toInt = mid.length) :
    ∃ part, (v.setField i width flagFirst n).digits = pre ++ part ++ post ∧
      part.length = mid.length ∧ (n ≠ Int64.minValue → n.toInt.natAbs < 10 ^ mid.length →
        Spells part n.toInt.natAbs) := by
  have hcells : v.length = pre.length + mid.length + post.length := by
    rw [← length_digits, hv, List.length_append, List.length_append]
  unfold setField
  by_cases hnone : width = 0
  · have hmid : mid = [] := by
      rw [hnone, show (0 : Word).toInt = 0 from rfl] at hwidth
      exact List.length_eq_zero_iff.mp (by omega)
    subst hmid
    refine ⟨[], by rw [if_pos hnone, hv], rfl, fun _ hsmall => ?_⟩
    rw [Nat.lt_one_iff.mp hsmall]
    exact spells_nil
  · have hpos : 0 < mid.length := by
      refine Nat.pos_of_ne_zero fun hzero => hnone (Int64.toInt_inj.mp ?_)
      rw [hwidth, hzero]
      rfl
    have hplace : i = Int64.ofNat (pre.length + mid.length - 1) := by
      apply Int64.toInt_inj.mp
      rw [hi, Int64.toInt_ofNat_of_lt (by omega)]
      omega
    have hclamp : width.toNatClampNeg = mid.length := by
      rw [Int64.toNatClampNeg, hwidth]
      rfl
    refine ⟨(digitsOf mid.length (magnitude n)).digits, ?_, by simp, fun hmin hsmall => ?_⟩
    · rw [if_neg hnone, hclamp]
      have hput : (putDigits mid.length i (magnitude n) v).digits =
          pre ++ (digitsOf mid.length (magnitude n)).digits ++ post := by
        rw [hplace, putDigits_eq _ (by omega) (by omega) hlength, digits_append, digits_append]
        have hbefore : digits (v.take (pre.length + mid.length - 1 + 1 - mid.length)) = pre := by
          rw [show pre.length + mid.length - 1 + 1 - mid.length = pre.length by omega]
          unfold digits at hv ⊢
          rw [List.map_take, hv, List.append_assoc, List.take_left]
        have hbehind : digits (v.drop (pre.length + mid.length - 1 + 1)) = post := by
          rw [show pre.length + mid.length - 1 + 1 = (pre ++ mid).length by simp; omega]
          unfold digits at hv ⊢
          rw [List.map_drop, hv, List.drop_left]
        rw [hbefore, hbehind]
      dsimp only
      split <;> split <;> simp [hput]
    · have hmagnitude := toInt_magnitude hmin
      have hspells : Spells (digitsOf mid.length (magnitude n)).digits (magnitude n).toInt.toNat :=
        spells_digitsOf (by omega) (by rw [hmagnitude]; exact_mod_cast hsmall)
      rwa [hmagnitude, Int.toNat_natCast] at hspells

end Value

theorem digits_putAddress (v : Value) (i : Word) (flagFirst : Bool) (address : Word)
    (index : Index) :
    (putAddress v i flagFirst address index).digits =
      (v.setField i 5 flagFirst address).digits := by
  simp [putAddress]

/-! ## Fields of a statement -/

/-- A field of a statement: how many digits it has, the operand that goes into it and the number
that it is to spell. Nothing keeps the operand of a field that is not `checked` from having more
digits. -/
structure NumericField where
  width : Nat
  operand : Word
  number : Nat
  checked : Bool
  deriving DecidableEq, Repr

namespace NumericField

variable {f : NumericField} {n : Word}

/-- A field for the magnitude of an operand. -/
def magnitude (width : Nat) (operand : Word) (checked : Bool) : NumericField :=
  { width, operand, number := operand.toInt.natAbs, checked }

/-- Digits are those of the field, and spell its number. Nothing is said about the least word, which
has no magnitude, and about a number that is not checked and has more digits than the field. -/
def Holds (f : NumericField) (part : List Nat) : Prop :=
  part.length = f.width ∧ (f.operand ≠ Int64.minValue →
    (f.checked = false → f.number < 10 ^ f.width) → Spells part f.number)

/-- A word is what goes into the field. -/
def Given (f : NumericField) (n : Word) : Prop :=
  f.operand ≠ Int64.minValue → n ≠ Int64.minValue ∧ n.toInt.natAbs = f.number ∧
    (f.checked = true → f.number < 10 ^ f.width)

/-- **Writing what goes into a field** makes it hold. -/
theorem Given.written (h : f.Given n) {v : Value} {pre mid post : List Nat} {i width : Word}
    (flagFirst : Bool) (hv : v.digits = pre ++ mid ++ post) (hlength : v.length < 2 ^ 63)
    (hmid : mid.length = f.width) (hi : i.toInt = pre.length + f.width - 1)
    (hwidth : width.toInt = f.width) :
    ∃ part, f.Holds part ∧ (v.setField i width flagFirst n).digits = pre ++ part ++ post := by
  obtain ⟨part, hpart, hsize, hspells⟩ := Value.digits_setField (n := n) flagFirst hv hlength
    (by rw [hi, hmid]) (by rw [hwidth, hmid])
  refine ⟨part, ⟨hsize.trans hmid, fun hoperand hunchecked => ?_⟩, hpart⟩
  obtain ⟨hmin, hnumber, hchecked⟩ := h hoperand
  rw [hnumber, hmid] at hspells
  refine hspells hmin ?_
  cases hc : f.checked with
  | true => exact hchecked hc
  | false => exact hunchecked hc

theorem length_flatten {fields : List NumericField} {parts : List (List Nat)}
    (h : List.Forall₂ Holds fields parts) : parts.flatten.length = (fields.map width).sum := by
  induction h with
  | nil => rfl
  | cons hpart _ ih =>
    rw [List.flatten_cons, List.length_append, hpart.1, ih, List.map_cons, List.sum_cons]

end NumericField

namespace Value

open NumericField (Holds Given)

variable {v w : Value} {fields more : List NumericField} {f : NumericField} {rest : Nat}

/-- Fields stand in a value one behind the other, with `rest` zeros behind them. -/
def Carries (v : Value) (fields : List NumericField) (rest : Nat) : Prop :=
  ∃ parts, List.Forall₂ Holds fields parts ∧ v.digits = parts.flatten ++ List.replicate rest 0

theorem carries_replicate (n : Nat) : Carries (List.replicate n 0) [] n :=
  ⟨[], .nil, digits_replicate n⟩

theorem carries_nil (h : ∀ f ∈ fields, f.width = 0 ∧ f.checked = false) : Carries [] fields 0 := by
  induction fields with
  | nil => exact carries_replicate 0
  | cons f fields ih =>
    obtain ⟨⟨hwidth, hchecked⟩, hrest⟩ := List.forall_mem_cons.mp h
    obtain ⟨parts, hparts, hdigits⟩ := ih hrest
    refine ⟨[] :: parts, .cons ⟨hwidth.symm, fun _ hsmall => ?_⟩ hparts, hdigits⟩
    have hzero := hsmall hchecked
    rw [hwidth, Nat.pow_zero, Nat.lt_one_iff] at hzero
    rw [hzero]
    exact spells_nil

theorem Carries.of_digits (h : v.Carries fields rest) (hw : w.digits = v.digits) :
    w.Carries fields rest := by
  unfold Carries
  rwa [hw]

theorem Carries.length_eq (h : v.Carries fields rest) :
    v.length = (fields.map NumericField.width).sum + rest := by
  obtain ⟨parts, hparts, hdigits⟩ := h
  rw [← length_digits, hdigits, List.length_append, NumericField.length_flatten hparts,
    List.length_replicate]

/-- **Writing the next field.** -/
theorem Carries.setField (h : v.Carries fields (f.width + rest)) {i width n : Word}
    (hn : f.Given n) (flagFirst : Bool) (hlength : v.length < 2 ^ 63)
    (hi : i.toInt = (fields.map NumericField.width).sum + f.width - 1)
    (hwidth : width.toInt = f.width) :
    (v.setField i width flagFirst n).Carries (fields ++ [f]) rest := by
  obtain ⟨parts, hparts, hdigits⟩ := h
  have hsplit : v.digits = parts.flatten ++ List.replicate f.width 0 ++ List.replicate rest 0 := by
    rw [hdigits, List.append_assoc, List.replicate_append_replicate]
  obtain ⟨part, hpart, hwritten⟩ := hn.written flagFirst hsplit hlength List.length_replicate
    (by rw [hi, NumericField.length_flatten hparts]) hwidth
  refine ⟨parts ++ [part], List.rel_append hparts (.cons hpart .nil), ?_⟩
  rw [hwritten, List.flatten_append, List.flatten_singleton]

theorem Carries.take (h : v.Carries (fields ++ more) rest) {n : Nat}
    (hn : n = (fields.map NumericField.width).sum) : Carries (v.take n) fields 0 := by
  obtain ⟨parts, hparts, hdigits⟩ := h
  have hfirst := List.forall₂_take fields.length hparts
  rw [List.take_left] at hfirst
  refine ⟨parts.take fields.length, hfirst, ?_⟩
  rw [← List.take_append_drop fields.length parts, List.flatten_append,
    List.append_assoc] at hdigits
  unfold digits at hdigits ⊢
  rw [List.map_take, hdigits, hn, ← NumericField.length_flatten hfirst, List.take_left]
  simp

end Value

end SpsAssembler
