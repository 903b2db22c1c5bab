import SpsAssembler.Proofs.AlphaCodes
import SpsAssembler.Proofs.FlagLists

/-!
# The cells of numeric constants

The text of a numeric constant is a row of digits, perhaps with a minus in front of it and a record
mark behind it. Its digits are counted from the right: what a field has no room for is lost, and
what is missing is zero.

* `NumeralText`, `NumeralText.text`: the parts of such a text;
* `readNumeral`, `NumeralText.cells`: the digits that it stands for, and the cells of its field;
* `numeralParts`, **`text_numeralParts`**, `numeralParts_text`: taking a text apart;
* **`encodeNumber_cells`**: the constant of every text and every length;
* **`encodeNumber_oversized`**: a length that no store has.
-/

namespace SpsAssembler

/-! ## Texts and cells -/

/-- The parts of the text of a numeric constant. -/
structure NumeralText where
  negative : Bool := false
  digits : Text
  marked : Bool := false
  deriving DecidableEq, Repr

/-- The characters of digits; with `extended` also those of flagged digits. -/
def numeralAlphabet (extended : Bool) : Text :=
  ascii "0123456789" ++ if extended then ascii "]IJKLMNOPQR" else []

/-- The digit that a character stands for, and whether it is flagged. -/
def readNumeral (b : Byte) : Nat × Bool :=
  if b = ']'.toUInt8 then (0, true)
  else if b ∈ ascii "IJKLMNOPQR" then ((ascii "IJKLMNOPQR").idxOf b, true)
  else ((ascii "0123456789").idxOf b, false)

/-- The cell of a digit, flagged or not. -/
def digitCell (digit : Nat) (flagged : Bool) : Cell :=
  if flagged then Cell.flagged digit.toUInt8 else digit.toUInt8

namespace NumeralText

/-- The text that the parts make up. -/
def text (t : NumeralText) : Text :=
  (if t.negative then ascii "-" else []) ++ t.digits ++ if t.marked then ascii "@" else []

/-- All digits are of the alphabet. -/
def IsNumeral (extended : Bool) (t : NumeralText) : Prop :=
  ∀ b ∈ t.digits, b ∈ numeralAlphabet extended

/-- The number of cells for digits in a field of `n` cells. -/
def room (t : NumeralText) (n : Nat) : Nat := if t.marked then n - 1 else n

/-- The cell of the `i`th digit from the right; a minus flags the first of them. -/
def cell (t : NumeralText) (i : Nat) : Cell :=
  let read := t.digits.reverse[i]?.elim (0, false) readNumeral
  digitCell read.1 (read.2 || (t.negative && i == 0))

/-- The cells of a field of `n` cells. -/
def cells (t : NumeralText) (n : Nat) : Value :=
  ((List.range (t.room n)).map t.cell).reverse ++ if t.marked then [Cell.recordMark] else []

/-- The digits that a field of `n` cells has no room for. -/
def lost (t : NumeralText) (n : Nat) : Text := t.digits.take (t.digits.length - t.room n)

variable {t : NumeralText} {n : Nat}

theorem length_cells (t : NumeralText) (hpos : 0 < n) : (t.cells n).length = n := by
  unfold cells room
  rw [List.length_append, List.length_reverse, List.length_map, List.length_range]
  split
  · rw [List.length_singleton]
    omega
  · rfl

end NumeralText

theorem numeral_spec : ∀ b : Byte,
    (∀ extended, isNumeralByte extended b = true ↔ b ∈ numeralAlphabet extended) ∧
      (b ∈ numeralAlphabet true → numeralCell b = digitCell (readNumeral b).1 (readNumeral b).2 ∧
        b ≠ '-'.toUInt8 ∧ b ≠ '@'.toUInt8) := by
  refine forall_cell ?_
  decide +kernel

theorem NumeralText.isNumeral_iff {extended : Bool} {t : NumeralText} :
    t.IsNumeral extended ↔ t.digits.all (isNumeralByte extended) = true := by
  rw [IsNumeral, List.all_eq_true]
  exact forall₂_congr fun b _ => ((numeral_spec b).1 extended).symm

theorem mem_numeralAlphabet_true {extended : Bool} {b : Byte} (h : b ∈ numeralAlphabet extended) :
    b ∈ numeralAlphabet true := by
  cases extended with
  | true => exact h
  | false => exact List.mem_append_left _ (by simpa [numeralAlphabet] using h)

theorem flagged_digitCell (digit : Nat) (flagged : Bool) :
    (digitCell digit flagged).flagged = digitCell digit true := by
  cases flagged with
  | true => exact Value.flagged_flagged _
  | false => rfl

/-! ## Taking a text apart -/

/-- The parts that a text is taken for. -/
def numeralParts (text : Text) : NumeralText where
  negative := text.head? == some '-'.toUInt8
  digits := if text.head? == some '-'.toUInt8 then (unmarked text).drop 1 else unmarked text
  marked := isMarked text

theorem unmarked_append (text : Text) :
    unmarked text ++ (if isMarked text then ascii "@" else []) = text := by
  unfold unmarked
  split
  · rename_i hmarked
    exact List.dropLast_append_getLast? _ (beq_iff_eq.mp hmarked)
  · exact List.append_nil text

/-- **Every text is made up of the parts** that it is taken for. -/
theorem text_numeralParts (text : Text) : (numeralParts text).text = text := by
  have hwhole := unmarked_append text
  unfold NumeralText.text numeralParts
  dsimp only
  by_cases hnegative : text.head? = some '-'.toUInt8
  · -- The minus is no closing mark, so it is left in front of the digits.
    have hminus : ascii "-" ++ (unmarked text).drop 1 = unmarked text := by
      rw [← hwhole] at hnegative
      cases hbody : unmarked text with
      | nil =>
        rw [hbody, List.nil_append] at hnegative
        split at hnegative <;> exact absurd hnegative (by decide)
      | cons b body =>
        rw [hbody] at hnegative
        rw [Option.some.inj hnegative]
        rfl
    rw [if_pos (beq_iff_eq.mpr hnegative), if_pos (beq_iff_eq.mpr hnegative), hminus]
    exact hwhole
  · rw [if_neg (mt beq_iff_eq.mp hnegative), if_neg (mt beq_iff_eq.mp hnegative)]
    exact hwhole

section Parts

variable {extended : Bool} {t : NumeralText} (h : t.IsNumeral extended)

include h

theorem NumeralText.IsNumeral.ne {b : Byte} (hb : b ∈ t.digits) :
    b ≠ '-'.toUInt8 ∧ b ≠ '@'.toUInt8 :=
  ((numeral_spec b).2 (mem_numeralAlphabet_true (h b hb))).2

theorem isMarked_text : isMarked t.text = t.marked := by
  unfold NumeralText.text
  cases t.marked with
  | true => simp [isMarked, ascii]
  | false =>
    simp only [Bool.false_eq_true, if_false, List.append_nil]
    cases hlast : t.digits.getLast? with
    | none =>
      rw [List.getLast?_eq_none_iff.mp hlast, List.append_nil]
      cases t.negative <;> decide
    | some b =>
      have hne := (h.ne (List.mem_of_getLast? hlast)).2
      simp [isMarked, List.getLast?_append, hlast, hne]

theorem head?_text : (t.text.head? == some '-'.toUInt8) = t.negative := by
  unfold NumeralText.text
  cases t.negative with
  | true => rfl
  | false =>
    rw [if_neg (by decide), List.nil_append]
    cases hdigits : t.digits with
    | nil => cases t.marked <;> decide
    | cons b rest =>
      have hne := (h.ne (hdigits ▸ List.mem_cons_self)).1
      simp [hne]

/-- **The text of parts** is taken for these parts, if its digits are digits. -/
theorem numeralParts_text : numeralParts t.text = t := by
  have hunmarked : unmarked t.text = (if t.negative then ascii "-" else []) ++ t.digits := by
    have hwhole := unmarked_append t.text
    rw [isMarked_text h] at hwhole
    exact List.append_cancel_right hwhole
  have hdigits : (if t.negative then ((if t.negative then ascii "-" else []) ++ t.digits).drop 1
      else (if t.negative then ascii "-" else []) ++ t.digits) = t.digits := by
    cases t.negative <;> rfl
  unfold numeralParts
  rw [isMarked_text h, head?_text h, hunmarked, hdigits]

end Parts

/-! ## Encoding -/

section Encoding

variable {length : Word} {n : Nat}

theorem allocate_of_le (hlength : length.toInt = n) (hsize : n ≤ maxSize) :
    allocate length = .ok n := by
  have hneg : ¬ length < 0 := by
    rw [Int64.lt_iff_toInt_lt, hlength, show (0 : Word).toInt = 0 from rfl]
    omega
  have hclamp : length.toNatClampNeg = n := by
    rw [Int64.toNatClampNeg, hlength, Int.toNat_natCast]
  simp [allocate, hclamp, hneg, hsize]

theorem allocate_of_lt (hlength : length.toInt = n) (hsize : maxSize < n) :
    allocate length = .error .sizeOutOfRange := by
  have hclamp : length.toNatClampNeg = n := by
    rw [Int64.toNatClampNeg, hlength, Int.toNat_natCast]
  simp [allocate, hclamp, hsize]

/-- The cells that the digits of a constant are encoded as, before a mark. -/
def digitCells (room : Nat) (negative : Bool) (digits : Text) : Value :=
  let cells := List.replicate (room - digits.length) 0 ++
    (digits.drop (digits.length - room)).map numeralCell
  if negative then flagLast cells else cells

/-- A constant is encoded by the parts that its text is taken for. -/
theorem encodeNumber_parts (hallocate : allocate length = .ok n) (hpos : 0 < n) (extended : Bool)
    (text : Text) : encodeNumber length extended text =
      let t := numeralParts text
      let mark := if t.marked then [Cell.recordMark] else []
      if !t.digits.all (isNumeralByte extended) then
        .ok ⟨List.replicate (t.room n) 0 ++ mark, some (.invalidValue t.digits)⟩
      else
        .ok ⟨digitCells (t.room n) t.negative t.digits ++ mark,
          if (t.lost n).any (· != '0'.toUInt8) then some .tooLarge else none⟩ := by
  rw [encodeNumber_eq, hallocate]
  simp only [hpos, decide_true, Bool.and_true]
  rfl

/-- What stands right justified in a row, counted from the right. -/
theorem getElem?_justified {room j : Nat} (hj : j < room) (digits : Text) :
    (List.replicate (room - digits.length) 0 ++
      (digits.drop (digits.length - room)).map numeralCell)[j]? =
        some (digits.reverse[room - 1 - j]?.elim 0 numeralCell) := by
  by_cases hzero : j < room - digits.length
  · rw [List.getElem?_append_left (by rwa [List.length_replicate]),
      List.getElem?_replicate_of_lt hzero,
      List.getElem?_eq_none (by rw [List.length_reverse]; omega)]
    rfl
  · have hlt : room - 1 - j < digits.length := by omega
    rw [List.getElem?_append_right (by rw [List.length_replicate]; omega), List.length_replicate,
      List.getElem?_map, List.getElem?_drop, List.getElem?_reverse hlt,
      show digits.length - room + (j - (room - digits.length)) = digits.length - 1 - (room - 1 - j) by
        omega,
      List.getElem?_eq_getElem (by omega)]
    rfl

theorem length_justified (room : Nat) (digits : Text) :
    (List.replicate (room - digits.length) (0 : Cell) ++
      (digits.drop (digits.length - room)).map numeralCell).length = room := by
  rw [List.length_append, List.length_replicate, List.length_map, List.length_drop]
  omega

theorem NumeralText.cell_eq {extended : Bool} {t : NumeralText} (h : t.IsNumeral extended)
    (i : Nat) : t.cell i = if t.negative && i == 0 then (t.digits.reverse[i]?.elim 0 numeralCell).flagged
      else t.digits.reverse[i]?.elim 0 numeralCell := by
  have hcell : t.digits.reverse[i]?.elim 0 numeralCell =
      digitCell (t.digits.reverse[i]?.elim (0, false) readNumeral).1
        (t.digits.reverse[i]?.elim (0, false) readNumeral).2 := by
    cases hdigit : t.digits.reverse[i]? with
    | none => rfl
    | some b =>
      have hb : b ∈ t.digits := List.mem_reverse.mp (List.mem_of_getElem? hdigit)
      exact ((numeral_spec b).2 (mem_numeralAlphabet_true (h b hb))).1
  rw [hcell, cell]
  cases t.negative && i == 0 with
  | true => rw [Bool.or_true, if_pos rfl, flagged_digitCell]
  | false => rw [Bool.or_false, if_neg (by decide)]

/-- **The digits of a constant**, counted from the right. -/
theorem digitCells_eq {extended : Bool} {t : NumeralText} (h : t.IsNumeral extended) (room : Nat) :
    digitCells room t.negative t.digits = ((List.range room).map t.cell).reverse := by
  have hlength : (digitCells room t.negative t.digits).length = room := by
    unfold digitCells
    dsimp only
    split
    · rw [length_flagLast, length_justified]
    · exact length_justified room t.digits
  refine List.ext_getElem? fun j => ?_
  by_cases hj : j < room
  · have hright : ((List.range room).map t.cell).reverse[j]? = some (t.cell (room - 1 - j)) := by
      rw [List.getElem?_reverse (by simpa using hj), List.length_map, List.length_range,
        List.getElem?_map, List.getElem?_range (by omega)]
      rfl
    rw [hright, t.cell_eq h, digitCells]
    cases t.negative with
    | true =>
      rw [if_pos rfl, flagLast, length_justified, List.getElem?_modify, getElem?_justified hj]
      by_cases hlast : room - 1 = j
      · subst hlast
        simp
      · have hzero : room - 1 - j ≠ 0 := by omega
        simp [hlast, hzero]
    | false =>
      rw [if_neg (by decide), getElem?_justified hj]
      rfl
  · rw [List.getElem?_eq_none (by rw [hlength]; omega), List.getElem?_eq_none (by simpa using hj)]

/-- **The constant of a numeral** has its cells, and nothing is wrong but digits that are lost. -/
theorem encodeNumber_text (hallocate : allocate length = .ok n) (hpos : 0 < n) {extended : Bool}
    {t : NumeralText} (h : t.IsNumeral extended) : encodeNumber length extended t.text =
      .ok ⟨t.cells n, if (t.lost n).any (· != '0'.toUInt8) then some .tooLarge else none⟩ := by
  have hall := NumeralText.isNumeral_iff.mp h
  have hparts := encodeNumber_parts hallocate hpos extended t.text
  rw [numeralParts_text h] at hparts
  dsimp only at hparts
  rwa [hall, Bool.not_true, if_neg (by decide), digitCells_eq h, ← NumeralText.cells] at hparts

/-- **The constant of any other text** is empty. -/
theorem encodeNumber_invalid (hallocate : allocate length = .ok n) (hpos : 0 < n) {extended : Bool}
    {text : Text} (h : ¬ ∃ t : NumeralText, t.IsNumeral extended ∧ text = t.text) :
    encodeNumber length extended text =
      .ok ⟨if isMarked text then List.replicate (n - 1) 0 ++ [Cell.recordMark]
        else List.replicate n 0, some (.invalidValue (numeralParts text).digits)⟩ := by
  have hall : (numeralParts text).digits.all (isNumeralByte extended) = false :=
    Bool.eq_false_iff.mpr fun hall =>
      h ⟨numeralParts text, NumeralText.isNumeral_iff.mpr hall, (text_numeralParts text).symm⟩
  have hcells : List.replicate ((numeralParts text).room n) (0 : Cell) ++
      (if (numeralParts text).marked then [Cell.recordMark] else []) =
        if isMarked text then List.replicate (n - 1) 0 ++ [Cell.recordMark]
          else List.replicate n 0 := by
    unfold NumeralText.room numeralParts
    cases isMarked text with
    | true => rfl
    | false => exact List.append_nil _
  have hparts := encodeNumber_parts hallocate hpos extended text
  dsimp only at hparts
  rwa [hall, Bool.not_false, if_pos rfl, hcells] at hparts

/-- **Numeric constants are encoded exactly.** A text of digits, perhaps with a minus in front and a
record mark behind, fills its field from the right, and says so if a digit other than zero is lost.
Every other text is no value, and leaves the field empty. A field that no store has room for is a
fault. -/
theorem encodeNumber_cells (hlength : length.toInt = n) (hpos : 1 ≤ n) (extended : Bool)
    (text : Text) :
    (n ≤ maxSize →
      (∀ t : NumeralText, t.IsNumeral extended → text = t.text → ∃ error,
        encodeNumber length extended text = .ok ⟨t.cells n, error⟩ ∧ (t.cells n).length = n ∧
          (error = some .tooLarge ↔ ∃ b ∈ t.lost n, b ≠ '0'.toUInt8) ∧
          (error = none ↔ ∀ b ∈ t.lost n, b = '0'.toUInt8)) ∧
      ((¬ ∃ t : NumeralText, t.IsNumeral extended ∧ text = t.text) → ∃ shown,
        encodeNumber length extended text =
          .ok ⟨if isMarked text then List.replicate (n - 1) 0 ++ [Cell.recordMark]
            else List.replicate n 0, some (.invalidValue shown)⟩)) ∧
      (maxSize < n → encodeNumber length extended text = .error .sizeOutOfRange) := by
  refine ⟨fun hsize => ⟨fun t ht htext => ?_, fun hnone => ?_⟩, fun hsize => ?_⟩
  · rw [htext]
    refine ⟨_, encodeNumber_text (allocate_of_le hlength hsize) hpos ht, t.length_cells hpos, ?_⟩
    split <;> rename_i hlost <;> simpa using hlost
  · exact ⟨_, encodeNumber_invalid (allocate_of_le hlength hsize) hpos hnone⟩
  · rw [encodeNumber_eq, allocate_of_lt hlength hsize]

end Encoding

theorem encodeNumber_cells_signed :
    (4 : Word).toInt = 4 ∧ 4 ≤ maxSize ∧
    NumeralText.IsNumeral true ⟨true, ascii "20JR", true⟩ ∧
    encodeNumber 4 true (ascii "-20JR@") = .ok ⟨[0, 0x11, 0x19, Cell.recordMark], some .tooLarge⟩ ∧
    (¬ ∃ t : NumeralText, t.IsNumeral false ∧ ascii "-20JR@" = t.text) ∧
    ∃ shown, encodeNumber 4 false (ascii "-20JR@") =
      .ok ⟨[0, 0, 0, Cell.recordMark], some (.invalidValue shown)⟩ := by
  have hlength : (4 : Word).toInt = (4 : Nat) := rfl
  have hsize : 4 ≤ maxSize := by decide
  have hnumeral : NumeralText.IsNumeral true ⟨true, ascii "20JR", true⟩ :=
    NumeralText.isNumeral_iff.mpr (by decide)
  have hnone : ¬ ∃ t : NumeralText, t.IsNumeral false ∧ ascii "-20JR@" = t.text := by
    rintro ⟨t, ht, htext⟩
    have hparts := numeralParts_text ht
    rw [← htext] at hparts
    have hletter : 'J'.toUInt8 ∈ (numeralParts (ascii "-20JR@")).digits := by decide
    rw [hparts] at hletter
    exact absurd (ht _ hletter) (by decide)
  obtain ⟨error, hok, -, hlarge, -⟩ :=
    ((encodeNumber_cells hlength (by decide) true _).1 hsize).1 _ hnumeral rfl
  have herror : error = some .tooLarge := hlarge.mpr ⟨'2'.toUInt8, by decide, by decide⟩
  refine ⟨rfl, hsize, hnumeral, ?_, hnone, ?_⟩
  · rw [herror] at hok
    exact hok
  · exact ((encodeNumber_cells hlength (by decide) false _).1 hsize).2 hnone

/-- **No store is as long as a word can say**: a numeral of such a length has no cells. -/
theorem encodeNumber_oversized : 1 ≤ (281474976710657 : Word).toInt ∧
    NumeralText.IsNumeral false ⟨false, ascii "1", false⟩ ∧
    encodeNumber 281474976710657 false (NumeralText.text ⟨false, ascii "1", false⟩) =
      .error .sizeOutOfRange :=
  ⟨by decide, NumeralText.isNumeral_iff.mpr (by decide), rfl⟩

end SpsAssembler
