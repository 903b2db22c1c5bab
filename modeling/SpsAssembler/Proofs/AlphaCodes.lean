import Mathlib.Algebra.Group.Int.Defs
import Mathlib.Algebra.Group.Nat.Defs
import SpsAssembler.Proofs.Encoding

/-!
# The characters of a constant

An alphameric constant takes two cells for each character. The machine reads them by a table of
pairs: the first cell names a row of it and the second a column. A pair that holds a record mark ends
a record and is no character.

* `alphabet`, `characterRows`: the characters, and their places in the table;
* `PairContent`, `readPair`, `readPairs`: what the machine reads;
* `contents`: what a constant is meant to hold, blanks up to its length and a closing `@` at its end
  as a record mark;
* `textCells`, **`encodeText_of_fits`**: the cells of a constant are those of its text;
* **`readPairs_textCells`**: they hold the text, and flagging the first of them loses nothing.
-/

namespace SpsAssembler

/-- The characters of alphameric constants. -/
def alphabet : Text := ascii "ABCDEFGHIJKLMNOPQRSTUVWXYZ0123456789 .)+$*-/,(=@"

/-- The characters by the first and the second digit of their pair; a question mark stands where the
machine has none. -/
def characterRows : List String :=
  [" ??.)?????",
   "+??$*?????",
   "-/?,(?????",
   "???=@?????",
   "?ABCDEFGHI",
   "?JKLMNOPQR",
   "??STUVWXYZ",
   "0123456789"]

/-- What a pair of cells holds. -/
inductive PairContent where
  | character (b : Byte)
  | recordMark
  deriving DecidableEq, Repr

/-- Reads a pair of cells; `none` for a pair that the machine has no character for. -/
def readPair (first second : Cell) : Option PairContent :=
  if first = 0 ∧ second = Cell.recordMark then some .recordMark
  else
    (characterRows[first.toNat]?.bind fun row => row.toList[second.toNat]?).bind fun c =>
      if c = '?' then none else some (.character c.toUInt8)

/-- Reads cells pair by pair. -/
def readPairs : Value → Option (List PairContent)
  | [] => some []
  | [_] => none
  | first :: second :: rest =>
    (readPair first second).bind fun content => (readPairs rest).map (content :: ·)

/-- The characters of a text up to a closing `@`. -/
def unmarked (text : Text) : Text := if isMarked text then text.dropLast else text

/-- What a constant of `n` characters is meant to hold: the text, blanks behind it, and in place of a
closing `@` a record mark at the very end. -/
def contents (n : Nat) (text : Text) : List PairContent :=
  (unmarked text ++ Text.blanks (n - text.length)).map .character ++
    if isMarked text then [.recordMark] else []

/-- The cell with its flag cleared. -/
def Cell.unflagged (c : Cell) : Cell := c &&& ~~~Cell.flagBit

/-- Clears the flag of the first cell. -/
def Value.unflagFirst (v : Value) : Value := v.modifyHead Cell.unflagged

/-! ## Pairs -/

/-- Every character has a pair, which is read as this character and starts with a bare digit. -/
theorem alphaCells_spec {b : Byte} (h : b ∈ alphabet) : ∃ first second,
    alphaCode? b = some (first, second) ∧ alphaCells b = [first, second] ∧
      readPair first second = some (.character b) ∧ first.isFlagged = false := by
  have hall : ∀ b ∈ alphabet, ((alphaCode? b).all fun p =>
      readPair p.1 p.2 == some (.character b) && !p.1.isFlagged) = true ∧
        (alphaCode? b).isSome = true := by
    decide +kernel
  obtain ⟨hpair, hsome⟩ := hall b h
  obtain ⟨⟨first, second⟩, hcode⟩ := Option.isSome_iff_exists.mp hsome
  rw [hcode] at hpair
  simp only [Option.all_some, Bool.and_eq_true, beq_iff_eq, Bool.not_eq_true'] at hpair
  exact ⟨first, second, hcode, by rw [alphaCells, hcode], hpair.1, hpair.2⟩

/-- **The pairs of a text** are read as its characters. -/
theorem readPairs_text {text : Text} (h : ∀ b ∈ text, b ∈ alphabet) (rest : Value) :
    readPairs (text.flatMap alphaCells ++ rest) =
      (readPairs rest).map (text.map .character ++ ·) := by
  induction text with
  | nil => simp
  | cons b text ih =>
    obtain ⟨first, second, -, hcells, hread, -⟩ := alphaCells_spec (h b List.mem_cons_self)
    rw [List.flatMap_cons, hcells]
    simp only [List.cons_append, List.nil_append, readPairs, hread, Option.bind_some,
      ih fun c hc => h c (List.mem_cons_of_mem b hc), Option.map_map]
    rfl

theorem blank_mem_alphabet : Byte.blank ∈ alphabet := by decide +kernel

theorem flatMap_blanks (k : Nat) :
    (Text.blanks k).flatMap alphaCells = List.replicate (2 * k) 0 := by
  induction k with
  | zero => rfl
  | succ k ih =>
    have hblank : alphaCells Byte.blank = [0, 0] := by decide +kernel
    rw [Text.blanks, List.replicate_succ, List.flatMap_cons, ← Text.blanks, ih, hblank]
    rfl

theorem padCells_text (room : Nat) (text : Text) :
    padCells (2 * room) (text.flatMap alphaCells) =
      (text ++ Text.blanks (room - text.length)).flatMap alphaCells := by
  rw [padCells, List.flatMap_append, flatMap_blanks, length_flatMap_alphaCells, Nat.mul_sub]

/-! ## Constants -/

theorem length_unmarked (text : Text) :
    (unmarked text).length = if isMarked text then text.length - 1 else text.length := by
  unfold unmarked
  split
  · exact List.length_dropLast
  · rfl

theorem mem_unmarked {text : Text} {b : Byte} (h : b ∈ unmarked text) : b ∈ text := by
  unfold unmarked at h
  split at h
  · exact List.dropLast_subset _ h
  · exact h

theorem padded_mem {text : Text} (h : ∀ b ∈ text, b ∈ alphabet) {k : Nat} {b : Byte}
    (hb : b ∈ unmarked text ++ Text.blanks k) : b ∈ alphabet := by
  rcases List.mem_append.mp hb with hb | hb
  · exact h b (mem_unmarked hb)
  · rw [(List.mem_replicate.mp hb).2]
    exact blank_mem_alphabet

theorem length_pos_of_isMarked {text : Text} (h : isMarked text = true) : 0 < text.length := by
  cases text with
  | nil => cases h
  | cons b rest => exact Nat.succ_pos _

/-- The cells of a text that a constant has room for. -/
def textCells (n : Nat) (text : Text) : Value :=
  (unmarked text ++ Text.blanks (n - text.length)).flatMap alphaCells ++
    if isMarked text then [0, Cell.recordMark] else []

section Text

variable {n : Nat} {text : Text}

theorem contents_of_length (h : text.length = n) : contents n text =
    (unmarked text).map .character ++ if isMarked text then [.recordMark] else [] := by
  rw [contents, h, Nat.sub_self, Text.blanks, List.replicate_zero, List.append_nil]

theorem length_textCells (h : text.length ≤ n) : (textCells n text).length = 2 * n := by
  rw [textCells, List.length_append, length_flatMap_alphaCells, List.length_append, length_unmarked,
    Text.blanks, List.length_replicate]
  split
  · have hpos := length_pos_of_isMarked ‹_›
    simp only [List.length_cons, List.length_nil]
    omega
  · simp only [List.length_nil]
    omega

/-- **The cells of a text** hold it, as the constant is meant to. -/
theorem readPairs_textCells (htext : ∀ b ∈ text, b ∈ alphabet) :
    readPairs (textCells n text) = some (contents n text) := by
  rw [textCells, readPairs_text fun b => padded_mem htext, contents]
  cases isMarked text with
  | true =>
    have hmark : readPairs [0, Cell.recordMark] = some [.recordMark] := by decide
    rw [if_pos rfl, if_pos rfl, hmark]
    rfl
  | false => rfl

theorem allocate_double {length : Word} (hlength : length.toInt = n) (hsize : 2 * n ≤ maxSize) :
    allocate (2 * length) = .ok (2 * n) := by
  have htwo : (2 : Word).toInt = 2 := rfl
  have hlarge : ¬ maxSize < 2 * n := Nat.not_lt.mpr hsize
  rw [maxSize] at hsize
  have hdouble : (2 * length).toInt = 2 * n := by
    rw [Word.toInt_mul_of (by rw [htwo, hlength]; omega) (by rw [htwo, hlength]; omega), htwo, hlength]
  have hclamp : (2 * length).toNatClampNeg = 2 * n := by
    rw [Int64.toNatClampNeg, hdouble]
    omega
  have hneg : ¬ 2 * length < 0 := by
    rw [Int64.lt_iff_toInt_lt, hdouble, show (0 : Word).toInt = 0 from rfl]
    omega
  simp [allocate, hclamp, hneg, hlarge]

theorem padCells_unmarked (hfits : text.length ≤ n) :
    padCells (2 * if isMarked text then n - 1 else n)
        (((unmarked text).take (if isMarked text then n - 1 else n)).flatMap alphaCells) =
      (unmarked text ++ Text.blanks (n - text.length)).flatMap alphaCells := by
  have hroom : (unmarked text).length ≤ if isMarked text then n - 1 else n := by
    rw [length_unmarked]
    split <;> omega
  have hblanks : (if isMarked text then n - 1 else n) - (unmarked text).length = n - text.length := by
    rw [length_unmarked]
    split
    · have hmarked := length_pos_of_isMarked ‹_›
      omega
    · rfl
  rw [List.take_of_length_le hroom, padCells_text, hblanks]

/-- **An alphameric constant** of a length that can be stored has the cells of its text. -/
theorem encodeText_of_fits {length : Word} (hlength : length.toInt = n) (hpos : 0 < n)
    (hsize : 2 * n ≤ maxSize) (hfits : text.length ≤ n) (htext : ∀ b ∈ text, b ∈ alphabet) :
    encodeText length text = .ok ⟨textCells n text, none⟩ := by
  have hzero : 0 < length := by
    rw [Int64.lt_iff_toInt_lt, hlength, show (0 : Word).toInt = 0 from rfl]
    omega
  have hbody : (unmarked text).all (fun b => (alphaCode? b).isSome) = true := by
    refine List.all_eq_true.mpr fun b hb => ?_
    obtain ⟨first, second, hcode, -⟩ := alphaCells_spec (htext b (mem_unmarked hb))
    rw [hcode]
    rfl
  have hfull : padCells (2 * n) (textCells n text) = textCells n text := by
    rw [padCells, length_textCells hfits, Nat.sub_self, List.replicate_zero, List.append_nil]
  rw [encodeText_eq, allocate_double hlength hsize]
  dsimp only
  rw [Nat.mul_div_cancel_left n (by decide), ← unmarked, hbody, padCells_unmarked hfits]
  simp only [hzero, decide_true, Bool.and_true]
  rw [← textCells, hfull]
  rfl

theorem encodeText_fault {length : Word} (hlength : length.toInt = n) (hsize : maxSize < 2 * n)
    (text : Text) : encodeText length text = .error .sizeOutOfRange := by
  have hlarge : 2 * length < 0 ∨ maxSize < (2 * length).toNatClampNeg := by
    have htwo : (2 : Word).toInt = 2 := rfl
    have hzero : (0 : Word).toInt = 0 := rfl
    have hlt := length.toInt_lt
    rw [Int64.lt_iff_toInt_lt, Int64.toNatClampNeg, Int64.toInt_mul, htwo, hzero, Int.bmod_def]
    rw [maxSize] at hsize ⊢
    omega
  have hallocate : allocate (2 * length) = .error .sizeOutOfRange := by
    simp [allocate, hlarge]
  rw [encodeText_eq, hallocate]

theorem head_textCells (hpos : 0 < n) (hfits : text.length ≤ n) (htext : ∀ b ∈ text, b ∈ alphabet) :
    ∃ first rest, textCells n text = first :: rest ∧ first.isFlagged = false := by
  have hlength := length_textCells hfits
  unfold textCells at hlength ⊢
  cases hbody : unmarked text ++ Text.blanks (n - text.length) with
  | nil =>
    cases hmarked : isMarked text with
    | true => exact ⟨0, [Cell.recordMark], rfl, by decide⟩
    | false =>
      rw [hbody, hmarked, if_neg (by decide)] at hlength
      exact absurd hlength (by simp; omega)
  | cons b body =>
    have hb : b ∈ alphabet := padded_mem htext (hbody ▸ List.mem_cons_self)
    obtain ⟨first, second, -, hcells, -, hfirst⟩ := alphaCells_spec hb
    exact ⟨first, _, by rw [List.flatMap_cons, hcells]; rfl, hfirst⟩

theorem unflagFirst_flag {first : Cell} (hfirst : first.isFlagged = false) (rest : Value) :
    Value.unflagFirst (Value.flag (first :: rest) 0) = first :: rest := by
  have hall : ∀ c : Cell, c.isFlagged = false → c.flagged.unflagged = c :=
    forall_cell (by decide +kernel)
  change Cell.unflagged first.flagged :: rest = first :: rest
  rw [hall first hfirst]

/-- **A flagged constant** holds its text once the flag is cleared. -/
theorem readPairs_flag (hpos : 0 < n) (hfits : text.length ≤ n) (htext : ∀ b ∈ text, b ∈ alphabet) :
    readPairs (Value.unflagFirst ((textCells n text).flag 0)) = some (contents n text) := by
  obtain ⟨first, rest, hcells, hfirst⟩ := head_textCells hpos hfits htext
  rw [hcells, unflagFirst_flag hfirst, ← hcells, readPairs_textCells htext]

end Text

end SpsAssembler
