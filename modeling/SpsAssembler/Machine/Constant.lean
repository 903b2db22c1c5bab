import SpsAssembler.Machine.Cell

/-!
# Constants

The cells of a numeric or alphameric constant. A constant that cannot be encoded still has its
full length, and comes with what is wrong.

* `ConstantError`, `Constant`;
* `encodeNumber`: digits right justified in a field;
* `encodeText`: characters as pairs of digits.
-/

namespace SpsAssembler

/-- What is wrong with a constant. -/
inductive ConstantError where
  | invalidValue (text : Text)
  | tooLarge
  deriving DecidableEq, Repr

/-- An encoded constant. -/
structure Constant where
  cells : Value
  error : Option ConstantError := none
  deriving DecidableEq, Repr

/-- The last character of a constant is a record mark. -/
def isMarked (text : Text) : Bool := text.getLast? == some '@'.toUInt8

/-- The digits of a numeric constant; with `extended` also the letters of flagged digits. -/
def isNumeralByte (extended : Bool) (b : Byte) : Bool :=
  b.isDigit || (extended && (Byte.within 'I' 'R' b || b == ']'.toUInt8))

/-- The cell of a digit: `]` is a flagged zero and `I` to `R` are the flagged digits. -/
def numeralCell (b : Byte) : Cell :=
  if b.isDigit then b - '0'.toUInt8
  else if b == ']'.toUInt8 then Cell.flagBit
  else Cell.flagged (b - 'I'.toUInt8)

/-- Copies the characters from position `first` up to `stop` into the cells before position `room`,
from right to left, and gives the position before which characters are left over. -/
def copyDigits (text : Array Byte) (first : Nat) :
    Nat → Nat → Array Cell → Except Fault (Array Cell × Nat)
  | room + 1, stop + 1, v =>
    if first ≤ stop then do
      let b ← fetch text stop
      let v ← assign v room (numeralCell b)
      copyDigits text first room stop v
    else pure (v, stop + 1)
  | _, stop, v => pure (v, stop)

/-- Whether a character from position `first` up to `stop` is no zero. -/
def hasDigits (text : Array Byte) (first : Nat) : Nat → Except Fault Bool
  | stop + 1 =>
    if first ≤ stop then do
      let b ← fetch text stop
      if b != '0'.toUInt8 then pure true else hasDigits text first stop
    else pure false
  | 0 => pure false

/-- The characters from position `first` up to `stop`. -/
def spanned (text : Array Byte) (first stop : Nat) : Except Fault Text :=
  if first < stop then Array.toList <$> slice text first stop else pure []

/-- Zeros, the last one replaced by a record mark if the field is closed by one. -/
def newCells (n : Nat) (closed : Bool) : Except Fault (Array Cell) :=
  if closed then assign (Array.replicate n 0) (n - 1) Cell.recordMark else pure (Array.replicate n 0)

/-- Flags the cell at a position. -/
def flagAt (v : Array Cell) (i : Int) : Except Fault (Array Cell) := do
  let c ← fetch v i
  assign v i c.flagged

/-- Flags the last digit of `n` cells, which stands before a record mark. -/
def flagSign (n : Nat) (marked : Bool) (v : Array Cell) : Except Fault (Array Cell) :=
  if !marked && 0 < n then flagAt v (n - 1)
  else if marked && 1 < n then flagAt v (n - 2)
  else pure v

/-- A numeric constant, right justified in `length` cells. A leading minus flags the low-order
digit, and a closing `@` ends the field with a record mark. -/
def encodeNumber (length : Word) (extended : Bool) (text : Text) : Except Fault Constant := do
  let n ← allocate length
  let chars := text.toArray
  let negative := text.head? == some '-'.toUInt8
  let closed := isMarked text && 0 < n
  let first := if negative then 1 else 0
  let stop := if closed then chars.size - 1 else chars.size
  let room := if closed then n - 1 else n
  let v ← newCells n closed
  let digits ← spanned chars first stop
  if !digits.all (isNumeralByte extended) then pure ⟨v.toList, some (.invalidValue digits)⟩
  else
    let (v, rest) ← copyDigits chars first room stop v
    let lost ← hasDigits chars first rest
    let error := if lost then some .tooLarge else none
    if negative then
      let v ← flagSign n (isMarked text) v
      pure ⟨v.toList, error⟩
    else pure ⟨v.toList, error⟩

/-- The characters of alphameric constants besides letters and digits, with their codes. -/
def specialCodes : List (Char × Nat × Nat) :=
  [(' ', 0, 0), ('.', 0, 3), (')', 0, 4), ('+', 1, 0), ('$', 1, 3), ('*', 1, 4), ('-', 2, 0),
   ('/', 2, 1), (',', 2, 3), ('(', 2, 4), ('=', 3, 3), ('@', 3, 4)]

/-- The two digit code of a character of the alphameric set. -/
def alphaCode? (b : Byte) : Option (Cell × Cell) :=
  if Byte.within 'A' 'I' b then some (4, b - '@'.toUInt8)
  else if Byte.within 'J' 'R' b then some (5, b - 'I'.toUInt8)
  else if Byte.within 'S' 'Z' b then some (6, b - 'Q'.toUInt8)
  else if b.isDigit then some (7, b - '0'.toUInt8)
  else (specialCodes.find? fun s => s.1.toUInt8 == b).map fun s => (s.2.1.toUInt8, s.2.2.toUInt8)

/-- Writes a pair of cells, the first at a position. -/
def assignPair (v : Array Cell) (i : Nat) (pair : Cell × Cell) : Except Fault (Array Cell) := do
  let v ← assign v i pair.1
  assign v (i + 1) pair.2

/-- Writes the codes of the characters from position `i` up to `stop` into pairs of cells, and blanks
behind them, up to so many pairs. -/
def copyPairs (text : Array Byte) (stop : Nat) :
    Nat → Nat → Array Cell → Except Fault (Array Cell)
  | 0, _, v => pure v
  | room + 1, i, v =>
    if i < stop then do
      let b ← fetch text i
      let v ← assignPair v (2 * i) ((alphaCode? b).getD (0, 0))
      copyPairs text stop room (i + 1) v
    else do
      let v ← assignPair v (2 * i) (0, 0)
      copyPairs text stop room (i + 1) v

/-- An alphameric constant of `length` characters, filled up with blanks. A closing `@` ends the
field with a record mark. -/
def encodeText (length : Word) (text : Text) : Except Fault Constant := do
  let n ← allocate (2 * length)
  let marked := isMarked text
  let chars := text.toArray
  let stop := if marked then chars.size - 1 else chars.size
  let room := if marked then n / 2 - 1 else n / 2
  let body ← spanned chars 0 stop
  if !body.all fun b => (alphaCode? b).isSome then
    pure ⟨List.replicate n 0, some (.invalidValue text)⟩
  else
    let v ← copyPairs chars stop room 0 (Array.replicate n 0)
    if marked && 0 < length then
      let v ← assignPair v (2 * room) (0, Cell.recordMark)
      pure ⟨v.toList, none⟩
    else pure ⟨v.toList, none⟩

end SpsAssembler
