import SpsAssembler.Assembly.Statement

/-!
# Placement of statements

Where a statement goes. A declarative is placed by the address counter or, if it has an address
operand, at that address, which leaves the counter alone. Its label names one of its cells: the
offset of that cell does not depend on how the statement is placed.

* `Placement`;
* `takeCells`, `alignEven`: the address counter;
* `placeAt`, `placeRight`, `placeLeft`, `placePairs`: the forms of placement;
* `place`: the placement of a statement.
-/

namespace SpsAssembler

/-- The cells of a statement. `count` is the number of elements of a block, `star` the value of `*`
in the operands of a row of addresses or of an instruction, and `widths` are the lengths of the
fields of a variable constant. -/
structure Placement where
  labelAddress : Word := 0
  address : Word := 0
  length : Word := 0
  count : Word := 0
  star : Word := 0
  widths : List Word := []
  deriving DecidableEq, Repr

/-- The largest number of digits of a constant. -/
def maxConstantLength : Word := 50

/-- How far the last of `n` cells stands before the cell behind them. -/
def tailOf (n : Word) : Word := if 0 < n then 1 else 0

/-- Takes `n` cells from the counter on and gives the address of the first. -/
def takeCells (n : Word) : Step Word :=
  modifyGet fun a =>
    (a.counter, { a with counter := a.counter + n, last := a.counter + n - tailOf n })

/-- Moves the counter to an even address. -/
def alignEven : Step Unit :=
  modify fun a => if Check.isOdd a.counter then { a with counter := a.counter + 1 } else a

/-- Places `length` cells whose label is `offset` cells behind the first. Without an address operand
the counter gives the first cell, which `aligned` makes even; an address operand gives the label. -/
def placeAt (aligned : Bool) (check : Check) (length offset : Word) (address : Text) :
    Step Placement := do
  if address.isBlank then
    if aligned then alignEven
    let start ← takeCells length
    pure { labelAddress := start + offset, address := start, length }
  else
    let label ← evaluateLayout address check
    pure { labelAddress := label, address := label - offset, length }

/-- Places cells that are addressed by the last of them. -/
def placeRight (length : Word) (address : Text) : Step Placement :=
  placeAt false .address length (length - tailOf length) address

/-- Places cells that are addressed by the first of them. -/
def placeLeft (length : Word) (address : Text) : Step Placement :=
  placeAt false .address length 0 address

/-- Places pairs of cells at an even address, labelled by the odd address behind it. -/
def placePairs (length : Word) (address : Text) : Step Placement :=
  placeAt true .addressOdd length (if address.isBlank then 1 else tailOf length) address

/-- The length of a constant, cut to the largest allowed. -/
def constantLength (operand : Text) : Step Word := do
  let n ← evaluateLength operand
  reportIf (maxConstantLength < n) (error (.constantTooLong 50))
  pure (if maxConstantLength < n then maxConstantLength else n)

/-- The power that an octal table starts with. -/
def octalPower (operand : Text) : Step Word := do
  let power ← evaluateLength operand
  if power < 0 then
    report [error .powerNegative]
    pure 0
  else if Word.ofLength octalLengths ≤ power then
    report [error (.powerTooLarge (octalLengths.length - 1))]
    pure (Int64.ofNat (octalLengths.length - 1))
  else pure power

/-- The length of an octal table. -/
def octalLength (operand : Text) : Step Word := do
  let power ← octalPower operand
  settle (fetch octalLengths.toArray power.toInt)

/-- Warns of a label on a statement that defines none. -/
def unexpectedLabel (s : Statement) : Step Unit :=
  reportIf (!s.label.isBlank) (warning (.unexpectedLabel s.label))

/-- Changes the head in force. -/
def changeHead (operand : Text) : Step Unit :=
  if operand.isBlank then modify ({ · with head := Byte.blank })
  else match operand with
    | [h] =>
      if isHead h then modify ({ · with head := h }) else report [error (.invalidHead operand)]
    | _ => report [error (.invalidHead operand)]

/-- The end of the program. -/
def placeEnd (s : Statement) : Step Placement := do
  modify ({ · with ending := .ended })
  unexpectedLabel s
  let entry ← evaluateLayout (s.operand 0) .addressEven
  modify ({ · with entry })
  pure { labelAddress := entry, address := entry }

/-- A new value for the address counter. -/
def placeOrigin (s : Statement) : Step Placement := do
  let address ← evaluateLayout (s.operand 0) .address
  modify ({ · with counter := address, last := address - 1 })
  pure { labelAddress := address, address }

/-- A block of elements. -/
def placeBlock (s : Statement) : Step Placement := do
  let size ← evaluateLength (s.operand 0)
  let count ← evaluateLength (s.operand 1)
  let length := size * count
  if (s.operand 2).isBlank then
    let start ← takeCells length
    let offset := if 0 < length then size - 1 else 0
    pure { labelAddress := start + offset, address := start, length, count }
  else
    let address := (← get).counter
    let label ← evaluateLayout (s.operand 2) .address
    pure { labelAddress := label, address, length, count }

/-- A row of addresses, labelled by the last digit of the first. -/
def placeAddresses (s : Statement) : Step Placement := do
  let star := (← get).last
  let length := 5 * Word.ofLength s.operands
  let start ← takeCells length
  let offset := if 0 < length then 4 else 0
  pure { labelAddress := start + offset, address := start, length, star }

/-- The number of cells of a disk control field. -/
def diskLength : Word := 14

/-- The number of fields of a variable constant. -/
def maxFields : Nat := 20

/-- A variable constant, labelled by the last digit of its first field. -/
def placeFields (s : Statement) : Step Placement := do
  let widths ← (List.range maxFields).mapM fun j => evaluateLength (s.operand (1 + 2 * j))
  let sum := widths.foldl (· + ·) 0
  reportIf (maxConstantLength < sum) (error (.totalTooLong 50))
  let length := if maxConstantLength < sum then maxConstantLength else sum
  let first := widths.headD 0
  let p ← placeAt false .address length (first - tailOf first) (s.operand 0)
  pure { p with widths }

/-- The number of cells that an instruction takes. -/
def Shape.instructionLength : Shape → Word
  | short2 => 2
  | short7 => 7
  | _ => 12

/-- An instruction, at an even address. -/
def placeInstruction (s : Statement) : Step Placement := do
  alignEven
  let length := s.descriptor.shape.instructionLength
  let start ← takeCells length
  pure { labelAddress := start, address := start, length, star := start }

/-- Places a statement. -/
def place (s : Statement) : Step Placement := do
  match s.kind with
  | .unknown | .comment | .unlisted => pure {}
  | .dend => placeEnd s
  | .dorg => placeOrigin s
  | .head =>
    unexpectedLabel s
    changeHead (s.operand 0)
    pure {}
  | .send | .tcd =>
    unexpectedLabel s
    report [warning (.unsupportedControl s.descriptor.mnemonic)]
    pure {}
  | .tra =>
    report [warning (.unsupportedControl s.descriptor.mnemonic)]
    pure {}
  | .dac =>
    let n ← constantLength (s.operand 0)
    placePairs (2 * n) (s.operand 2)
  | .dsac =>
    let n ← constantLength (s.operand 0)
    placeAt true .addressOdd (2 * n) (2 * n - tailOf (2 * n)) (s.operand 2)
  | .das =>
    let n ← evaluateLength (s.operand 0)
    placePairs (2 * n) (s.operand 1)
  | .dc =>
    let n ← constantLength (s.operand 0)
    placeRight n (s.operand 2)
  | .dsc =>
    let n ← constantLength (s.operand 0)
    placeLeft n (s.operand 2)
  | .dnb =>
    let n ← constantLength (s.operand 0)
    placeRight n (s.operand 1)
  | .dgm => placeRight 1 (s.operand 0)
  | .dot =>
    let n ← octalLength (s.operand 0)
    placeRight n (s.operand 1)
  | .ds =>
    let n ← evaluateLength (s.operand 0)
    placeRight n (s.operand 1)
  | .dss =>
    let n ← evaluateLength (s.operand 0)
    placeLeft n (s.operand 1)
  | .dsb => placeBlock s
  | .dsa => placeAddresses s
  | .dda => placeAt true .addressEven diskLength 0 (s.operand 0)
  | .dvlc => placeFields s
  | .instruction => placeInstruction s

end SpsAssembler
