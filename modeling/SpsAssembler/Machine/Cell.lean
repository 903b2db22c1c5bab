import SpsAssembler.Fault

/-!
# Cells and fields

A cell holds one decimal digit with a flag bit, or a mark. A value is a row of cells, built before
it is stored; its fields are runs of digits named by the position of the low-order digit. Positions
outside a value are passed over when it is written.

* `Cell`, its marks, `Cell.flagged`, `Cell.isMark`;
* `Value.flag`, `Value.put`: one cell;
* `Value.setField`, `Value.field`: numbers in fields;
* `Value.setIndexFlags`, `Value.setFlags`: flags for an index register and for listed digits.
-/

namespace SpsAssembler

/-- One position of core: a digit or mark in the low four bits and the flag above them. -/
abbrev Cell := Byte

namespace Cell

/-- The bit that flags a digit. -/
def flagBit : Cell := 0x10

/-- The bits of the digit. -/
def digitMask : Cell := 0x0F

/-- The bits of a digit and its flag. -/
def cellMask : Cell := 0x1F

/-- The record mark. -/
def recordMark : Cell := 0x0A

/-- The numeric blank. -/
def numericBlank : Cell := 0x0C

/-- The group mark. -/
def groupMark : Cell := 0x0F

/-- A cell that nothing was stored in. -/
def undefined : Cell := 0xE0

/-- The cell with its flag set. -/
def flagged (c : Cell) : Cell := c ||| flagBit

/-- The digit of a cell. -/
def digit (c : Cell) : Cell := c &&& digitMask

/-- Whether the flag is set. -/
def isFlagged (c : Cell) : Bool := c &&& flagBit != 0

/-- A record mark or a group mark, flagged or not. -/
def isMark (c : Cell) : Bool := c.digit == recordMark || c.digit == groupMark

end Cell

/-- A row of cells. -/
abbrev Value := List Cell

/-- The positions of the fields of an instruction, each that of the low-order digit. -/
def Field.op : Word := 1

@[inherit_doc Field.op]
def Field.p : Word := 6

@[inherit_doc Field.op]
def Field.q : Word := 11

namespace Value

/-- Changes the cell at `i`, if there is one. -/
def modifyAt (v : Value) (i : Word) (f : Cell → Cell) : Value :=
  if h : 0 ≤ i ∧ i.toNatClampNeg < v.length then
    v.set i.toNatClampNeg (f (v.get ⟨i.toNatClampNeg, h.2⟩))
  else v

/-- Sets the flag of the cell at `i`. -/
def flag (v : Value) (i : Word) : Value := v.modifyAt i Cell.flagged

/-- Writes the `width` low digits of `n` from position `i` leftwards; digits at positions that are
not there are lost. -/
def putDigits : Nat → Word → Word → Value → Value
  | 0, _, _, v => v
  | width + 1, i, n, v =>
    if i < 0 then v else putDigits width (i - 1) (n / 10) (v.modifyAt i fun _ => (n % 10).lowByte)

/-- The magnitude of a word; the least word has none and stays as it is. -/
def magnitude (n : Word) : Word := if n < 0 then -n else n

/-- Packs `n` into `width` digits that end at `i`. A negative number flags the low-order digit, and
`flagFirst` flags the high-order digit. -/
def setField (v : Value) (i width : Word) (flagFirst : Bool) (n : Word) : Value :=
  if width = 0 then v
  else
    let v := putDigits width.toNatClampNeg i (magnitude n) v
    let v := if n < 0 then v.flag i else v
    if flagFirst then v.flag (i - width + 1) else v

/-- The number that `width` digits ending at `i` spell; the flag of the last gives the sign. -/
def field (v : Value) (i width : Word) : Except Fault Word :=
  let start := i - width + 1
  let digits : Except Fault Value :=
    if i < start then .ok []
    else if start < 0 || Word.ofLength v ≤ i then .error .positionOutOfRange
    else .ok ((v.take (i.toNatClampNeg + 1)).drop start.toNatClampNeg)
  match digits with
  | .error f => .error f
  | .ok ds =>
    let n : Word := ds.foldl (fun n c => n * 10 + Int64.ofNat c.digit.toNat) 0
    if i < 0 then .error .positionOutOfRange
    else match v[i.toNatClampNeg]? with
      | none => .error .positionOutOfRange
      | some last => .ok (if last.isFlagged then -n else n)

/-- Spreads an index register number over the flags of the three digits before position `i`. -/
def setIndexFlags (v : Value) (i reg : Word) : Value :=
  let v := if reg &&& 4 != 0 then v.flag (i - 3) else v
  let v := if reg &&& 2 != 0 then v.flag (i - 2) else v
  if reg &&& 1 != 0 then v.flag (i - 1) else v

/-- Digits in strictly ascending order, each above `floor`. -/
def ascending : Byte → Text → Bool
  | _, [] => true
  | floor, b :: rest => floor < b && b.isDigit && ascending b rest

/-- A list of positions: single digits in ascending order, then perhaps `10`, then perhaps `11`. -/
def isFlagList (digits : Text) : Bool :=
  [ascii "", ascii "10", ascii "11", ascii "1011"].any fun tail =>
    Text.hasSuffix tail digits && ascending 0 (digits.take (digits.length - tail.length))

/-- Flags the listed positions, reading `10` and `11` wherever they stand. -/
def flagListed : Text → Value → Value
  | [], v => v
  | [d], v => v.flag (Int64.ofNat (d - '0'.toUInt8).toNat)
  | d :: e :: rest, v =>
    if d == '1'.toUInt8 && e == '0'.toUInt8 then flagListed rest (v.flag 10)
    else if d == '1'.toUInt8 && e == '1'.toUInt8 then flagListed rest (v.flag 11)
    else flagListed (e :: rest) (v.flag (Int64.ofNat (d - '0'.toUInt8).toNat))

/-- Flags the digits that the operand lists; `none` if it is no list of positions. -/
def setFlags (v : Value) (digits : Text) : Option Value :=
  if digits.isBlank then some v
  else if isFlagList digits then some (flagListed digits v)
  else none

end Value

end SpsAssembler
