import SpsAssembler.Machine.Memory

/-!
# Low core

What is loaded below the program: three instructions that start it, and the tables that the machine
multiplies and adds with.

* `multiplyTable`, `addTable`, `octalTable`, `octalLengths`: tables of digits;
* `Memory.seed`: low core for a program.
-/

namespace SpsAssembler

/-- Every product of two digits, low-order digit first: all first factors with the second factors
below five, then with the others. -/
def multiplyTable : Value :=
  [0, 5].flatMap fun half => (List.range 10).flatMap fun a => (List.range 5).flatMap fun k =>
    [(a * (half + k) % 10).toUInt8, (a * (half + k) / 10).toUInt8]

/-- Every sum of two digits, flagged when there is a carry. -/
def addTable : Value :=
  (List.range 10).flatMap fun a => (List.range 10).map fun b =>
    if a + b < 10 then (a + b).toUInt8 else Cell.flagged (a + b - 10).toUInt8

/-- The digits of a power of eight, at least two, the first one flagged. -/
def octalEntry (power : Nat) : Value :=
  let digits := (Nat.toDigits 10 (Nat.pow 8 power)).map fun c => c.toUInt8 - '0'.toUInt8
  Value.flag (List.replicate (2 - digits.length) 0 ++ digits) 0

/-- The powers of eight from the given one down, closed by a record mark. -/
def octalTable (power : Nat) : Value :=
  (List.range (power + 1)).reverse.flatMap octalEntry ++ [Cell.recordMark]

/-- The highest power that an octal table can start with. -/
def maxOctalPower : Nat := 13

/-- The lengths of the octal tables, by the power that they start with. -/
def octalLengths : List Word :=
  (List.range (maxOctalPower + 1)).map fun power => Word.ofLength (octalTable power)

/-- The number of cells of the instructions at the bottom of core. -/
def startupLength : Nat := 36

/-- A 12-digit instruction with all its operands zero. -/
def bareInstruction (code : Word) : Value :=
  Value.setField (List.replicate 12 0) Field.op 2 false code

/-- Loads the start instructions and, with `tables`, the arithmetic tables; machines that add in
hardware get no add table. Parts that do not fit are left out. -/
def Memory.seed (m : Memory) (entry : Word) (halt tables addInCore : Bool) : Memory :=
  let m := m.place 0 (bareInstruction 41)
  let m := m.place 12 (bareInstruction (if halt then 48 else 41))
  let m := m.place 24 ((bareInstruction 49).setField Field.p 5 false entry)
  if tables then
    let m := m.place 100 multiplyTable
    let m := if addInCore then m.place 300 addTable else m
    m.place 400 [Cell.recordMark]
  else m

end SpsAssembler
