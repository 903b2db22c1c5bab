import SpsAssembler.Fault
import SpsAssembler.Text.Numeral

/-!
# Tab stops

A tab of a freeform line reaches the next stop. Stops are a fixed distance apart, or listed by
column, counted from 1.

* `TabStops`, `TabStops.parse?`, `TabStops.render`;
* `TabStops.expand`: blanks in place of tabs.
-/

namespace SpsAssembler

/-- Where tabs lead. -/
inductive TabStops where
  | every (n : Word)
  | columns (stops : List Word)
  deriving DecidableEq, Repr

namespace TabStops

/-- A stop every eight columns. -/
def default : TabStops := every 8

/-- A single number is the distance of the stops, several are columns, and none is the default. -/
def ofList : List Word → TabStops
  | [] => default
  | [n] => every n
  | stops => columns stops

/-- The numbers that stops are written with. -/
def toList : TabStops → List Word
  | every n => [n]
  | columns stops => stops

/-- The last column of a line. -/
def maxColumn : Word := 80

/-- Reads numbers from 1 to 80 in ascending order, each above `floor`. -/
def parseFrom (floor : Word) : List Text → Option (List Word)
  | [] => some []
  | part :: rest =>
    match part.trimSpace.readDecimal with
    | .error _ => none
    | .ok n =>
      if n < 1 || maxColumn < n || n ≤ floor then none else (parseFrom n rest).map (n :: ·)

/-- Reads `n` or `a,b,c`. -/
def parse? (t : Text) : Option TabStops := (parseFrom 0 (t.fields Byte.comma)).map ofList

/-- What is said of a text that gives no stops. -/
def invalidMessage (t : Text) : Text := ascii "invalid tabs value (" ++ t ++ ascii ")"

/-- The numbers with commas between them. -/
def render (stops : TabStops) : Text := Text.join [Byte.comma] (stops.toList.map Text.ofWord)

/-- The number of blanks for a tab behind `pos` bytes. Behind the last column it is one. -/
def spaces (stops : TabStops) (pos : Nat) : Nat :=
  match stops with
  | every n => n.toNatClampNeg - pos % n.toNatClampNeg
  | columns stops =>
    match stops.find? fun stop => (pos : Int) < stop.toInt with
    | some stop => stop.toNatClampNeg - pos - 1
    | none => 1

/-- Whether stops are a negative distance apart. -/
def isNegative : TabStops → Bool
  | every n => n < 0
  | columns _ => false

/-- Adds a byte to an expanded line, which is kept with the last byte first. -/
def expandByte (stops : TabStops) (line : Text × Nat) (b : Byte) : Text × Nat :=
  if b == Byte.tab then
    let n := stops.spaces line.2
    (Text.blanks n ++ line.1, line.2 + n)
  else (b :: line.1, line.2 + 1)

/-- Replaces every tab by blanks. -/
def expandAll (stops : TabStops) (line : Text) : Text :=
  (line.foldl stops.expandByte ([], 0)).1.reverse

/-- Follows a line by a byte: the place behind it in the expanded line, and the number of blanks
for the widest tab so far. -/
def widenByte (stops : TabStops) (reached : Nat × Nat) (b : Byte) : Nat × Nat :=
  if b == Byte.tab then
    let n := stops.spaces reached.1
    (reached.1 + n, max reached.2 n)
  else (reached.1 + 1, reached.2)

/-- The number of blanks for the widest tab of a line. -/
def widest (stops : TabStops) (line : Text) : Nat := (line.foldl stops.widenByte (0, 0)).2

/-- Replaces every tab by blanks up to the next stop. Stops no distance apart, or a negative one,
are a fault as soon as there is a tab, and so is a tab of more blanks than a store has cells. -/
def expand (stops : TabStops) (line : Text) : Except Fault Text :=
  if !line.contains Byte.tab then .ok line
  else if stops = every 0 then .error .divisionByZero
  else if stops.isNegative then .error .negativeRepeat
  else if maxSize < stops.widest line then .error .sizeOutOfRange
  else .ok (stops.expandAll line)

end TabStops

end SpsAssembler
