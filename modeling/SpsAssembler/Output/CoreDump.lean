import SpsAssembler.Output.Listing

/-!
# The core dump

The core image as a commented dump: what is loaded below the program, then the cells of every
statement beside its source. A line that starts with an address holds cells, in hexadecimal, up to
the comment; every other line is a comment.

* `hexCells`, `instructionHex`: cells in hexadecimal;
* `dumpLowCore`, `dumpStatement`: the parts;
* `coreDump`: the whole.
-/

namespace SpsAssembler

/-- The rule above and below the low core. -/
def dumpRule : Text := ascii "// " ++ List.replicate 63 '-'.toUInt8 ++ ascii "\n"

/-- The start of a line without cells. -/
def dumpComment : Text := Text.blanks 68 ++ ascii "//"

/-- The most cells on a line. -/
def dumpWidth : Nat := 20

/-- Cells in hexadecimal, a blank behind each. -/
def hexCells (v : Value) : Text := v.flatMap fun c => Text.hex2 c ++ [Byte.blank]

/-- Cells in hexadecimal with blanks between them. -/
def hexGroup (v : Value) : Text := Text.join [Byte.blank] (v.map Text.hex2)

/-- An instruction in hexadecimal, as operation, P and Q. -/
def instructionHex (v : Value) : Text :=
  let p := ascii "  " ++ hexGroup ((v.drop 2).take 5)
  let q := ascii "  " ++ hexGroup ((v.drop 7).take 5)
  hexGroup (v.take 2) ++ (if v.length ≤ 2 then [] else p) ++ (if v.length ≤ 7 then [] else q)

/-- The address at the start of a line of cells. -/
def dumpAddress (w : Word) : Text := fiveDigits w ++ ascii ": "

/-- Rows of at most `dumpWidth` cells, with their distance from the first cell. -/
def dumpRows (v : Value) : List (Nat × Value) :=
  (List.range ((v.length + dumpWidth - 1) / dumpWidth)).map fun k =>
    (dumpWidth * k, (v.drop (dumpWidth * k)).take dumpWidth)

/-- A table under its title. -/
def dumpTable (title : String) (address : Nat) (table : Value) : Text :=
  ascii "\n// " ++ ascii title ++ ascii "\n" ++ (dumpRows table).flatMap fun (i, row) =>
    dumpAddress (Int64.ofNat (address + i)) ++ hexGroup row ++ ascii "\n"

/-- The instructions at the bottom of core. -/
def dumpStartup (startup : Value) : Text :=
  (List.range (startup.length / 12)).flatMap fun k =>
    dumpAddress (Int64.ofNat (12 * k)) ++
      (instructionHex ((startup.drop (12 * k)).take 12)).padRight 37 ++ ascii "\n"

/-- What is loaded below the program. -/
def dumpLowCore (program : Program) : Text :=
  let tables :=
    if program.options.tables then
      dumpTable "Multiply table" 100 multiplyTable ++
        (if program.options.model == .one then dumpTable "Add table" 300 addTable else []) ++
        ascii "\n// Record mark\n00400: 0A\n"
    else []
  dumpRule ++ ascii "// Startup\n" ++ dumpStartup program.startup ++ tables ++ dumpRule ++
    ascii "\n\n"

/-- The fields of a line in columns. -/
def dumpFields (line : Line) : Text :=
  line.label.padRight 6 ++ ascii " " ++ line.operation.padRight 4 ++ ascii " " ++ line.operands

/-- The source of a line, without its first columns in the fixed format. -/
def dumpSource (p : Provenance) (line : Line) : Text :=
  if p.fixed then line.text.drop 5 else line.text

/-- The cells of a constant, its source beside the first row. -/
def dumpData (o : Outcome) : Text :=
  (dumpRows o.value).flatMap fun (i, row) =>
    dumpAddress (o.placement.address + Int64.ofNat i) ++ (hexCells row).padRight 60 ++
      (if i = 0 then ascii " // " ++ dumpFields o.statement.line else []) ++ ascii "\n"

/-- A statement. -/
def dumpStatement (p : Provenance) (o : Outcome) : Text :=
  let line := o.statement.line
  match o.shape with
  | .unknown | .comment => dumpComment ++ dumpSource p line ++ ascii "\n"
  | .control => dumpComment ++ ascii "   " ++ dumpSource p line ++ ascii "\n"
  | .instruction | .short2 | .short7 =>
    dumpAddress o.placement.address ++ (instructionHex o.value).padRight 59 ++ ascii "  // " ++
      dumpFields line ++ ascii "\n"
  | .data =>
    if o.value.isEmpty then dumpComment ++ ascii " " ++ dumpFields line ++ ascii "\n"
    else dumpData o
  | .address | .reserve1 | .reserve2 => dumpComment ++ ascii " " ++ dumpFields line ++ ascii "\n"

/-- The core dump of a program. -/
def coreDump (p : Provenance) (program : Program) : Text :=
  ascii "// " ++ productName ++ ascii "\n// Source: " ++ p.sourceList ++ ascii "\n// Assembled: " ++
    p.stamp.render ++ ascii "\n\n" ++ dumpLowCore program ++
    program.outcomes.flatMap (dumpStatement p)

end SpsAssembler
