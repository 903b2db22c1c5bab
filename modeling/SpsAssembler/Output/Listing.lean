import SpsAssembler.Assembly.Program
import SpsAssembler.Output.Provenance
import SpsAssembler.Output.Yaml.Scalar

/-!
# The listing and the symbol map

Every line of the second pass with the cells it was assembled to and the messages about it, then
the symbols with the lines that refer to them. The symbols come as a YAML document too, for tools
that load the core image beside it.

* `listChar`, `flagChar`: the characters of cells;
* `listStatement`, `listLines`: the lines;
* `crossReference`: the symbols;
* `listing`: the whole;
* `mapSymbol`, `symbolMap`: the symbols as a document.
-/

namespace SpsAssembler

/-- The characters of cells without regard to flags. -/
def listCharacters : Text := ascii "0123456789@?~??#"

/-- The character of a cell. -/
def listChar (c : Cell) : Byte := listCharacters.getD c.digit.toNat '?'.toUInt8

/-- The mark above a flagged cell. -/
def flagChar (c : Cell) : Byte := if c.isFlagged then '_'.toUInt8 else Byte.blank

/-- The first `n` cells of a value, with a blank before each of the positions in `gaps`. -/
def cellText (conv : Cell → Byte) (gaps : List Nat) (n : Nat) (v : Value) : Text :=
  (List.range n).flatMap fun i =>
    (if gaps.contains i then [Byte.blank] else []) ++ [conv (v.getD i 0)]

/-- The cells of a value, or both of its ends if it is long. -/
def dataText (conv : Cell → Byte) (ellipsis : String) (v : Value) : Text :=
  if v.length ≤ 14 then v.map conv
  else (v.take 6).map conv ++ ascii ellipsis ++ (v.drop (v.length - 6)).map conv

/-- The line of flags above a statement, unless there are none. -/
def flagLine (width : Nat) (flags : Text) : Text :=
  if flags.isBlank then []
  else Text.blanks 15 ++ flags.trimRight.padRight width ++ ascii "\n"

/-- An address or a length in five digits. -/
def fiveDigits (w : Word) : Text := Text.zeroPadded 5 w

/-- A source line in the columns of the listing. -/
def formatted (p : Provenance) (o : Outcome) : Text :=
  let text := o.statement.line.text
  let column (start stop width : Nat) : Text := (text.slice start stop).padRight width
  if !p.fixed then text.trimRight
  else if o.shape == .comment then
    Text.trimRight (column 0 5 5 ++ ascii " " ++ column 5 75 70 ++ ascii "  " ++ text.drop 75)
  else
    Text.trimRight (column 0 5 5 ++ ascii " " ++ column 5 11 6 ++ ascii " " ++ column 11 15 4 ++
      ascii " " ++ text.drop 15)

/-- A statement, with its flags on a line above it. -/
def listStatement (p : Provenance) (o : Outcome) : Text :=
  let number := p.lineNumber o.statement.line.number
  let text := formatted p o ++ ascii "\n"
  let address := fiveDigits o.placement.address
  let label := fiveDigits o.placement.labelAddress
  let length := fiveDigits o.placement.length
  let cells (n width : Nat) (gaps : List Nat) (fill : Nat) : Text :=
    flagLine width (cellText flagChar gaps n o.value) ++ number ++ ascii "  " ++ address ++
      ascii " " ++ (cellText listChar gaps n o.value).padRight width ++ Text.blanks fill ++ text
  match o.shape with
  | .unknown | .comment | .control => number ++ Text.blanks 24 ++ text
  | .address => number ++ ascii "  " ++ label ++ Text.blanks 17 ++ text
  | .instruction => cells 12 14 [2, 7] 2
  | .short2 => cells 2 2 [] 14
  | .short7 => cells 7 8 [2] 8
  | .data =>
    flagLine 14 (dataText flagChar "  " o.value) ++ number ++ ascii "  " ++ address ++ ascii " " ++
      (dataText listChar ".." o.value).padRight 14 ++ ascii "  " ++ text
  | .reserve1 =>
    number ++ ascii "  " ++ label ++ ascii "    " ++ length ++ Text.blanks 8 ++ text
  | .reserve2 =>
    number ++ ascii "  " ++ label ++ ascii "    " ++ length ++ ascii " " ++
      fiveDigits o.placement.count ++ ascii "  " ++ text

/-- A message below the line it is about. -/
def listMessage (p : Provenance) (d : Diagnostic Cause) : Text :=
  (if p.multi then ascii "  " else []) ++ Text.blanks 31 ++ ascii "^^^ " ++ d.render ++ ascii "\n"

/-- The heading of a file. -/
def fileBanner (p : Provenance) (number : Nat) : Text :=
  ascii "\n  ------ " ++ Text.ofNat number ++ ascii ": " ++ p.files.getD (number - 1) [] ++
    ascii " " ++ List.replicate 50 '-'.toUInt8 ++ ascii "\n\n"

/-- The headings of the files behind the first `shown` ones, up to the given one. -/
def fileBanners (p : Provenance) (shown upTo : Nat) : Text :=
  if p.multi then (List.range (upTo - shown)).flatMap fun k => fileBanner p (shown + k + 1) else []

/-- A line with its messages. -/
def listLine (p : Provenance) (o : Outcome) : Text :=
  listStatement p o ++ o.diagnostics.flatMap (listMessage p)

/-- All lines, each file under its heading. -/
def listLines (p : Provenance) : Nat → List Outcome → Text
  | shown, [] => fileBanners p shown p.files.length
  | shown, o :: rest =>
    let file := o.statement.line.file.toNatClampNeg
    fileBanners p shown file ++ listLine p o ++ listLines p (max shown file) rest

/-- References of a symbol, seven on a line; `n` of them stand on the line already. -/
def listReferences (p : Provenance) : Nat → List Word → Text
  | _, [] => []
  | n, key :: rest =>
    let reference := ascii "  " ++ (p.lineNumber key).padLeft 7
    if n = 7 then ascii "\n" ++ Text.blanks 33 ++ reference ++ listReferences p 1 rest
    else reference ++ listReferences p (n + 1) rest

/-- A symbol with its references. -/
def listSymbol (p : Provenance) (s : Symbol) : Text :=
  let defined := if s.isResolved then p.lineNumber s.defined else []
  ascii "  " ++ s.name.padRight 7 ++ ascii "  " ++ fiveDigits s.address ++ ascii "  " ++
    (ascii s.kind.name).padRight 6 ++ ascii "  " ++ defined.padLeft 7 ++
    listReferences p 0 s.references.toList ++ ascii "\n"

/-- The numbers of the files. -/
def listFiles (p : Provenance) : Text :=
  if p.multi then
    ascii "\n\n  Id  Source File\n  --  " ++ List.replicate 50 '-'.toUInt8 ++ ascii "\n" ++
      p.files.zipIdx.flatMap fun (file, i) =>
        ascii "  " ++ (Text.ofNat (i + 1)).padLeft 2 ++ ascii "  " ++ file ++ ascii "\n"
  else []

/-- The symbols of a program and the lines that refer to them. -/
def crossReference (p : Provenance) (symbols : SymbolTable) : Text :=
  let indent := Text.blanks 33
  ascii "\x0c\n" ++ indent ++ ascii "Symbol Cross-Reference Table\n" ++
    indent ++ ascii "============================\n" ++ listFiles p ++
    ascii "\n\n  Symbol   Addr.  Type    Defined  References\n" ++
    ascii "  -------  -----  ------  -------  " ++ List.replicate 61 '-'.toUInt8 ++ ascii "\n" ++
    symbols.sorted.flatMap (listSymbol p)

/-- The listing of a program. -/
def listing (p : Provenance) (program : Program) : Text :=
  productName ++ ascii "    Source: " ++ p.sourceList ++ ascii "    Assembled: " ++
    p.stamp.render ++ ascii "\n\n" ++ listLines p 0 program.outcomes ++
    program.trailing.flatMap (listMessage p) ++ crossReference p program.symbols

/-! ## The symbol map -/

/-- A list under its key, each item behind `indent` blanks and a dash. -/
def mapList (indent : Nat) (key : String) (items : List Text) : Text :=
  if items.isEmpty then ascii key ++ ascii ": []\n"
  else
    ascii key ++ ascii ":\n" ++ items.flatMap fun item =>
      Yaml.endLine (Text.blanks indent ++ ascii "- " ++ item)

/-- A line key without the blanks around it. -/
def mapLine (p : Provenance) (key : Word) : Text :=
  Yaml.scalar 4 (p.lineNumber key).trimLeft.trimRight

/-- A symbol as an item of the list. -/
def mapSymbol (p : Provenance) (s : Symbol) : Text :=
  Yaml.endLine (ascii "  - name: " ++ Yaml.scalar 6 s.name) ++
    ascii "    address: " ++ Text.ofWord s.address ++ ascii "\n" ++
    ascii "    type: " ++ Yaml.scalar 6 (ascii s.kind.name) ++ ascii "\n" ++
    (if s.isResolved then ascii "    defined: " ++ mapLine p s.defined ++ ascii "\n" else []) ++
    (if s.references.isEmpty then []
     else ascii "    " ++ mapList 6 "references" (s.references.toList.map (mapLine p)))

/-- The symbol map of a program. -/
def symbolMap (p : Provenance) (program : Program) : Text :=
  let symbols := program.symbols.sorted
  ascii "assembler: " ++ Yaml.scalar 2 productName ++ ascii "\n" ++
    mapList 2 "sources" (p.files.map (Yaml.scalar 4)) ++
    ascii "entry: " ++ Text.ofWord program.entry ++ ascii "\n" ++
    if symbols.isEmpty then ascii "symbols: []\n"
    else ascii "symbols:\n" ++ symbols.flatMap (mapSymbol p)

end SpsAssembler
