import SpsAssembler.Files.Store
import SpsAssembler.Source.Reading
import SpsAssembler.Text.Numeral

/-!
# What outputs are written for

The source files and the time of a run, as they are named in its outputs.

* `Stamp`, `Stamp.render`;
* `Provenance`, `Provenance.sourceList`, `Provenance.lineNumber`;
* `locateLine`: a line key as it is named in messages.
-/

namespace SpsAssembler

/-- The version that outputs name. -/
def version : Text := ascii "1.00"

/-- The name that outputs give the assembler. -/
def productName : Text := ascii "IBM 1620 Jr. SPS Assembler (v" ++ version ++ ascii ")"

/-- A minute of a day. -/
structure Stamp where
  year : Nat
  month : Nat
  day : Nat
  hour : Nat
  minute : Nat
  deriving DecidableEq, Repr

/-- A number of at least two digits. -/
def twoDigits (n : Nat) : Text := Text.zeroPadded 2 (Int64.ofNat n)

/-- Month, day and year, then the time. -/
def Stamp.render (s : Stamp) : Text :=
  Text.ofNat s.month ++ ascii "/" ++ twoDigits s.day ++ ascii "/" ++
    Text.zeroPadded 4 (Int64.ofNat s.year) ++ ascii " @ " ++ twoDigits s.hour ++ ascii ":" ++
    twoDigits s.minute

/-- The files, the format and the time of a run. -/
structure Provenance where
  files : List Text
  fixed : Bool
  stamp : Stamp
  deriving DecidableEq, Repr

namespace Provenance

/-- Whether there are several files. -/
def multi (p : Provenance) : Bool := 1 < p.files.length

/-- The first file, and a hint that there are more. -/
def sourceList (p : Provenance) : Text :=
  match p.files with
  | [] => []
  | [file] => file
  | file :: _ => file ++ ascii ",..."

/-- A line key in seven columns. -/
def lineNumber (p : Provenance) (key : Word) : Text :=
  let (file, line) := splitLineKey key
  if p.multi then
    (Text.ofWord file).padLeft 2 ++ ascii ":" ++ (Text.ofWord line).padRight 4
  else (Text.ofWord line).padLeft 7

end Provenance

/-- The place of a line key: the line, and the name of the file before it if there are several. -/
def locateLine (files : List Text) (multi : Bool) (key : Word) : Text :=
  let (file, line) := splitLineKey key
  if multi && 1 ≤ file && file ≤ Word.ofLength files then
    Path.base (files.getD (file.toNatClampNeg - 1) []) ++ ascii ":" ++ Text.ofWord line
  else Text.ofWord line

end SpsAssembler
