import SpsAssembler.Source.Reading
import SpsAssembler.Source.TabStops
import SpsAssembler.Text.Capitals

/-!
# Source formats

A line is cut into label, operation and operands by columns, as on a card, or by blanks. It is
capitalized first, and a line with characters outside the source alphabet is not cut at all.

* `SourceFormat`, `SourceFormat.parse?`;
* `isSourceByte`: the source alphabet;
* `Line.ofCard`, `Line.ofWords`: the fields of a line in either format;
* `tokenize`: a line from its text.
-/

namespace SpsAssembler

/-- How a line is laid out. -/
inductive SourceFormat where
  | fixed
  | freeform
  deriving DecidableEq, Repr

namespace SourceFormat

/-- The name of a format. -/
def name : SourceFormat → Text
  | fixed => ascii "fixed"
  | freeform => ascii "freeform"

/-- The format of a name, in capitals or small letters. -/
def parse? (t : Text) : Option SourceFormat :=
  let word := t.toLowerAscii
  if word == ascii "fixed" then some fixed
  else if word == ascii "freeform" || word == ascii "free" then some freeform
  else none

end SourceFormat

/-- A character of the source alphabet. -/
def isSourceByte (b : Byte) : Bool :=
  b.isUpper || b.isDigit || (ascii " .)+$*-/,(=@").contains b

namespace Line

/-- A line of columns: the label in columns 6 to 11, the operation in 12 to 15 and the operands in
16 to 75. A star in column 6 makes a comment. -/
def ofCard (text : Text) : Line :=
  if (text.slice 5 75).isBlank || text.slice 5 6 == ascii "*" then { text, comment := true }
  else
    { text
      label := (text.slice 5 11).trimRight
      operation := (text.slice 11 15).trimRight
      operands := (text.slice 15 75).trimLeft }

/-- Not a blank. -/
def isInk (b : Byte) : Bool := b != Byte.blank

/-- A line of words: a label, which may be missing before the first blank, an operation, and the
operands behind it. A star in front makes a comment. A line that has no operation has no fields. -/
def ofWords (text : Text) : Line :=
  if text.isBlank || text.head? == some '*'.toUInt8 then { text, comment := true }
  else
    let behind := Text.trimLeft (text.dropWhile isInk)
    if behind.isEmpty then { text }
    else
      { text
        label := text.takeWhile isInk
        operation := behind.takeWhile isInk
        operands := Text.trimLeft (behind.dropWhile isInk) }

end Line

/-- The line of a text. -/
def tokenize (format : SourceFormat) (tabs : TabStops) (raw : Text) : Except Fault Line :=
  match format with
  | .fixed =>
    let text := raw.toUpper
    .ok (if text.all isSourceByte then .ofCard text else { text, invalid := true })
  | .freeform =>
    match tabs.expand raw.toUpper with
    | .error f => .error f
    | .ok text => .ok (if text.all isSourceByte then .ofWords text else { text, invalid := true })

end SpsAssembler
