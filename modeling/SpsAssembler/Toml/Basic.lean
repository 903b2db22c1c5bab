import SpsAssembler.Fault
import SpsAssembler.Text.Numeral

/-!
# TOML documents

A document is read as a row of tokens: headers of tables, keys, and the values behind them. Arrays
and tables that are values have a token at each end.

* `Toml.Edition`: the editions of the format;
* `Toml.Key`, `Toml.Scalar`, `Toml.Token`;
* `Toml.isBareByte`, `Toml.isBareCode`: the characters of keys that need no quotes;
* `Toml.Key.render`: a key as it is named in messages.
-/

namespace SpsAssembler.Toml

/-- The editions of the format. The later one knows more escapes and times without seconds, has more
letters in keys without quotes, and lets a table that is a value have several lines. -/
inductive Edition where
  | v10
  | v11
  deriving DecidableEq, Repr

/-- A key, from the outermost table inwards. -/
abbrev Key := List Text

/-- A value that holds no others. Numbers with a fraction and times are only told apart. -/
inductive Scalar where
  | string (t : Text)
  | integer (n : Word)
  | boolean (b : Bool)
  | float
  | time
  deriving DecidableEq, Repr

/-- A part of a document: the header of a table or of the next table of an array, a key, or a value
or one end of it. -/
inductive Token where
  | header (key : Key) (inArray : Bool)
  | key (key : Key)
  | scalar (s : Scalar)
  | openArray
  | closeArray
  | openTable
  | closeTable
  deriving DecidableEq, Repr

/-- A character of keys that need no quotes. -/
def isBareByte (b : Byte) : Bool :=
  b.isUpper || b.isLower || b.isDigit || b == '_'.toUInt8 || b == '-'.toUInt8

/-- The letters and digits beyond ASCII that need no quotes in the later edition, from the first to
the last of a range. -/
def bareRanges : List (Nat × Nat) :=
  [(0xB2, 0xB3), (0xB9, 0xB9), (0xBC, 0xBE), (0xC0, 0xD6), (0xD8, 0xF6), (0xF8, 0x37D),
   (0x37F, 0x1FFF), (0x200C, 0x200D), (0x203F, 0x2040), (0x2070, 0x218F), (0x2460, 0x24FF),
   (0x2C00, 0x2FEF), (0x3001, 0xD7FF), (0xF900, 0xFDCF), (0xFDF0, 0xFFFD), (0x10000, 0xEFFFF)]

/-- A character of keys that need no quotes in an edition. -/
def isBareCode (edition : Edition) (code : Nat) : Bool :=
  if code < 0x80 then isBareByte code.toUInt8
  else edition == .v11 && bareRanges.any fun r => decide (r.1 ≤ code) && decide (code ≤ r.2)

/-- A byte between double quotes. -/
def escapeByte (b : Byte) : Text :=
  if b == 0x22 then ascii "\\\""
  else if b == 0x5C then ascii "\\\\"
  else if b == 0x08 then ascii "\\b"
  else if b == 0x09 then ascii "\\t"
  else if b == 0x0A then ascii "\\n"
  else if b == 0x0C then ascii "\\f"
  else if b == 0x0D then ascii "\\r"
  else if b < 0x20 || b == 0x7F then
    ascii "\\u00" ++ [Text.hexDigit (b.toNat / 16), Text.hexDigit (b.toNat % 16)].map Byte.toLower
  else [b]

/-- A part of a key, between quotes if it needs them. -/
def renderPart (part : Text) : Text :=
  if !part.isEmpty && part.all isBareByte then part
  else ascii "\"" ++ part.flatMap escapeByte ++ ascii "\""

/-- A key with dots between its parts. -/
def Key.render (key : Key) : Text := Text.join (ascii ".") (List.map renderPart key)

end SpsAssembler.Toml
