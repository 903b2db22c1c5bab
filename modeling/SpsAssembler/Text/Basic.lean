/-!
# Byte strings

Source lines, names, operands and messages are strings of bytes: columns, lengths and cuts count
bytes, and no byte is refused. Only padded columns count characters (`SpsAssembler.Text.Utf8`).

* `Text`, `ascii`: byte strings and their literals;
* classes of bytes: `Byte.isDigit`, `Byte.isUpper`, `Byte.isLower`;
* blanks: `Text.isBlank`, `Text.trimLeft`, `Text.trimRight`;
* cuts: `Text.slice`, `Text.fields`, `Text.join`, `Text.hasPrefix`, `Text.hasSuffix`;
* the byte order of names: `Text.before`.
-/

namespace SpsAssembler

/-- A unit of text. -/
abbrev Byte := UInt8

/-- Text is a string of bytes, in no particular encoding. -/
abbrev Text := List Byte

/-- The bytes of a literal in the ASCII set. -/
def ascii (s : String) : Text := s.toList.map Char.toUInt8

/-- The UTF-8 bytes of a string. -/
def Text.ofString (s : String) : Text := s.toList.flatMap String.utf8EncodeChar

namespace Byte

/-- The blank of the source alphabet. -/
def blank : Byte := ' '.toUInt8

/-- The horizontal tab. -/
def tab : Byte := '\t'.toUInt8

/-- The end of a line. -/
def newline : Byte := '\n'.toUInt8

/-- The separator of operands. -/
def comma : Byte := ','.toUInt8

/-- `lo ≤ b ≤ hi`, for the ends of a range of ASCII characters. -/
def within (lo hi : Char) (b : Byte) : Bool := lo.toUInt8 ≤ b && b ≤ hi.toUInt8

/-- A decimal digit. -/
def isDigit (b : Byte) : Bool := within '0' '9' b

/-- A capital letter. -/
def isUpper (b : Byte) : Bool := within 'A' 'Z' b

/-- A small letter. -/
def isLower (b : Byte) : Bool := within 'a' 'z' b

/-- A byte that stands for itself in UTF-8. -/
def isAscii (b : Byte) : Bool := b < 0x80

/-- Capitals for small letters, all else as it is. -/
def toUpper (b : Byte) : Byte := if isLower b then b - 0x20 else b

/-- Small letters for capitals, all else as it is. -/
def toLower (b : Byte) : Byte := if isUpper b then b + 0x20 else b

/-- The digit of `n`, for `n < 10`. -/
def ofDigit (n : Nat) : Byte := '0'.toUInt8 + n.toUInt8

end Byte

namespace Text

/-- Nothing but blanks. -/
def isBlank (t : Text) : Bool := t.all (· == Byte.blank)

/-- Drops the blanks on the left. -/
def trimLeft (t : Text) : Text := t.dropWhile (· == Byte.blank)

/-- Drops the blanks on the right. -/
def trimRight (t : Text) : Text := (t.reverse.dropWhile (· == Byte.blank)).reverse

/-- The bytes from position `start` up to position `stop`, as far as there are any. -/
def slice (t : Text) (start stop : Nat) : Text := (t.take stop).drop start

/-- Puts a byte in front of parts, starting a new part at a separator. -/
def pushField (sep b : Byte) : List Text → List Text
  | [] => [[b]]
  | first :: more => if b == sep then [] :: first :: more else (b :: first) :: more

/-- The parts between the separators; there is always at least one. -/
def fields (sep : Byte) (t : Text) : List Text := t.foldr (pushField sep) [[]]

theorem fields_ne_nil (sep : Byte) (t : Text) : t.fields sep ≠ [] := by
  cases t with
  | nil => exact List.cons_ne_nil _ _
  | cons b t =>
    change pushField sep b (fields sep t) ≠ []
    cases fields sep t with
    | nil => exact List.cons_ne_nil _ _
    | cons first more =>
      rw [pushField]
      split <;> exact List.cons_ne_nil _ _

/-- The parts with `sep` between each two. -/
def join (sep : Text) : List Text → Text
  | [] => []
  | [t] => t
  | t :: rest => t ++ sep ++ join sep rest

/-- Whether `t` starts with `p`. -/
def hasPrefix (p t : Text) : Bool := p.isPrefixOf t

/-- Whether `t` ends in `s`. -/
def hasSuffix (s t : Text) : Bool := s.isSuffixOf t

/-- Byte order: the first difference decides, and a part comes before the whole. -/
def before : Text → Text → Bool
  | _, [] => false
  | [], _ :: _ => true
  | a :: s, b :: t => a < b || (a == b && before s t)

/-- `n` blanks. -/
def blanks (n : Nat) : Text := List.replicate n Byte.blank

/-- The value of a string of decimal digits. -/
def digitsValue (t : Text) : Nat := t.foldl (fun n b => 10 * n + (b - '0'.toUInt8).toNat) 0

/-- A nonempty string of decimal digits. -/
def isNumber (t : Text) : Bool := !t.isEmpty && t.all Byte.isDigit

end Text

end SpsAssembler
