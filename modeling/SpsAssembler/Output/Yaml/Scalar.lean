import SpsAssembler.Output.Yaml.Plain

/-!
# Scalars of YAML

How a text is written as a scalar: plain where that is safe, else between single quotes, between
double quotes, or as a block of lines. Bytes that are no text are written in base 64, three bytes as
four digits; the last group is filled up with equals signs.

* `Text.base64Digit`, `Text.base64`: bytes in base 64;
* `Text.chunks`: a text in parts of one length;
* `Traits`, `traitsOf`: what a text has that plain scalars must not have;
* `Style`, `styleOf`: how a text is written;
* `scalar`: the written text;
* `endLine`: what follows a scalar on its line.
-/

namespace SpsAssembler

namespace Text

/-- The digit of `n`, for `n < 64`: capitals, small letters, decimal digits and two signs. -/
def base64Digit (n : Nat) : Byte :=
  if n < 26 then 'A'.toUInt8 + n.toUInt8
  else if n < 52 then 'a'.toUInt8 + (n - 26).toUInt8
  else if n < 62 then '0'.toUInt8 + (n - 52).toUInt8
  else if n = 62 then '+'.toUInt8
  else '/'.toUInt8

/-- What fills up the last group of digits. -/
def base64Fill : Byte := '='.toUInt8

/-- The bytes of a text in base 64. -/
def base64 : Text → Text
  | a :: b :: c :: rest =>
    base64Digit (a.toNat / 4) :: base64Digit (a.toNat % 4 * 16 + b.toNat / 16) ::
      base64Digit (b.toNat % 16 * 4 + c.toNat / 64) :: base64Digit (c.toNat % 64) :: base64 rest
  | [a, b] =>
    [base64Digit (a.toNat / 4), base64Digit (a.toNat % 4 * 16 + b.toNat / 16),
      base64Digit (b.toNat % 16 * 4), base64Fill]
  | [a] => [base64Digit (a.toNat / 4), base64Digit (a.toNat % 4 * 16), base64Fill, base64Fill]
  | [] => []

/-- The parts of `n + 1` bytes that a text consists of; the last may be shorter. -/
def chunks (n : Nat) : Text → List Text
  | [] => []
  | b :: rest => (b :: rest.take n) :: chunks n (rest.drop n)
termination_by t => t.length
decreasing_by simp only [List.length_drop, List.length_cons]; omega

end Text

namespace Yaml

/-- A code point that may stand in a document as it is. -/
def isPrintableCode (c : Nat) : Bool :=
  c == 0x0A || (0x20 ≤ c && c ≤ 0x7E) || (0xA0 ≤ c && c ≤ 0xD7FF) ||
    (0xE000 ≤ c && c ≤ 0xFFFD && c != 0xFEFF)

/-- A code point that ends a line. -/
def isBreakCode (c : Nat) : Bool :=
  c == 0x0A || c == 0x0D || c == 0x85 || c == 0x2028 || c == 0x2029

/-- Whether the next character is a blank, a tab or the end. -/
def blankFollows : List Nat → Bool
  | [] => true
  | c :: _ => c == 0x20 || c == 0x09

/-- What a text has that keeps it from being plain, from single quotes or from a block. -/
structure Traits where
  indicator : Bool := false
  edge : Bool := false
  breaks : Bool := false
  trailingSpace : Bool := false
  breakSpace : Bool := false
  spaceBreak : Bool := false
  tab : Bool := false
  special : Bool := false
  deriving DecidableEq, Repr

/-- Whether a character starts a construct where it stands first in a text. -/
def isLeadIndicator (c : Nat) (rest : List Nat) : Bool :=
  (ascii "#,[]\x7b\x7d&*!|>\x27\x22%@\x60").any (fun b => b.toNat == c) ||
    ((c == 0x3F || c == 0x3A || c == 0x2D) && blankFollows rest)

/-- Whether a character starts a construct where it stands behind another. -/
def isInnerIndicator (blankBefore : Bool) (c : Nat) (rest : List Nat) : Bool :=
  (c == 0x3A && blankFollows rest) || (c == 0x23 && blankBefore)

/-- Adds what a character contributes to the traits of what follows it; `last` is the character
before it. -/
def Traits.add (t : Traits) (last : Option Nat) (c : Nat) (rest : List Nat) : Traits :=
  let space := c == 0x20
  let break_ := isBreakCode c
  let afterBreak := (last.map isBreakCode).getD false
  let afterSpace := last == some 0x20
  let indicator := match last with
    | none => isLeadIndicator c rest
    | some b => isInnerIndicator (b == 0x20 || b == 0x09 || isBreakCode b) c rest
  { indicator := t.indicator || indicator
    edge := t.edge || ((space || break_) && (last.isNone || rest.isEmpty))
    breaks := t.breaks || break_
    trailingSpace := t.trailingSpace || (space && rest.isEmpty)
    breakSpace := t.breakSpace || (space && afterBreak)
    spaceBreak := t.spaceBreak || (break_ && afterSpace)
    tab := t.tab || c == 0x09
    special := t.special || (c != 0x09 && !isPrintableCode c) }

/-- The traits of characters behind `last`. -/
def traitsFrom : Option Nat → List Nat → Traits
  | _, [] => {}
  | last, c :: rest => (traitsFrom (some c) rest).add last c rest

/-- Whether a text starts as the marks between documents do. -/
def startsMark (t : Text) : Bool := t.take 3 == ascii "---" || t.take 3 == ascii "..."

/-- The traits of a text. -/
def traitsOf (t : Text) : Traits :=
  let traits := traitsFrom none (t.glyphs.map Glyph.code)
  { traits with indicator := traits.indicator || startsMark t }

/-- How a text is written. -/
inductive Style where
  | plain
  | single
  | double
  | block
  deriving DecidableEq, Repr

/-- Whether a text may stand between single quotes. -/
def Traits.allowsSingle (t : Traits) : Bool := !(t.breakSpace || t.spaceBreak || t.tab || t.special)

/-- Whether a text may stand without quotes. -/
def Traits.allowsPlain (t : Traits) : Bool :=
  t.allowsSingle && !(t.indicator || t.edge || t.breaks)

/-- Whether a text may stand as a block of lines. -/
def Traits.allowsBlock (t : Traits) : Bool := !(t.trailingSpace || t.spaceBreak || t.special)

/-- The style of a text: text of several lines is a block, and text that would be read as something
else has double quotes. -/
def styleOf (t : Text) : Style :=
  let traits := traitsOf t
  if t.contains Byte.newline then (if traits.allowsBlock then .block else .double)
  else if !readsAsText t then .double
  else if traits.allowsPlain then .plain
  else if traits.allowsSingle then .single
  else .double

/-- A number in capital hexadecimal digits, at least `width` of them. -/
def capitalHex (width n : Nat) : Text :=
  let digits := (Nat.toDigits 16 n).map fun c => Byte.toUpper c.toUInt8
  List.replicate (width - digits.length) '0'.toUInt8 ++ digits

/-- A character between double quotes where it does not stand for itself. -/
def escaped (c : Nat) : Text :=
  if c == 0x00 then ascii "\\0"
  else if c == 0x07 then ascii "\\a"
  else if c == 0x08 then ascii "\\b"
  else if c == 0x09 then ascii "\\t"
  else if c == 0x0A then ascii "\\n"
  else if c == 0x0B then ascii "\\v"
  else if c == 0x0C then ascii "\\f"
  else if c == 0x0D then ascii "\\r"
  else if c == 0x1B then ascii "\\e"
  else if c == 0x22 then ascii "\\\""
  else if c == 0x5C then ascii "\\\\"
  else if c == 0x85 then ascii "\\N"
  else if c == 0xA0 then ascii "\\_"
  else if c == 0x2028 then ascii "\\L"
  else if c == 0x2029 then ascii "\\P"
  else if c ≤ 0xFF then ascii "\\x" ++ capitalHex 2 c
  else if c ≤ 0xFFFF then ascii "\\u" ++ capitalHex 4 c
  else ascii "\\U" ++ capitalHex 8 c

/-- Whether a character stands for itself between double quotes. -/
def isPlainCode (c : Nat) : Bool :=
  isPrintableCode c && !isBreakCode c && c != 0x22 && c != 0x5C

/-- The mark of an encoding. -/
def byteOrderMark : Nat := 0xFEFF

/-- Characters between double quotes. In a text that starts with the mark of an encoding no
character stands for itself. -/
def doubleQuoted (codes : List Nat) : Text :=
  let marked := codes.head? == some byteOrderMark
  ascii "\"" ++
    codes.flatMap (fun c => if !marked && isPlainCode c then Glyph.encode c else escaped c) ++
    ascii "\""

/-- Characters, where those behind the end of a line stand behind `indent` blanks. `fresh` tells
that a line has ended. -/
def indented (write : Nat → Text) (indent : Nat) : Bool → List Nat → Text
  | _, [] => []
  | fresh, c :: rest =>
    if isBreakCode c then Glyph.encode c ++ indented write indent true rest
    else (if fresh then Text.blanks indent else []) ++ write c ++ indented write indent false rest

/-- Characters between single quotes. -/
def singleQuoted (indent : Nat) (codes : List Nat) : Text :=
  ascii "'" ++
    indented (fun c => if c == 0x27 then ascii "''" else Glyph.encode c) indent false codes ++
    ascii "'"

/-- What a block says about its first and its last lines. -/
def blockHints (codes : List Nat) : Text :=
  let leading := codes.head?.any fun c => c == 0x20 || isBreakCode c
  let closing : Text :=
    match codes.reverse with
    | last :: before =>
      if !isBreakCode last then ascii "-"
      else if before.head?.all isBreakCode then ascii "+"
      else []
    | [] => ascii "-"
  (if leading then ascii "2" else []) ++ closing

/-- The lines of a block, each one that is not empty behind `indent` blanks. A block that starts
with the end of a line has no other end of its first line. -/
def blockLines (indent : Nat) (codes : List Nat) : Text :=
  (if codes.head?.any isBreakCode then [] else ascii "\n") ++
    indented Glyph.encode indent true codes

/-- The length of a line of digits, less one. -/
def binaryLine : Nat := 69

/-- The digits of bytes that are no text. More than a line of them is written line by line. -/
def binaryDigits (t : Text) : Text :=
  let digits := t.base64
  if digits.length ≤ binaryLine then digits
  else (digits.chunks binaryLine).flatMap fun line => line ++ ascii "\n"

/-- Valid text as a scalar. The lines of a block are moved by `indent` blanks. -/
def textScalar (indent : Nat) (style : Style) (t : Text) : Text :=
  let codes := t.glyphs.map Glyph.code
  match style with
  | .plain => t
  | .single => singleQuoted indent codes
  | .double => doubleQuoted codes
  | .block => ascii "|" ++ blockHints codes ++ blockLines indent codes

/-- A text as a scalar. Bytes that are no text are tagged, and their digits are never quoted. -/
def scalar (indent : Nat) (t : Text) : Text :=
  if t.isUtf8 then textScalar indent (styleOf t) t
  else
    let digits := binaryDigits t
    ascii "!!binary " ++
      textScalar indent (if digits.contains Byte.newline then .block else .plain) digits

/-- Ends a line. A block that ends in the end of a line needs no other. -/
def endLine (t : Text) : Text :=
  if (t.glyphs.getLast?.map Glyph.code).any isBreakCode then t else t ++ ascii "\n"

end Yaml

end SpsAssembler
