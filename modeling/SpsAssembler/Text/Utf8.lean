import SpsAssembler.Text.Basic

/-!
# Characters of a byte string

A byte string is read as UTF-8 from the left; a byte that starts no well-formed sequence is a
character of its own. Characters are counted for padded columns and mapped for capitals.

* `Glyph`, `Text.glyphs`: the characters of a byte string;
* `Text.isUtf8`: the byte strings that are characters throughout;
* `Glyph.encode`: the bytes of a character;
* `Text.width`, `Text.padRight`, `Text.padLeft`: columns counted in characters.
-/

namespace SpsAssembler

/-- A character: a code point, or one byte that is none. -/
inductive Glyph where
  | point (code : Nat)
  | stray (byte : Byte)
  deriving DecidableEq, Repr

namespace Glyph

/-- The code point that stands for a byte that is none. -/
def replacement : Nat := 0xFFFD

/-- The code point of a character, the replacement for a stray byte. -/
def code : Glyph → Nat
  | point c => c
  | stray _ => replacement

/-- The UTF-8 bytes of a code point. -/
def encode (c : Nat) : Text :=
  if c < 0x80 then [c.toUInt8]
  else if c < 0x800 then [(0xC0 + c / 0x40).toUInt8, (0x80 + c % 0x40).toUInt8]
  else if c < 0x10000 then
    [(0xE0 + c / 0x1000).toUInt8, (0x80 + c / 0x40 % 0x40).toUInt8, (0x80 + c % 0x40).toUInt8]
  else
    [(0xF0 + c / 0x40000).toUInt8, (0x80 + c / 0x1000 % 0x40).toUInt8,
      (0x80 + c / 0x40 % 0x40).toUInt8, (0x80 + c % 0x40).toUInt8]

/-- A byte that continues a sequence. -/
def isContinuation (b : Byte) : Bool := 0x80 ≤ b && b ≤ 0xBF

/-- The six bits that a continuation byte carries. -/
def payload (b : Byte) : Nat := b.toNat % 0x40

/-- The character that starts with `b`, and how many of the following bytes belong to it. Overlong
forms, surrogates and code points past U+10FFFF are refused. -/
def read (b : Byte) (rest : Text) : Glyph × Nat :=
  if b < 0x80 then (point b.toNat, 0)
  else if b < 0xC2 then (stray b, 0)
  else if b < 0xE0 then
    match rest with
    | c :: _ =>
      if isContinuation c then (point ((b.toNat - 0xC0) * 0x40 + payload c), 1) else (stray b, 0)
    | _ => (stray b, 0)
  else if b < 0xF0 then
    match rest with
    | c :: d :: _ =>
      let code := (b.toNat - 0xE0) * 0x1000 + payload c * 0x40 + payload d
      if isContinuation c && isContinuation d && 0x800 ≤ code &&
          !(0xD800 ≤ code && code ≤ 0xDFFF) then (point code, 2)
      else (stray b, 0)
    | _ => (stray b, 0)
  else if b < 0xF5 then
    match rest with
    | c :: d :: e :: _ =>
      let code := (b.toNat - 0xF0) * 0x40000 + payload c * 0x1000 + payload d * 0x40 + payload e
      if isContinuation c && isContinuation d && isContinuation e &&
          0x10000 ≤ code && code ≤ 0x10FFFF then (point code, 3)
      else (stray b, 0)
    | _ => (stray b, 0)
  else (stray b, 0)

end Glyph

namespace Text

/-- The characters of a byte string, from the left. -/
def glyphs : Text → List Glyph
  | [] => []
  | b :: rest => (Glyph.read b rest).1 :: glyphs (rest.drop (Glyph.read b rest).2)
termination_by t => t.length
decreasing_by simp only [List.length_drop, List.length_cons]; omega

/-- Whether a byte string is UTF-8: it has no stray bytes. -/
def isUtf8 : Text → Bool
  | [] => true
  | b :: rest =>
    match (Glyph.read b rest).1 with
    | .stray _ => false
    | .point _ => isUtf8 (rest.drop (Glyph.read b rest).2)
termination_by t => t.length
decreasing_by simp only [List.length_drop, List.length_cons]; omega

/-- The number of characters. -/
def width (t : Text) : Nat := t.glyphs.length

/-- Fills up with blanks on the right to `n` characters. -/
def padRight (t : Text) (n : Nat) : Text := t ++ blanks (n - t.width)

/-- Fills up with blanks on the left to `n` characters. -/
def padLeft (t : Text) (n : Nat) : Text := blanks (n - t.width) ++ t

/-- Applies `f` to every code point; a stray byte becomes the replacement character. -/
def mapGlyphs (f : Nat → Nat) (t : Text) : Text := t.glyphs.flatMap fun r => Glyph.encode (f r.code)

/-- The blanks and tabs of a text are dropped. Stray bytes of a text that has any become
replacement characters. -/
def strip (t : Text) : Text :=
  if t.any fun b => b == Byte.blank || b == Byte.tab then
    (t.glyphs.filter fun r => r != .point 0x20 && r != .point 0x09).flatMap fun r =>
      Glyph.encode r.code
  else t

/-- A code point that separates words. -/
def isSpaceCode (c : Nat) : Bool :=
  (0x09 ≤ c && c ≤ 0x0D) || c == 0x20 || c == 0x85 || c == 0xA0 || c == 0x1680 ||
    (0x2000 ≤ c && c ≤ 0x200A) || c == 0x2028 || c == 0x2029 || c == 0x202F || c == 0x205F ||
    c == 0x3000

/-- Whether a character separates words. -/
def isSpaceGlyph : Glyph → Bool
  | .point c => isSpaceCode c
  | .stray _ => false

/-- The bytes of a character as they stood in the text. -/
def glyphBytes : Glyph → Text
  | .point c => Glyph.encode c
  | .stray b => [b]

/-- Drops the separators on both sides. -/
def trimSpace (t : Text) : Text :=
  (((t.glyphs.dropWhile isSpaceGlyph).reverse.dropWhile isSpaceGlyph).reverse).flatMap glyphBytes

end Text

end SpsAssembler
