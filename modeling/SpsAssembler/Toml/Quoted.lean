import SpsAssembler.Toml.Basic

/-!
# Quoted text in TOML

Text stands between double quotes, where a backslash starts an escape, or between single quotes,
where every character stands for itself. Between three quotes it may have several lines. A text is
cut at its closing quotes first and unescaped then.

* `Toml.cutLine`, `Toml.cutLong`: what stands before the closing quotes;
* `Toml.unescape`: the text that escapes stand for;
* `Toml.readLine`, `Toml.readQuoted`: quoted text and what follows it.
-/

namespace SpsAssembler.Toml

/-- The double quote. -/
def doubleQuote : Byte := 0x22

/-- The single quote. -/
def singleQuote : Byte := 0x27

/-- The start of an escape. -/
def backslash : Byte := 0x5C

/-- What ends a line; a carriage return stands before a newline only. -/
def isLineEnd (b : Byte) : Bool := b == Byte.newline || b == 0x0D

/-- A blank or a tab. -/
def isSpace (b : Byte) : Bool := b == Byte.blank || b == Byte.tab

/-- Cuts a text on one line at its closing quote. `escaped` tells that a backslash was the last
byte, and `seen` holds the bytes so far, the last one first. -/
def cutLine (quote : Byte) : Bool → Text → Text → Option (Text × Text)
  | _, _, [] => none
  | escaped, seen, b :: rest =>
    if isLineEnd b then none
    else if b == quote && !escaped then some (seen.reverse, rest)
    else cutLine quote (b == backslash && !escaped && quote == doubleQuote) (b :: seen) rest

/-- How a text that is not closed yet ends: in a backslash that starts an escape, in a number of
quotes, and whether a backslash stands before those quotes. -/
structure Tail where
  escaped : Bool := false
  quotes : Nat := 0
  guarded : Bool := false
  deriving DecidableEq, Repr

namespace Tail

/-- The end of a text with one more byte. -/
def push (tail : Tail) (quote b : Byte) : Tail :=
  if b == quote then { tail with escaped := false, quotes := tail.quotes + 1 }
  else
    let slash := b == backslash && quote == doubleQuote
    { escaped := slash && !tail.escaped, quotes := 0, guarded := slash }

/-- Whether a quote and three more behind it are too many: two quotes may stand before the three
that close a text, and one more where the first is escaped. -/
def isFull (tail : Tail) : Bool := 2 ≤ tail.quotes && !(tail.guarded && tail.quotes == 2)

end Tail

/-- Cuts a text over several lines at its closing quotes, the last three of their row. -/
def cutLong (quote : Byte) : Tail → Text → Text → Option (Text × Text)
  | _, _, [] => none
  | tail, seen, b :: rest =>
    if b == quote && !tail.escaped && rest.take 2 == [quote, quote] then
      if (rest.drop 2).head? != some quote then some (seen.reverse, rest.drop 2)
      else if tail.isFull then none
      else cutLong quote (tail.push quote b) (b :: seen) rest
    else cutLong quote (tail.push quote b) (b :: seen) rest

/-- The value of hexadecimal digits. -/
def hexValue? (t : Text) : Option Nat :=
  t.foldl (fun acc b => do
    let n ← acc
    let d ← Text.digitOf? b
    if d < 16 then some (16 * n + d) else none) (some 0)

/-- The character of a code of `width` hexadecimal digits, and the rest. -/
def readCode (width : Nat) (t : Text) : Option (Text × Text) := do
  if (t.take width).length != width then none
  let code ← hexValue? (t.take width)
  if code ≤ 0x10FFFF && !(0xD800 ≤ code && code ≤ 0xDFFF) then
    some (Glyph.encode code, t.drop width)
  else none

/-- The character behind a backslash, and the rest. -/
def readEscape (edition : Edition) : Text → Option (Text × Text)
  | [] => none
  | b :: rest =>
    if b == 'b'.toUInt8 then some ([0x08], rest)
    else if b == 't'.toUInt8 then some ([0x09], rest)
    else if b == 'n'.toUInt8 then some ([0x0A], rest)
    else if b == 'f'.toUInt8 then some ([0x0C], rest)
    else if b == 'r'.toUInt8 then some ([0x0D], rest)
    else if b == doubleQuote || b == backslash then some ([b], rest)
    else if b == 'u'.toUInt8 then readCode 4 rest
    else if b == 'U'.toUInt8 then readCode 8 rest
    else if edition == .v11 && b == 'e'.toUInt8 then some ([0x1B], rest)
    else if edition == .v11 && b == 'x'.toUInt8 then readCode 2 rest
    else none

/-- Blanks and ends of lines. -/
def isFoldable (b : Byte) : Bool := isSpace b || isLineEnd b

/-- The text that escapes stand for. A backslash at the end of a line stands for nothing, and so do
the blanks and ends of lines behind it. `seen` holds the bytes so far, the last one first. -/
def unescapeFrom (edition : Edition) : Nat → Text → Text → Option Text
  | _, seen, [] => some seen.reverse
  | 0, _, _ => none
  | fuel + 1, seen, b :: rest =>
    if b != backslash then unescapeFrom edition fuel (b :: seen) rest
    else if (rest.takeWhile isFoldable).contains Byte.newline then
      unescapeFrom edition fuel seen (rest.dropWhile isFoldable)
    else match readEscape edition rest with
      | some (c, rest) => unescapeFrom edition fuel (c.reverse ++ seen) rest
      | none => none

@[inherit_doc unescapeFrom]
def unescape (edition : Edition) (t : Text) : Option Text := unescapeFrom edition t.length [] t

/-- What a text between quotes stands for. -/
def resolveQuoted (edition : Edition) (quote : Byte) (t : Text) : Option Text :=
  if quote == doubleQuote then unescape edition t else some t

/-- The end of a line behind opening quotes is dropped. -/
def skipFirstBreak : Text → Text
  | a :: b :: rest =>
    if a == Byte.newline then b :: rest
    else if a == 0x0D && b == Byte.newline then rest
    else a :: b :: rest
  | [a] => if a == Byte.newline then [] else [a]
  | [] => []

/-- The text on one line behind its opening quote, and the rest. -/
def readLine (edition : Edition) (quote : Byte) (t : Text) : Option (Text × Text) :=
  match cutLine quote false [] t with
  | some (body, rest) => (resolveQuoted edition quote body).map fun s => (s, rest)
  | none => none

/-- The text over several lines behind its opening quotes, and the rest. -/
def readLong (edition : Edition) (quote : Byte) (t : Text) : Option (Text × Text) :=
  match cutLong quote {} [] t with
  | some (body, rest) =>
    (resolveQuoted edition quote (skipFirstBreak body)).map fun s => (s, rest)
  | none => none

/-- The text behind its first quote, and the rest. -/
def readQuoted (edition : Edition) (quote : Byte) (t : Text) : Option (Text × Text) :=
  if t.take 2 == [quote, quote] then readLong edition quote (t.drop 2)
  else readLine edition quote t

end SpsAssembler.Toml
