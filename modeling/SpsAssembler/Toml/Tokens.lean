import SpsAssembler.Toml.Quoted
import SpsAssembler.Toml.Word

/-!
# The tokens of a TOML document

Every reader takes a text and gives what it read with the rest of the text, or nothing if the text
is not well formed; what is wrong is not told. The brackets that are open are kept in a list, so
values may nest as deep as they like.

* `Toml.isCleanText`: the characters of documents;
* `Toml.readKey`, `Toml.readHeader`: the parts of a line;
* `Toml.Cursor`, `Toml.Cursor.next`, `Toml.scan`: a place in a document, and the tokens from there;
* `Toml.tokens`: the tokens of a document.
-/

namespace SpsAssembler.Toml

/-- Drops blanks and tabs. -/
def skipSpace (t : Text) : Text := t.dropWhile isSpace

/-- Drops blanks, ends of lines and comments; `inComment` tells that a comment has begun. -/
def skipLines : Bool → Text → Text
  | _, [] => []
  | inComment, b :: rest =>
    if inComment then skipLines (b != Byte.newline) rest
    else if isFoldable b then skipLines false rest
    else if b == '#'.toUInt8 then skipLines true rest
    else b :: rest

/-- What follows a given byte. -/
def after? (b : Byte) : Text → Option Text
  | [] => none
  | c :: rest => if c == b then some rest else none

/-- What follows a line that holds nothing more but perhaps a comment. -/
def finishLine? (t : Text) : Option Text :=
  match skipSpace t with
  | [] => some []
  | b :: rest =>
    if b == '#'.toUInt8 then some (rest.dropWhile (· != Byte.newline))
    else if isLineEnd b then some rest
    else none

/-- The longest key without quotes at the start of a text, behind what is `seen`, the last byte
first, and the rest. -/
def cutBare (edition : Edition) (seen : Text) : Text → Text × Text
  | [] => (seen.reverse, [])
  | b :: rest =>
    let (glyph, more) := Glyph.read b rest
    if isBareCode edition glyph.code then
      cutBare edition ((rest.take more).reverse ++ b :: seen) (rest.drop more)
    else (seen.reverse, b :: rest)
termination_by t => t.length
decreasing_by simp only [List.length_drop, List.length_cons]; omega

/-- A part of a key. -/
def readPart (edition : Edition) (t : Text) : Option (Text × Text) :=
  match t with
  | [] => none
  | b :: rest =>
    if b == doubleQuote || b == singleQuote then readLine edition b rest
    else
      let (part, rest) := cutBare edition [] t
      if part.isEmpty then none else some (part, rest)

/-- A key: parts with dots between them. `seen` holds the parts so far, the last one first. -/
def readKey (edition : Edition) : Nat → Key → Text → Option (Key × Text)
  | 0, _, _ => none
  | fuel + 1, seen, t =>
    match readPart edition (skipSpace t) with
    | none => none
    | some (part, rest) =>
      let rest := skipSpace rest
      match after? '.'.toUInt8 rest with
      | some rest => readKey edition fuel (part :: seen) rest
      | none => some ((part :: seen).reverse, rest)

/-- The header of a table, behind its first bracket. -/
def readHeader (edition : Edition) (fuel : Nat) (t : Text) : Option (Token × Text) :=
  match after? '['.toUInt8 t with
  | some t => do
    let (key, rest) ← readKey edition fuel [] t
    let rest ← after? ']'.toUInt8 rest
    let rest ← after? ']'.toUInt8 rest
    some (.header key true, rest)
  | none => do
    let (key, rest) ← readKey edition fuel [] t
    let rest ← after? ']'.toUInt8 rest
    some (.header key false, rest)

/-- A key and the sign between it and its value. -/
def readName (edition : Edition) (fuel : Nat) (t : Text) : Option (Token × Text) := do
  let (key, rest) ← readKey edition fuel [] t
  let rest ← after? '='.toUInt8 rest
  some (.key key, skipSpace rest)

/-- A bracket that is open. -/
inductive Bracket where
  | array
  | table
  deriving DecidableEq, Repr

/-- What a text is expected to go on with: a line, an entry of a table on one line, a value, what
follows a value, or nothing. -/
inductive Expected where
  | line
  | entry
  | value
  | more
  | nothing
  deriving DecidableEq, Repr

/-- A place between the tokens of a document: what is expected there, the brackets that are open,
the tokens before it, the last one first, and the text behind it. -/
structure Cursor where
  edition : Edition
  expected : Expected := .line
  brackets : List Bracket := []
  seen : List Token := []
  rest : Text

namespace Cursor

/-- Behind a token. -/
def push (c : Cursor) (token : Token) (expected : Expected) (rest : Text) : Cursor :=
  { c with expected, seen := token :: c.seen, rest }

/-- Inside a bracket. -/
def nest (c : Cursor) (bracket : Bracket) (token : Token) (expected : Expected) (rest : Text) :
    Cursor :=
  { c with expected, brackets := bracket :: c.brackets, seen := token :: c.seen, rest }

/-- Behind a closing bracket. -/
def close (c : Cursor) (token : Token) (rest : Text) : Cursor :=
  { c with expected := .more, brackets := c.brackets.drop 1, seen := token :: c.seen, rest }

/-- Drops what may stand between the entries of a table: blanks, and in the later edition ends of
lines and comments. -/
def skipInTable (c : Cursor) (t : Text) : Text :=
  match c.edition with
  | .v10 => skipSpace t
  | .v11 => skipLines false t

/-- Behind the header or the key of the next line. -/
def readLine (fuel : Nat) (c : Cursor) : Option Cursor :=
  match skipLines false c.rest with
  | [] => some { c with expected := .nothing, rest := [] }
  | b :: rest =>
    if b == '['.toUInt8 then
      (readHeader c.edition fuel rest).map fun (token, rest) => c.push token .more rest
    else (readName c.edition fuel (b :: rest)).map fun (token, rest) => c.push token .value rest

/-- Behind the key of an entry. -/
def readEntry (fuel : Nat) (c : Cursor) : Option Cursor :=
  (readName c.edition fuel c.rest).map fun (token, rest) => c.push token .value rest

/-- Behind a value or its opening bracket. -/
def readValue (c : Cursor) : Option Cursor :=
  match c.rest with
  | [] => none
  | b :: rest =>
    if b == doubleQuote || b == singleQuote then
      (readQuoted c.edition b rest).map fun (t, rest) => c.push (.scalar (.string t)) .more rest
    else if b == '['.toUInt8 then
      let inside := c.nest .array .openArray .value (skipLines false rest)
      match after? ']'.toUInt8 inside.rest with
      | some rest => some (inside.close .closeArray rest)
      | none => some inside
    else if b == 0x7B then
      let inside := c.nest .table .openTable .entry (c.skipInTable rest)
      match after? 0x7D inside.rest with
      | some rest => some (inside.close .closeTable rest)
      | none => some inside
    else (readWord c.edition c.rest).map fun (s, rest) => c.push (.scalar s) .more rest

/-- Behind what separates a value of an array from the next, or behind the end of the array. -/
def readArrayMore (c : Cursor) : Option Cursor :=
  match skipLines false c.rest with
  | [] => none
  | b :: rest =>
    if b == ']'.toUInt8 then some (c.close .closeArray rest)
    else if b == Byte.comma then
      let rest := skipLines false rest
      match after? ']'.toUInt8 rest with
      | some rest => some (c.close .closeArray rest)
      | none => some { c with expected := .value, rest }
    else none

/-- Behind what separates an entry of a table from the next, or behind the end of the table. Only
the later edition allows a comma behind the last entry. -/
def readTableMore (c : Cursor) : Option Cursor :=
  match c.skipInTable c.rest with
  | [] => none
  | b :: rest =>
    if b == 0x7D then some (c.close .closeTable rest)
    else if b == Byte.comma then
      let rest := c.skipInTable rest
      match after? 0x7D rest with
      | some rest => if c.edition == .v11 then some (c.close .closeTable rest) else none
      | none => some { c with expected := .entry, rest }
    else none

/-- Behind what follows a value. -/
def readMore (c : Cursor) : Option Cursor :=
  match c.brackets with
  | [] => (finishLine? c.rest).map fun rest => { c with expected := .line, rest }
  | .array :: _ => c.readArrayMore
  | .table :: _ => c.readTableMore

/-- Behind what is expected. -/
def next (fuel : Nat) (c : Cursor) : Option Cursor :=
  match c.expected with
  | .line => c.readLine fuel
  | .entry => c.readEntry fuel
  | .value => c.readValue
  | .more => c.readMore
  | .nothing => none

end Cursor

/-- All tokens of a document, from a place in it on. -/
def scan : Nat → Cursor → Option (List Token)
  | 0, _ => none
  | fuel + 1, c =>
    if c.expected == .nothing then some c.seen.reverse
    else match c.next fuel with
      | some c => scan fuel c
      | none => none

/-- Whether a text has only characters that documents may have: a carriage return stands before the
end of a line, and no other control characters but tabs are allowed. -/
def isCleanText : Text → Bool
  | [] => true
  | b :: rest =>
    (if b == 0x0D then rest.head? == some Byte.newline
     else !((b < 0x20 && b != Byte.tab && b != Byte.newline) || b == 0x7F)) && isCleanText rest

/-- Drops the mark of an encoding in front of a document. -/
def dropMark (t : Text) : Text :=
  if Text.hasPrefix [0xFF, 0xFE] t || Text.hasPrefix [0xFE, 0xFF] t then t.drop 2
  else if Text.hasPrefix [0xEF, 0xBB, 0xBF] t then t.drop 3
  else t

/-- The tokens of a document that is well formed. Every step to another place takes a byte, but for
those at the end of the text. -/
def tokens (edition : Edition) (content : Text) : Option (List Token) :=
  let t := dropMark content
  if t.isUtf8 && isCleanText t then
    scan (t.length + 4) { edition, rest := t }
  else none

end SpsAssembler.Toml
