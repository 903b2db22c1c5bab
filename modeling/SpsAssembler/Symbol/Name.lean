import SpsAssembler.Diagnostic.Cause

/-!
# Names of symbols

A label has up to six characters and is no number. A head puts short names into a name space of
their own: the symbol `NAME` under head `H` is kept under the key `H$NAME`. A reference may name
the head itself, and `$NAME` is the name without a head.

* `isHead`, `isLabel`, `isSymbol`: the spellings;
* `headKey`: the key of a label under a head;
* `referenceKey`: the key that a reference means.
-/

namespace SpsAssembler

/-- The character between a head and a name. -/
def headMark : Byte := '$'.toUInt8

/-- A blank, a digit or a letter up to `Y`. -/
def isHead (b : Byte) : Bool := b == Byte.blank || Byte.within 'A' 'Y' b || b.isDigit

/-- A character of names; `divide` admits the slash. -/
def isNameByte (divide : Bool) (b : Byte) : Bool :=
  b.isUpper || b.isDigit || b == '='.toUInt8 || b == '@'.toUInt8 || b == '.'.toUInt8 ||
    (divide && b == '/'.toUInt8)

/-- A name of one to `limit` characters. -/
def isName (divide : Bool) (limit : Nat) (name : Text) : Bool :=
  !name.isEmpty && name.length ≤ limit && name.all (isNameByte divide)

/-- Whether a name may be defined as a label. -/
def isLabel (divide : Bool) (name : Text) : Bool := isName divide 6 name && !name.isNumber

/-- A name that says its head: a letter, a digit or nothing before the mark. -/
def isHeadedName (divide : Bool) : Text → Bool
  | [] => false
  | b :: rest =>
    if b == headMark then isName divide 5 rest
    else (b.isUpper || b.isDigit) && match rest with
      | [] => false
      | m :: name => m == headMark && isName divide 5 name

/-- Whether a name may be referred to, with or without a head. -/
def isSymbol (divide : Bool) (name : Text) : Bool :=
  (isName divide 6 name || isHeadedName divide name) && !name.isNumber

/-- The key of a name under a head; names of six characters stand under no head. -/
def headKey (head : Byte) (name : Text) : Text :=
  if head != Byte.blank && name.length < 6 then Glyph.encode head.toNat ++ headMark :: name
  else name

/-- The key that a reference means where `head` is in force, or what is wrong with it. -/
def referenceKey (divide : Bool) (head : Byte) (name : Text) : Except Cause Text :=
  match name.takeWhile (· != headMark), name.dropWhile (· != headMark) with
  | _, [] => if isSymbol divide name then .ok (headKey head name) else .error (.invalidSymbol name)
  | [], _ :: rest => .ok rest
  | [h], _ :: rest =>
    if !isHead h then .error (.invalidSymbolHead (Glyph.encode h.toNat))
    else if !isSymbol divide rest then .error (.invalidSymbol rest)
    else .ok name
  | before, _ :: _ => .error (.invalidSymbolHead before)

end SpsAssembler
