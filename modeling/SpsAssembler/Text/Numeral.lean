import SpsAssembler.Text.Utf8

/-!
# Numbers in text

Numbers are words of 64 bits. They are written in decimal, with or without leading zeros, and read
in decimal or, where a base prefix is allowed, in the base that the prefix names.

* `Text.ofNat`, `Text.ofInt`, `Text.ofWord`: decimal numerals;
* `Text.zeroPadded`, `Text.hex2`: numerals of a least width;
* `Text.bullets`: failures under their number;
* `NumeralError`, `Text.readDecimal`, `Text.readInteger`: reading a word;
* `Text.readMantissa`, `Text.readExponent`: the parts of a numeral with a point and an exponent;
* `Text.isFinite`, `Text.isFloatNumeral`: numerals of numbers that are small enough for a double.
-/

namespace SpsAssembler

namespace Text

/-- The decimal numeral of a natural number. -/
def ofNat (n : Nat) : Text := (Nat.toDigits 10 n).map Char.toUInt8

/-- The decimal numeral of an integer. -/
def ofInt (n : Int) : Text :=
  if n < 0 then '-'.toUInt8 :: ofNat n.natAbs else ofNat n.natAbs

/-- The decimal numeral of a word. -/
def ofWord (n : Int64) : Text := ofInt n.toInt

/-- A decimal numeral filled up with zeros after the sign, to at least `n` bytes. -/
def zeroPadded (n : Nat) (w : Int64) : Text :=
  let digits := ofNat w.toInt.natAbs
  if w < 0 then '-'.toUInt8 :: (List.replicate (n - 1 - digits.length) '0'.toUInt8 ++ digits)
  else List.replicate (n - digits.length) '0'.toUInt8 ++ digits

/-- The capital hexadecimal digit of `n`, for `n < 16`. -/
def hexDigit (n : Nat) : Byte :=
  if n < 10 then '0'.toUInt8 + n.toUInt8 else 'A'.toUInt8 + (n - 10).toUInt8

/-- The two capital hexadecimal digits of a byte. -/
def hex2 (b : Byte) : Text := [hexDigit (b.toNat / 16), hexDigit (b.toNat % 16)]

end Text

/-- Why a text is no word. -/
inductive NumeralError where
  | malformed
  | outOfRange
  deriving DecidableEq, Repr

/-- The wording of the cause. -/
def NumeralError.message : NumeralError → Text
  | malformed => ascii "invalid syntax"
  | outOfRange => ascii "value out of range"

namespace Text

/-- A leading sign and what follows it. -/
def splitSign : Text → Bool × Text
  | b :: rest =>
    if b == '-'.toUInt8 then (true, rest)
    else if b == '+'.toUInt8 then (false, rest)
    else (false, b :: rest)
  | [] => (false, [])

/-- The value of a digit or letter, in bases beyond ten. -/
def digitOf? (b : Byte) : Option Nat :=
  if b.isDigit then some (b - '0'.toUInt8).toNat
  else if b.isLower then some ((b - 'a'.toUInt8).toNat + 10)
  else if b.isUpper then some ((b - 'A'.toUInt8).toNat + 10)
  else none

/-- Reads digits of a base from the left; the first fault met decides. With `spaced` underscores
are passed over. -/
def readDigits (base : Nat) (spaced : Bool) : Nat → Text → Except NumeralError Nat
  | n, [] => .ok n
  | n, b :: rest =>
    if spaced && b == '_'.toUInt8 then readDigits base spaced n rest
    else match digitOf? b with
      | none => .error .malformed
      | some d =>
        if base ≤ d then .error .malformed
        else if 0x10000000000000000 ≤ n * base + d then .error .outOfRange
        else readDigits base spaced (n * base + d) rest

/-- The word of a magnitude and a sign. -/
def signedWord (negative : Bool) (n : Nat) : Except NumeralError Int64 :=
  if negative then
    if 0x8000000000000000 < n then .error .outOfRange else .ok (Int64.ofInt (-(n : Int)))
  else if 0x8000000000000000 ≤ n then .error .outOfRange
  else .ok (Int64.ofInt n)

/-- A decimal numeral with an optional sign. -/
def readDecimal (t : Text) : Except NumeralError Int64 :=
  let (negative, digits) := splitSign t
  if digits.isEmpty then .error .malformed
  else (readDigits 10 false 0 digits).bind (signedWord negative)

/-- The base that a prefix of an unsigned numeral names, and the digits after it. -/
def splitBase : Text → Nat × Text
  | z :: x :: rest =>
    if z == '0'.toUInt8 then
      if rest.isEmpty then (8, x :: rest)
      else if x.toLower == 'b'.toUInt8 then (2, rest)
      else if x.toLower == 'o'.toUInt8 then (8, rest)
      else if x.toLower == 'x'.toUInt8 then (16, rest)
      else (8, x :: rest)
    else (10, z :: x :: rest)
  | [z] => if z == '0'.toUInt8 then (8, []) else (10, [z])
  | [] => (10, [])

/-- What stood before a position of a numeral, as far as underscores are concerned. -/
inductive Spacing where
  | start
  | digit
  | underscore
  | other
  deriving DecidableEq

/-- Whether every underscore stands between two digits. -/
def spacingOk (hex : Bool) : Spacing → Text → Bool
  | seen, [] => seen != .underscore
  | seen, b :: rest =>
    if b.isDigit || (hex && Byte.within 'a' 'f' b.toLower) then spacingOk hex .digit rest
    else if b == '_'.toUInt8 then
      if seen == .digit then spacingOk hex .underscore rest else false
    else if seen == .underscore then false
    else spacingOk hex .other rest

/-- Whether the underscores of an unsigned numeral separate its digits; a base prefix counts as a
digit. -/
def underscoresOk : Text → Bool
  | z :: x :: rest =>
    if z == '0'.toUInt8 &&
        (x.toLower == 'b'.toUInt8 || x.toLower == 'o'.toUInt8 || x.toLower == 'x'.toUInt8) then
      spacingOk (x.toLower == 'x'.toUInt8) .digit rest
    else spacingOk false .start (z :: x :: rest)
  | t => spacingOk false .start t

/-- A numeral with an optional sign, an optional base prefix and underscores between its
digits. -/
def readInteger (t : Text) : Except NumeralError Int64 :=
  let (negative, unsigned) := splitSign t
  if unsigned.isEmpty then .error .malformed
  else
    let (base, digits) := splitBase unsigned
    match readDigits base true 0 digits with
    | .error e => .error e
    | .ok n =>
      if digits.contains '_'.toUInt8 && !underscoresOk unsigned then .error .malformed
      else signedWord negative n

/-! ## Points and exponents -/

/-- The mantissa of a decimal numeral: its digits without the point, how many of them stand behind
the point, and what follows. -/
def readMantissa (t : Text) : Option (Text × Nat × Text) :=
  let whole := t.takeWhile Byte.isDigit
  match t.dropWhile Byte.isDigit with
  | b :: rest =>
    if b == '.'.toUInt8 then
      let part := rest.takeWhile Byte.isDigit
      if whole.isEmpty && part.isEmpty then none
      else some (whole ++ part, part.length, rest.dropWhile Byte.isDigit)
    else if whole.isEmpty then none
    else some (whole, 0, b :: rest)
  | [] => if whole.isEmpty then none else some (whole, 0, [])

/-- An exponent that takes no more digits. -/
def fullExponent : Nat := 10000

/-- The number of the digits of an exponent. Once it is ten thousand or more, the digits that are
left do not count. -/
def exponentValue (digits : Text) : Nat :=
  digits.foldl (fun n b => if n < fullExponent then 10 * n + (b - '0'.toUInt8).toNat else n) 0

/-- The exponent of a decimal numeral, zero if there is none. -/
def readExponent : Text → Option Int
  | [] => some 0
  | e :: rest =>
    if e == 'e'.toUInt8 || e == 'E'.toUInt8 then
      let (negative, digits) := splitSign rest
      if isNumber digits then
        some (if negative then -(exponentValue digits : Int) else exponentValue digits)
      else none
    else none

/-- The least number that is too large for a double. -/
def doubleLimit : Nat := Nat.pow 2 1024 - Nat.pow 2 970

/-- The number of digits of the least number that is too large. -/
def doubleDigits : Nat := 309

/-- Whether the number of some digits, times a power of ten, is not too large for a double. With
fewer digits before its point than the limit it never is, with more it always is, and with as many
these digits decide, since the limit is a whole number. -/
def isFinite (digits : Text) (exponent : Int) : Bool :=
  let digits := digits.dropWhile (· == '0'.toUInt8)
  let places := digits.length + exponent
  let zeros := List.replicate (doubleDigits - digits.length) '0'.toUInt8
  digits.isEmpty || places < doubleDigits ||
    (places == doubleDigits && digitsValue (digits.take doubleDigits ++ zeros) < doubleLimit)

/-- A decimal numeral with an optional sign, point and exponent, of a number that is not too
large. -/
def isFloatNumeral (t : Text) : Bool :=
  match readMantissa (splitSign t).2 with
  | none => false
  | some (digits, places, rest) =>
    match readExponent rest with
    | none => false
    | some exponent => isFinite digits (exponent - places)

/-! ## Lists of failures -/

/-- Failures, one on a line, under their number. -/
def bullets (failures : List Text) : Text :=
  ofNat failures.length ++
    (if failures.length = 1 then ascii " error" else ascii " errors") ++ ascii " occurred:" ++
    failures.flatMap (ascii "\n\t* " ++ ·) ++ ascii "\n\n"

end Text

end SpsAssembler
