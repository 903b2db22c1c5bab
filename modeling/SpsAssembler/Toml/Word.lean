import SpsAssembler.Text.Numeral
import SpsAssembler.Toml.Basic

/-!
# Numbers, times and words in TOML

A value without quotes and brackets is a word. It is an integer, a number with a point or an
exponent, a date or a time, or one of the truth values.

* `Toml.integer?`, `Toml.isFloat`, `Toml.isTime`: the kinds of words;
* `Toml.wordValue`: the value of a word;
* `Toml.readWord`: a word and what follows it.
-/

namespace SpsAssembler.Toml

/-- Whether every underscore of a numeral stands between digits. -/
def underscoresOk : Bool → Text → Bool
  | _, [] => true
  | digitBefore, b :: rest =>
    if b == '_'.toUInt8 then
      digitBefore && (rest.head?.map fun c => (Text.digitOf? c).isSome).getD false &&
        underscoresOk false rest
    else underscoresOk (Text.digitOf? b).isSome rest

/-- A numeral without its underscores. -/
def dropUnderscores (t : Text) : Text := t.filter (· != '_'.toUInt8)

/-- Digits of a base with underscores between them. -/
def isDigitRow (base : Nat) (t : Text) : Bool :=
  !t.isEmpty && underscoresOk false t &&
    (dropUnderscores t).all fun b => (Text.digitOf? b).any fun d => decide (d < base)

/-- A decimal number without a zero in front. -/
def isWholeRow (t : Text) : Bool :=
  isDigitRow 10 t && !(1 < t.length && t.head? == some '0'.toUInt8)

/-- An integer. -/
def integer? (t : Text) : Option Word :=
  let based (base : Nat) : Option Word :=
    if isDigitRow base (t.drop 2) then
      ((Text.readDigits base false 0 (dropUnderscores (t.drop 2))).bind
        (Text.signedWord false)).toOption
    else none
  if Text.hasPrefix (ascii "0x") t then based 16
  else if Text.hasPrefix (ascii "0o") t then based 8
  else if Text.hasPrefix (ascii "0b") t then based 2
  else if isWholeRow (Text.splitSign t).2 then
    (Text.readDecimal (dropUnderscores t)).toOption
  else none

/-- The digits behind a point or an exponent. -/
def isExponent (t : Text) : Bool := isDigitRow 10 (Text.splitSign t).2

/-- A number with a point, an exponent or both. -/
def isFraction (t : Text) : Bool :=
  let isMark (b : Byte) : Bool := b == 'e'.toUInt8 || b == 'E'.toUInt8
  let mantissa := t.takeWhile (!isMark ·)
  let exponent := t.dropWhile (!isMark ·)
  let whole := mantissa.takeWhile (· != '.'.toUInt8)
  let part := mantissa.dropWhile (· != '.'.toUInt8)
  isWholeRow whole && (part.isEmpty || isDigitRow 10 (part.drop 1)) &&
    (exponent.isEmpty || isExponent (exponent.drop 1)) && !(part.isEmpty && exponent.isEmpty)

/-- A number with a point or an exponent that is not too large, or one of the words for what is no
number. -/
def isFloat (t : Text) : Bool :=
  let t := (Text.splitSign t).2
  t == ascii "inf" || t == ascii "nan" ||
    (isFraction t && Text.isFloatNumeral (dropUnderscores t))

/-- Two digits from a least number up to below a limit. -/
def isPair (lowest limit : Nat) (t : Text) : Bool :=
  t.length == 2 && Text.isNumber t && lowest ≤ Text.digitsValue t && Text.digitsValue t < limit

/-- The number of days of a month. -/
def daysOf (year month : Nat) : Nat :=
  if month == 2 then
    (if year % 4 == 0 && (year % 100 != 0 || year % 400 == 0) then 29 else 28)
  else if [4, 6, 9, 11].contains month then 30
  else 31

/-- A date `YYYY-MM-DD`. -/
def isDate (t : Text) : Bool :=
  match t.fields '-'.toUInt8 with
  | [year, month, day] =>
    year.length == 4 && Text.isNumber year && isPair 1 13 month &&
      isPair 1 (daysOf (Text.digitsValue year) (Text.digitsValue month) + 1) day
  | _ => false

/-- A time `HH:MM:SS` with or without a fraction; the later edition has `HH:MM` besides. -/
def isClock (edition : Edition) (t : Text) : Bool :=
  let whole := t.takeWhile (· != '.'.toUInt8)
  let part := t.dropWhile (· != '.'.toUInt8)
  match Text.fields ':'.toUInt8 whole with
  | [hour, minute, second] =>
    isPair 0 24 hour && isPair 0 60 minute && isPair 0 60 second &&
      (part.isEmpty || Text.isNumber (part.drop 1))
  | [hour, minute] =>
    edition == .v11 && isPair 0 24 hour && isPair 0 60 minute && part.isEmpty
  | _ => false

/-- A difference of a time zone, `+HH:MM` or `-HH:MM`, of up to 24 hours and 60 minutes. -/
def isOffset : Text → Bool
  | s :: rest =>
    (s == '+'.toUInt8 || s == '-'.toUInt8) &&
      match Text.fields ':'.toUInt8 rest with
      | [hour, minute] => isPair 0 25 hour && isPair 0 61 minute
      | _ => false
  | [] => false

/-- A time with or without its zone. -/
def isZonedClock (edition : Edition) (t : Text) : Bool :=
  let last := t.drop (t.length - 1)
  isClock edition t || ((last == ascii "Z" || last == ascii "z") && isClock edition t.dropLast) ||
    (isOffset (t.drop (t.length - 6)) && isClock edition (t.take (t.length - 6)))

/-- A date, a time, or a date and a time. -/
def isTime (edition : Edition) (t : Text) : Bool :=
  isDate t || isClock edition t ||
    (isDate (t.take 10) &&
      match t.drop 10 with
      | b :: rest =>
        (b == 'T'.toUInt8 || b == 't'.toUInt8 || b == Byte.blank) && isZonedClock edition rest
      | [] => false)

/-- The value that a word spells. -/
def wordValue (edition : Edition) (word : Text) : Option Scalar :=
  if word == ascii "true" then some (.boolean true)
  else if word == ascii "false" then some (.boolean false)
  else match integer? word with
    | some n => some (.integer n)
    | none =>
      if isFloat word then some .float
      else if isTime edition word then some .time
      else none

/-- A character of words. -/
def isWordByte (b : Byte) : Bool :=
  b.isDigit || b.isUpper || b.isLower || (ascii "_+-.:").contains b

/-- The characters up to the end of a word, and the rest; a date may have its time behind a
blank. -/
def cutWord (t : Text) : Text × Text :=
  let word := t.takeWhile isWordByte
  match t.dropWhile isWordByte with
  | b :: c :: rest =>
    if b == Byte.blank && c.isDigit && isDate word then
      (word ++ b :: (c :: rest).takeWhile isWordByte, (c :: rest).dropWhile isWordByte)
    else (word, b :: c :: rest)
  | rest => (word, rest)

/-- The value of a word, and the rest. -/
def readWord (edition : Edition) (t : Text) : Option (Scalar × Text) :=
  (wordValue edition (cutWord t).1).map fun s => (s, (cutWord t).2)

end SpsAssembler.Toml
