import SpsAssembler.Text.Numeral

/-!
# Plain scalars of YAML

A scalar that is written without quotes is read by its spelling: it may be a number, a time, a truth
value or nothing. Text that would be read as anything but text must be quoted.

* `isIntegerNumeral`, `isTimestamp`, `isSexagesimal`, `isReservedWord`: spellings that are not text;
* `readsAsText`: the spelling of text.
-/

namespace SpsAssembler.Yaml

/-- Words with a meaning of their own. -/
def reservedWords : List String :=
  ["", "~", "null", "Null", "NULL", "true", "True", "TRUE", "false", "False", "FALSE",
   ".nan", ".NaN", ".NAN", ".inf", ".Inf", ".INF", "+.inf", "+.Inf", "+.INF",
   "-.inf", "-.Inf", "-.INF",
   "y", "Y", "yes", "Yes", "YES", "on", "On", "ON", "n", "N", "no", "No", "NO",
   "off", "Off", "OFF"]

/-- Whether a text is a word with a meaning of its own. -/
def isReservedWord (t : Text) : Bool := reservedWords.any fun w => ascii w == t

/-- A leading sign is dropped. -/
def unsigned (t : Text) : Text := (Text.splitSign t).2

/-- The prefixes of a base behind which a sign may stand. -/
def signedBases : List (String × Nat) := [("0b", 2), ("0o", 8)]

/-- A numeral of a word with its sign behind the prefix of its base. -/
def isSignedBehindBase (t : Text) : Bool :=
  signedBases.any fun (start, base) =>
    Text.hasPrefix (ascii start) t &&
      let (negative, digits) := Text.splitSign (t.drop start.length)
      !digits.isEmpty &&
        ((Text.readDigits base false 0 digits).bind (Text.signedWord negative)).isOk

/-- A numeral of a word, perhaps with the prefix of a base; without a sign it may have 64 bits. -/
def isIntegerNumeral (t : Text) : Bool :=
  (Text.readInteger t).isOk || isSignedBehindBase t ||
    let (base, digits) := Text.splitBase t
    !digits.isEmpty && (Text.readDigits base false 0 digits).isOk

/-- Whether a year is a leap year. -/
def isLeap (year : Nat) : Bool := year % 4 == 0 && (year % 100 != 0 || year % 400 == 0)

/-- The number of days of a month. -/
def daysIn (year month : Nat) : Nat :=
  if month == 2 then (if isLeap year then 29 else 28)
  else if month == 4 || month == 6 || month == 9 || month == 11 then 30
  else 31

/-- A number of one or two digits at the start of a text, and the rest. -/
def readShort (t : Text) : Option (Nat × Text) :=
  let digits := (t.take 2).takeWhile Byte.isDigit
  if digits.isEmpty then none else some (Text.digitsValue digits, t.drop digits.length)

/-- What follows a given byte. -/
def after (b : Byte) : Text → Option Text
  | c :: rest => if c == b then some rest else none
  | [] => none

/-- The rest behind a date `YYYY-M-D`. -/
def readDate (t : Text) : Option Text := do
  let year := t.takeWhile Byte.isDigit
  if year.length != 4 then none
  let rest ← after '-'.toUInt8 (t.drop 4)
  let (month, rest) ← readShort rest
  let rest ← after '-'.toUInt8 rest
  let (day, rest) ← readShort rest
  if 1 ≤ month && month ≤ 12 && 1 ≤ day && day ≤ daysIn (Text.digitsValue year) month then some rest
  else none

/-- A fraction of a second is dropped. -/
def dropFraction : Text → Text
  | b :: rest =>
    if (b == '.'.toUInt8 || b == ','.toUInt8) && (rest.head?.map Byte.isDigit).getD false then
      rest.dropWhile Byte.isDigit
    else b :: rest
  | [] => []

/-- The rest behind a time `h:m:s`, with or without a fraction. -/
def readTime (t : Text) : Option Text := do
  let (hour, rest) ← readShort t
  let rest ← after ':'.toUInt8 rest
  let (minute, rest) ← readShort rest
  let rest ← after ':'.toUInt8 rest
  let (second, rest) ← readShort rest
  if hour < 24 && minute < 60 && second < 60 then some (dropFraction rest) else none

/-- A time zone: `Z`, or a difference in hours and minutes. -/
def isZone : Text → Bool
  | [z] => z == 'Z'.toUInt8
  | [s, a, b, c, d, e] =>
    (s == '+'.toUInt8 || s == '-'.toUInt8) && c == ':'.toUInt8 && Text.isNumber [a, b] &&
      Text.isNumber [d, e] && Text.digitsValue [a, b] ≤ 24 && Text.digitsValue [d, e] ≤ 60
  | _ => false

/-- A date, or a date and a time. A time behind blanks has no zone, one behind a `T` has one. -/
def isTimestamp (t : Text) : Bool :=
  match readDate t with
  | none => false
  | some [] => true
  | some (b :: rest) =>
    if b == 'T'.toUInt8 || b == 't'.toUInt8 then (readTime rest).any isZone
    else b == Byte.blank && (readTime (Text.trimLeft rest)).any List.isEmpty

/-- Parts of a sexagesimal numeral: each below 60, the last perhaps with a fraction. -/
def areSixtieths : List Text → Bool
  | [] => true
  | [last] =>
    let whole := last.takeWhile Byte.isDigit
    let below : Bool :=
      whole.length == 1 || (whole.length == 2 && Text.digitsValue whole < 60)
    below && match last.dropWhile Byte.isDigit with
      | [] => true
      | b :: part => b == '.'.toUInt8 && part.all fun c => c.isDigit || c == '_'.toUInt8
  | part :: rest =>
    Text.isNumber part && (part.length == 1 || (part.length == 2 && Text.digitsValue part < 60)) &&
      areSixtieths rest

/-- A numeral of base sixty, its parts between colons. -/
def isSexagesimal (t : Text) : Bool :=
  match Text.fields ':'.toUInt8 (unsigned t) with
  | (b :: first) :: second :: rest =>
    b.isDigit && first.all (fun c => c.isDigit || c == '_'.toUInt8) && areSixtieths (second :: rest)
  | _ => false

/-- Whether a text starts as numerals do. -/
def startsNumeral (t : Text) : Bool :=
  match t with
  | b :: _ => b.isDigit || b == '+'.toUInt8 || b == '-'.toUInt8
  | [] => false

/-- Whether a text without quotes would be read as that text. -/
def readsAsText (t : Text) : Bool :=
  let bare := t.filter (· != '_'.toUInt8)
  !isReservedWord t && !isSexagesimal t &&
    !(startsNumeral t && (isTimestamp t || Text.isFloatNumeral bare || isIntegerNumeral bare)) &&
    !(t.head? == some '.'.toUInt8 && Text.isFloatNumeral bare && Text.underscoresOk t)

end SpsAssembler.Yaml
