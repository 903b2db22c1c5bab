import SpsAssembler.Text.Printable

/-!
# The journal of a run

What a run tells about itself while it goes on, one entry on a line: the level, the message, and
fields in byte order of their names. A value with other than plain characters is quoted.

* `JournalLevel`, `JournalEntry`;
* `JournalEntry.render`.
-/

namespace SpsAssembler

/-- How much an entry matters. -/
inductive JournalLevel where
  | debug
  | info
  | warning
  | error
  deriving DecidableEq, Repr

/-- The name of a level. -/
def JournalLevel.name : JournalLevel → String
  | debug => "debug"
  | info => "info"
  | warning => "warning"
  | error => "error"

/-- An entry; its fields are in order. -/
structure JournalEntry where
  level : JournalLevel
  message : Text
  fields : List (String × Text) := []
  deriving DecidableEq, Repr

/-- A character of values that stand without quotes. -/
def isPlainByte (b : Byte) : Bool :=
  b.isUpper || b.isLower || b.isDigit || (ascii "-._/@^+").contains b

/-- A value, quoted if it has other than plain characters. -/
def journalValue (t : Text) : Text := if t.all isPlainByte then t else t.quoted

namespace JournalEntry

/-- An entry on a line. -/
def render (e : JournalEntry) : Text :=
  let field (key : String) (value : Text) : Text := ascii key ++ ascii "=" ++ journalValue value
  let message := if e.message.isEmpty then [] else [field "msg" e.message]
  Text.join (ascii " ")
    (field "level" (ascii e.level.name) :: message ++ e.fields.map fun (k, v) => field k v) ++
    ascii "\n"

end JournalEntry

end SpsAssembler
