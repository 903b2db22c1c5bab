import SpsAssembler.Settings.Basic
import SpsAssembler.Toml.Document

/-!
# Settings from the environment

Every setting has a variable. A variable without a value counts as not set, and a number that
cannot be read is passed over.

* `Environment`, `Environment.value?`: variables and their values;
* `isTrueWord`: the words for true;
* `Readers`: how the texts of settings are read;
* `Environment.names`, `Environment.get?`: the variables of settings;
* `Environment.layer`: the settings of an environment.
-/

namespace SpsAssembler

/-- Variables and their values. -/
abbrev Environment := List (Text × Text)

/-- Words for true in small letters, which may also be capitalized. -/
def trueWords : List String :=
  ["true", "yes", "enable", "enabled", "positive", "affirmative", "absolutely"]

/-- A word with a capital in front. -/
def capitalized : Text → Text
  | [] => []
  | b :: rest => b.toUpper :: rest

/-- Whether a value means true; all other values mean false. -/
def isTrueWord (t : Text) : Bool :=
  [ascii "1", ascii "t", ascii "T", ascii "y", ascii "Y"].contains t ||
    trueWords.any fun w =>
      t == ascii w || t == capitalized (ascii w) || t == (ascii w).map Byte.toUpper

/-- The value of a variable that is set. -/
def Environment.value? (env : Environment) (name : String) : Option Text :=
  match env.find? fun v => v.1 == ascii name with
  | some (_, value) => if value.isEmpty then none else some value
  | none => none

/-- How the texts of settings are read: the value of a variable, whether it means true, and the
document of a file. -/
structure Readers where
  value? : Environment → String → Option Text := Environment.value?
  isTrue : Text → Bool := isTrueWord
  parse : Toml.Edition → Text → Option Toml.Document := Toml.parse

namespace Environment

/-- What the names of the variables of settings start with. -/
def commonStart : String := "SPS1620_"

/-- The variables of settings, by the rest of their names. -/
def names : List String :=
  ["CONFIG", "FORMAT", "MODEL", "MEMORY", "TABS", "TABLES", "HALT", "WARNINGS", "PASS1_ERRORS",
   "SYMBOL_DIVIDE"] ++
    ["LISTING", "CMEM", "CRD", "PT", "SYMBOLS"].flatMap fun name => [name, name ++ "_PATH"]

variable (env : Environment) (readers : Readers)

/-- The value of a variable for a setting, by the rest of its name. -/
def get? (name : String) : Option Text := readers.value? env (commonStart ++ name)

/-- The number of a variable. -/
def number? (name : String) : Option Word :=
  (env.get? readers name).bind fun value => value.readDecimal.toOption

/-- The truth value of a variable. -/
def truth? (name : String) : Option Bool := (env.get? readers name).map readers.isTrue

/-- What is set for an output file: a path also enables it. -/
def destination (name : String) : DestinationLayer :=
  match env.get? readers (name ++ "_PATH") with
  | some path => { enabled := some true, path := some path }
  | none => { enabled := env.truth? readers name }

/-- The settings of an environment. -/
def layer : Layer where
  format := env.get? readers "FORMAT"
  model := env.number? readers "MODEL"
  memory := env.number? readers "MEMORY"
  tabs := env.get? readers "TABS"
  tables := env.truth? readers "TABLES"
  halt := env.truth? readers "HALT"
  warnings := env.truth? readers "WARNINGS"
  pass1Errors := env.truth? readers "PASS1_ERRORS"
  divide := env.truth? readers "SYMBOL_DIVIDE"
  listing := env.destination readers "LISTING"
  core := env.destination readers "CMEM"
  cards := env.destination readers "CRD"
  tape := env.destination readers "PT"
  symbols := env.destination readers "SYMBOLS"

end Environment

end SpsAssembler
