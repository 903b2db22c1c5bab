import SpsAssembler.Settings.Basic
import SpsAssembler.Text.Capitals
import SpsAssembler.Text.Printable

/-!
# Settings from the command line

Flags may stand anywhere among the names of source files: `--name value`, `--name=value`, or one
letter behind a single dash. Flags that may do without a value never take the next argument. The
last value given counts.

* `Flag`, `Flag.name`, `Flag.letter?`;
* `Destination.choose`: the value of a flag for an output file;
* `FlagError`: what can be wrong with arguments;
* `CommandLine`, `CommandLine.parse`: the arguments of a run.
-/

namespace SpsAssembler

/-- The flags. All but the last belong to the assembler. -/
inductive Flag where
  | config
  | verbose
  | help
  | format
  | model
  | memory
  | tabs
  | tables
  | halt
  | warn
  | pass1Errors
  | divide
  | output (a : Artifact)
  | noDescriptions
  deriving DecidableEq, Repr

/-- What the value of a flag is. -/
inductive FlagKind where
  | text
  | number
  | switch
  | file
  deriving DecidableEq, Repr

namespace Flag

/-- The flags of the assembler, in byte order of their names. -/
def all : List Flag :=
  [output .core, config, output .cards, format, halt, help, output .listing, memory, model,
   pass1Errors, output .tape, output .symbols, divide, tables, tabs, verbose, warn]

/-- The name of a flag. -/
def name : Flag → String
  | config => "config"
  | verbose => "verbose"
  | help => "help"
  | format => "format"
  | model => "model"
  | memory => "memory"
  | tabs => "tabs"
  | tables => "tables"
  | halt => "halt"
  | warn => "warn"
  | pass1Errors => "pass1-errors"
  | divide => "symbol-divide"
  | output .listing => "lst"
  | output .core => "cmem"
  | output .cards => "crd"
  | output .tape => "pt"
  | output .symbols => "sym"
  | noDescriptions => "no-descriptions"

/-- The letter of a flag that has one. -/
def letter? : Flag → Option Byte
  | config => some 'c'.toUInt8
  | verbose => some 'v'.toUInt8
  | help => some 'h'.toUInt8
  | format => some 'f'.toUInt8
  | model => some 'm'.toUInt8
  | _ => none

/-- What the value of a flag is. -/
def kind : Flag → FlagKind
  | config | format | tabs => .text
  | model | memory => .number
  | output _ => .file
  | _ => .switch

/-- The value of a flag that is given without one. -/
def bare? (f : Flag) : Option Text :=
  match f.kind with
  | .switch => some (ascii "true")
  | .file => some (ascii "on")
  | _ => none

/-- A flag in messages about its value. -/
def title (f : Flag) : Text :=
  match f.letter? with
  | some c => ascii "-" ++ [c] ++ ascii ", --" ++ ascii f.name
  | none => ascii "--" ++ ascii f.name

end Flag

/-- What is wrong with arguments. -/
inductive FlagError where
  | badSyntax (arg : Text)
  | unknownName (name : Text)
  | unknownLetter (letter : Byte) (letters : Text)
  | needsValue (arg : Text)
  | letterNeedsValue (letter : Byte) (letters : Text)
  | invalidNumber (flag : Flag) (value : Text) (cause : NumeralError)
  | invalidSwitch (flag : Flag) (value : Text)
  | helpRequested
  deriving DecidableEq, Repr

/-- A letter between single quotes. -/
def quotedLetter (b : Byte) : Text :=
  let inner :=
    if b == 0x27 then ascii "\\'" else if b == 0x22 then [b] else Glyph.quoted (.point b.toNat)
  [0x27] ++ inner ++ [0x27]

/-- A flag with a value that it cannot have. -/
def invalidArgument (flag : Flag) (value reader reason : Text) : Text :=
  ascii "invalid argument " ++ value.quoted ++ ascii " for " ++ flag.title.quoted ++
    ascii " flag: strconv." ++ reader ++ ascii ": parsing " ++ value.quoted ++ ascii ": " ++ reason

/-- The wording of what is wrong. -/
def FlagError.message : FlagError → Text
  | badSyntax arg => ascii "bad flag syntax: " ++ arg
  | unknownName name => ascii "unknown flag: --" ++ name
  | unknownLetter letter letters =>
    ascii "unknown shorthand flag: " ++ quotedLetter letter ++ ascii " in -" ++ letters
  | needsValue arg => ascii "flag needs an argument: " ++ arg
  | letterNeedsValue letter letters =>
    ascii "flag needs an argument: " ++ quotedLetter letter ++ ascii " in -" ++ letters
  | invalidNumber flag value cause => invalidArgument flag value (ascii "ParseInt") cause.message
  | invalidSwitch flag value =>
    invalidArgument flag value (ascii "ParseBool") NumeralError.malformed.message
  | helpRequested => ascii "pflag: help requested"

/-- The truth value of a switch. -/
def readSwitch (t : Text) : Option Bool :=
  if ["1", "t", "T", "TRUE", "true", "True"].any fun w => ascii w == t then some true
  else if ["0", "f", "F", "FALSE", "false", "False"].any fun w => ascii w == t then some false
  else none

/-- What a flag for an output file makes of a choice: it enables the file, turns it off, or names
it. -/
def Destination.choose (d : Destination) (value : Text) : Destination :=
  let word := value.toLowerAscii
  if word == ascii "on" || word == ascii "true" || word.isEmpty then { d with enabled := true }
  else if word == ascii "off" || word == ascii "false" || word == ascii "none" then
    { enabled := false, path := [] }
  else { enabled := true, path := value }

/-- A choice as it is given on the command line. -/
def Destination.render (d : Destination) : Text :=
  if !d.enabled then ascii "off" else if d.path.isEmpty then ascii "on" else d.path

/-- The arguments of a run: the settings that flags set, the other flags, and the rest. The flags
that were given are kept, the last one first. -/
structure CommandLine where
  layer : Layer := {}
  config : Text := []
  verbose : Bool := false
  help : Bool := false
  noDescriptions : Bool := false
  args : List Text := []
  given : List Flag := []
  deriving DecidableEq, Repr

namespace CommandLine

/-- Sets a switch. -/
def setSwitch (c : CommandLine) (flag : Flag) (b : Bool) : CommandLine :=
  match flag with
  | .verbose => { c with verbose := b }
  | .help => { c with help := b }
  | .noDescriptions => { c with noDescriptions := b }
  | .tables => { c with layer := { c.layer with tables := some b } }
  | .halt => { c with layer := { c.layer with halt := some b } }
  | .warn => { c with layer := { c.layer with warnings := some b } }
  | .pass1Errors => { c with layer := { c.layer with pass1Errors := some b } }
  | .divide => { c with layer := { c.layer with divide := some b } }
  | _ => c

/-- Sets a number. -/
def setNumber (c : CommandLine) (flag : Flag) (n : Word) : CommandLine :=
  match flag with
  | .model => { c with layer := { c.layer with model := some n } }
  | .memory => { c with layer := { c.layer with memory := some n } }
  | _ => c

/-- Sets a text. -/
def setText (c : CommandLine) (flag : Flag) (t : Text) : CommandLine :=
  match flag with
  | .config => { c with config := t }
  | .format => { c with layer := { c.layer with format := some t } }
  | .tabs => { c with layer := { c.layer with tabs := some t } }
  | _ => c

/-- Sets what is chosen for an output file, starting from the default. -/
def setOutput (c : CommandLine) (a : Artifact) (value : Text) : CommandLine :=
  let d := ((c.layer.apply Settings.default).destination a).choose value
  { c with
    layer := c.layer.setDestination a { enabled := some d.enabled, path := some d.path } }

/-- Sets what a flag stands for. -/
def assign (c : CommandLine) (flag : Flag) (value : Text) : Except FlagError CommandLine :=
  match flag with
  | .output a => .ok (c.setOutput a value)
  | _ =>
    match flag.kind with
    | .switch =>
      match readSwitch value with
      | some b => .ok (c.setSwitch flag b)
      | none => .error (.invalidSwitch flag value)
    | .number =>
      match value.readInteger with
      | .ok n => .ok (c.setNumber flag n)
      | .error e => .error (.invalidNumber flag value e)
    | _ => .ok (c.setText flag value)

/-- Gives a flag a value. -/
def set (c : CommandLine) (flag : Flag) (value : Text) : Except FlagError CommandLine :=
  (c.assign flag value).map fun c => { c with given := flag :: c.given }

/-- The byte between a flag and its value. -/
def equals : Byte := '='.toUInt8

/-- The dash in front of flags. -/
def dash : Byte := '-'.toUInt8

/-- A flag by its name. -/
def findName (flags : List Flag) (name : Text) : Except FlagError Flag :=
  match flags.find? fun f => ascii f.name == name with
  | some f => .ok f
  | none => if name == ascii "help" then .error .helpRequested else .error (.unknownName name)

/-- A flag by its letter. -/
def findLetter (flags : List Flag) (letters : Text) (letter : Byte) : Except FlagError Flag :=
  match flags.find? fun f => f.letter? == some letter with
  | some f => .ok f
  | none =>
    if letter == 'h'.toUInt8 then .error .helpRequested
    else .error (.unknownLetter letter letters)

/-- A flag given by its name, behind both dashes; a value may be the next argument. -/
def parseName (flags : List Flag) (c : CommandLine) (arg body : Text) (next : List Text) :
    Except FlagError (CommandLine × List Text) := do
  if body.head? == some dash || body.head? == some equals then throw (.badSyntax arg)
  let flag ← findName flags (body.takeWhile (· != equals))
  match body.dropWhile (· != equals), flag.bare?, next with
  | _ :: value, _, _ => pure (← c.set flag value, next)
  | [], some value, _ => pure (← c.set flag value, next)
  | [], none, value :: next => pure (← c.set flag value, next)
  | [], none, [] => throw (.needsValue arg)

/-- What arguments for a test run start with; they are passed over. -/
def testStart : Text := ascii "test."

/-- Flags given by their letters; the value of the last may follow it or be the next argument. -/
def parseLetters (flags : List Flag) :
    Text → CommandLine → List Text → Except FlagError (CommandLine × List Text)
  | [], c, next => pure (c, next)
  | letter :: rest, c, next => do
    let letters := letter :: rest
    if Text.hasPrefix testStart letters then return (c, next)
    let flag ← findLetter flags letters letter
    match rest, flag.bare? with
    | e :: v :: value, bare =>
      if e == equals then pure (← c.set flag (v :: value), next)
      else match bare with
        | some b => parseLetters flags rest (← c.set flag b) next
        | none => pure (← c.set flag rest, next)
    | _, some b => parseLetters flags rest (← c.set flag b) next
    | [_], none => pure (← c.set flag rest, next)
    | [], none =>
      match next with
      | value :: next => pure (← c.set flag value, next)
      | [] => throw (.letterNeedsValue letter letters)

/-- Reads arguments from left to right; behind `--` there are no flags. -/
def parseFrom (flags : List Flag) : Nat → CommandLine → List Text → Except FlagError CommandLine
  | 0, c, args => pure { c with args := c.args ++ args }
  | _, c, [] => pure c
  | fuel + 1, c, arg :: next =>
    match arg with
    | a :: b :: rest =>
      if a != dash then parseFrom flags fuel { c with args := c.args ++ [arg] } next
      else if b == dash then
        if rest.isEmpty then pure { c with args := c.args ++ next }
        else do
          let (c, next) ← parseName flags c arg rest next
          parseFrom flags fuel c next
      else do
        let (c, next) ← parseLetters flags (b :: rest) c next
        parseFrom flags fuel c next
    | _ => parseFrom flags fuel { c with args := c.args ++ [arg] } next

/-- The arguments of a run. -/
def parse (flags : List Flag) (args : List Text) : Except FlagError CommandLine :=
  parseFrom flags args.length {} args

end CommandLine

end SpsAssembler
