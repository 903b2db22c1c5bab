import SpsAssembler.Command.Script.Bash
import SpsAssembler.Command.Script.Fish
import SpsAssembler.Command.Script.Powershell
import SpsAssembler.Command.Script.Zsh
import SpsAssembler.Command.Subcommand
import SpsAssembler.Settings.Environment

/-!
# Completion of arguments

What the last argument may be completed to, for a shell. Only the names of flags and of subcommands
are listed; for everything else a shell offers files or nothing. A shell learns from a script how to
ask for choices. The scripts differ from shell to shell; with and without descriptions they differ in
one word, the command by which they ask.

* `Directive`: whether a shell goes on to offer files;
* `Asked`, `askedFlag`: whether the last argument is the value of a flag;
* `CompletionError`: why an argument cannot be completed;
* `Choices`, `choicesFor`: the choices for the last argument;
* `isDescribed`: whether the choices come with their descriptions;
* `Shell.scriptLines`, `Shell.script`: the script of a shell.
-/

namespace SpsAssembler

/-- What a shell does with choices: it offers files besides, or none. -/
inductive Directive where
  | files
  | noFiles
  deriving DecidableEq, Repr

namespace Directive

/-- The number of a directive. -/
def code : Directive → Nat
  | files => 0
  | noFiles => 4

/-- The name of a directive. -/
def name : Directive → Text
  | files => ascii "ShellCompDirectiveDefault"
  | noFiles => ascii "ShellCompDirectiveNoFileComp"

end Directive

/-- What is asked for: a value of a flag, or else another argument, the arguments before it, and
what is there of it. `unknown?` names a flag that is not known. -/
structure Asked where
  flag? : Option Flag := none
  before : List Text
  word : Text
  unknown? : Option Text := none
  deriving DecidableEq, Repr

/-- A flag by its name, or by its letter if there is but one. -/
def lookUpFlag (flags : List Flag) (name : Text) : Option Flag :=
  match name with
  | [letter] => flags.find? fun f => f.letter? == some letter
  | _ => flags.find? fun f => ascii f.name == name

/-- The name of the flag that an argument gives, or its last letter; nothing if it gives none. -/
def flagPart (arg : Text) : Text :=
  match arg with
  | a :: b :: rest =>
    if a != CommandLine.dash then []
    else if b == CommandLine.dash then rest
    else (b :: rest).drop rest.length
  | _ => []

/-- What is asked for where the last argument does not name a flag itself: the value of the flag
before it. A flag that may do without a value has one here only if there is an equals sign. -/
def askedValue (flags : List Flag) (before : List Text) (word last : Text) (hasEquals : Bool) :
    Asked :=
  let arg := before.getLastD []
  let name := if arg.contains CommandLine.equals then [] else flagPart arg
  if name.isEmpty then { before, word }
  else match lookUpFlag flags name with
    | none => { before, word := last, unknown? := some name }
    | some f =>
      if f.bare?.isSome && !hasEquals then { before, word }
      else { flag? := some f, before := before.dropLast, word }

/-- What is asked for by the last argument. A value may stand behind an equals sign in it. -/
def askedFlag (flags : List Flag) (before : List Text) (last : Text) : Asked :=
  if last.head? != some CommandLine.dash then askedValue flags before last last false
  else if !last.contains CommandLine.equals then { before, word := last }
  else
    let head := last.takeWhile (· != CommandLine.equals)
    let word := (last.dropWhile (· != CommandLine.equals)).drop 1
    let name :=
      if Text.hasPrefix flagsEnd head then head.drop 2 else head.drop (head.length - 1)
    if name.isEmpty then askedValue flags before word last true
    else match lookUpFlag flags name with
      | none => { before, word := last, unknown? := some name }
      | some f => { flag? := some f, before, word }

/-- Why an argument cannot be completed: the arguments before it are wrong, or it is the value of a
flag that a command does not have. -/
inductive CompletionError where
  | wrongFlags (args : List Text) (error : FlagError)
  | unknownFlag (command name : Text)
  deriving DecidableEq, Repr

/-- The wording of what is wrong. -/
def CompletionError.message : CompletionError → Text
  | wrongFlags args e =>
    ascii "Error while parsing flags from args [" ++ Text.join (ascii " ") args ++ ascii "]: " ++
      e.message
  | unknownFlag command name =>
    ascii "Subcommand '" ++ command ++ ascii "' does not support flag '" ++ name ++ ascii "'"

/-- A line about what is wrong, for those who look for the reason. -/
def CompletionError.line (e : CompletionError) : Text :=
  ascii "[Debug] [Error] " ++ e.message ++ ascii "\n"

/-- What an argument may be completed to, each choice with its description, what a shell does with
that, and why there is nothing if something is wrong. -/
structure Choices where
  items : List (Text × Text) := []
  directive : Directive
  error? : Option CompletionError := none
  deriving DecidableEq, Repr

/-- The choices that start with a text. -/
def startingWith (word : Text) (items : List (Text × Text)) : List (Text × Text) :=
  items.filter fun item => Text.hasPrefix word item.1

/-- The ways to give a flag of a command. -/
def flagItems (c : Command) (f : Flag) : List (Text × Text) :=
  let letter := match f.letter? with
    | some b => [([CommandLine.dash, b], f.usage c.name)]
    | none => []
  (flagsEnd ++ ascii f.name, f.usage c.name) :: letter

/-- The words of the commands that may follow a command. -/
def innerItems : Command → List (Text × Text)
  | .completion => Shell.all.map fun s => (s.name, s.summary)
  | _ => []

/-- The choices for an argument that is no flag. Only the assembler takes files. -/
def wordChoices (c : Command) (line : CommandLine) (asked : Asked) : Choices :=
  let items :=
    if asked.flag?.isNone && line.args.isEmpty && line.given.isEmpty then
      startingWith asked.word (innerItems c)
    else []
  { items, directive := if c == .assemble then .files else .noFiles }

/-- No choices, as something is wrong. -/
def Choices.failed (e : CompletionError) : Choices := { directive := .files, error? := some e }

/-- The choices for the last argument of a command. Behind the end of the flags no flags are listed,
and once a flag asks for help nothing is. -/
def choicesOf (c : Command) (before : List Text) (last : Text) : Choices :=
  let asked := askedFlag c.flags before last
  match CommandLine.parse c.flags asked.before with
  | .error e => .failed (.wrongFlags asked.before e)
  | .ok line =>
    let closed := (CommandLine.parse c.flags (asked.before ++ [flagsEnd])).toOption
    let ended := closed.any fun l => line.args.length < l.args.length
    let unknown? := if ended then none else asked.unknown?
    if let some name := unknown? then .failed (.unknownFlag c.name name)
    else if line.given.contains .help then { directive := .noFiles }
    else if ended then wordChoices c line asked
    else if asked.flag?.isSome then { directive := .files }
    else if asked.word.head? == some CommandLine.dash &&
        !asked.word.contains CommandLine.equals then
      let free := c.flags.filter fun f => !line.given.contains f
      { items := startingWith asked.word (free.flatMap (flagItems c)), directive := .noFiles }
    else wordChoices c line asked

/-- Whether the words of the completion command are among the choices for the last of some
arguments. They are if that command stands in front. -/
def asksCompletion (args : List Text) : Bool :=
  args.head? == some Command.completion.name && 1 < args.length

/-- The choices for the last of some arguments. -/
def choicesFor (args : List Text) : Choices :=
  let before := args.dropLast
  let last := args.getLastD []
  if asksCompletion args then
    let (c, before) := Command.find before
    choicesOf c before last
  else choicesOf .assemble before last

/-- The variables that tell whether choices are described. The first that is set counts: one of the
program or, without the completion command, of the command that lists choices, and then one for all
programs. -/
def descriptionVariables (asks : Bool) : List String :=
  [if asks then "SPS1620_COMPLETION_DESCRIPTIONS" else "__COMPLETE_COMPLETION_DESCRIPTIONS",
   "COBRA_COMPLETION_DESCRIPTIONS"]

/-- Whether the choices for the last of some arguments are described, where the environment has its
way. -/
def isDescribed (env : Environment) (args : List Text) : Bool :=
  (((descriptionVariables (asksCompletion args)).findSome? env.value?).bind readSwitch).getD true

/-- The variable of the file that keeps what is wrong. -/
def troubleVariable : String := "BASH_COMP_DEBUG_FILE"

/-- A choice on a line. -/
def Choices.line (described : Bool) (item : Text × Text) : Text :=
  Text.trimSpace (item.1 ++ if described then Byte.tab :: item.2 else []) ++ ascii "\n"

/-- Choices as a shell reads them, the directive last. -/
def Choices.render (c : Choices) (described : Bool) : Text :=
  c.items.flatMap (Choices.line described) ++ ascii ":" ++ Text.ofNat c.directive.code ++ ascii "\n"

/-- What is told besides. -/
def Choices.remark (c : Choices) : Text :=
  ascii "Completion ended with directive: " ++ c.directive.name ++ ascii "\n"

/-! ## Scripts -/

namespace Shell

/-- The lines of the script of a shell. -/
def scriptLines (s : Shell) (described : Bool) : List String :=
  match s with
  | bash => Script.bashLines (requestWord described)
  | fish => Script.fishLines (requestWord described)
  | powershell => Script.powershellLines (requestWord described)
  | zsh => Script.zshLines (requestWord described)

/-- The script of a shell. -/
def script (s : Shell) (described : Bool) : Text :=
  (s.scriptLines described).flatMap fun line => Text.ofString line ++ [Byte.newline]

end Shell

end SpsAssembler
