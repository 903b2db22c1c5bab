import SpsAssembler.Settings.File
import SpsAssembler.Settings.Flags

/-!
# The help text

* `Flag.usage`, `Flag.default?`: what is said about a flag;
* `flagTable`: flags in columns;
* `helpText`.
-/

namespace SpsAssembler

namespace Flag

/-- What a flag of a command does. -/
def usage (command : Text) : Flag → Text
  | config =>
    ascii "TOML configuration file (default $SPS1620_CONFIG or ./" ++ defaultConfiguration ++
      ascii ")"
  | verbose => ascii "Log debug detail"
  | help => ascii "help for " ++ command
  | format => ascii "Source format: fixed (columns 6, 12, 16) or freeform"
  | model => ascii "IBM 1620 model: 1 or 2"
  | memory => ascii "Memory size: 20, 40, 60, 80 or 100 thousand digits"
  | tabs => ascii "Freeform tab stops: every n columns, or n1,n2,... (default 8)"
  | tables => ascii "Include the arithmetic tables"
  | halt => ascii "Halt at the end of the load"
  | warn => ascii "Produce warning messages"
  | pass1Errors => ascii "Print pass 1 errors"
  | divide => ascii "Allow / in symbols; no divide in expressions"
  | output .listing => ascii "Listing file (on, off or a path)"
  | output .core => ascii "Core memory file (on, off or a path)"
  | output .cards => ascii "Card deck file (on, off or a path)"
  | output .tape => ascii "Paper tape file (on, off or a path)"
  | output .symbols => ascii "YAML symbol map (on, off or a path)"
  | noDescriptions => ascii "disable completion descriptions"

/-- What stands for the value of a flag. -/
def valueName (f : Flag) : Text :=
  match f.kind with
  | .text => ascii " string"
  | .number => ascii " int"
  | .switch => []
  | .file => ascii " file[=on]"

/-- The default of a flag, if it is worth telling with the settings that flags have made so far. The
default of an output file is passed over where the file chosen has a name for nothing. -/
def default? (s : Settings) : Flag → Option Text
  | format => some Settings.default.format.quoted
  | model => some (Text.ofWord Settings.default.model)
  | memory => some (Text.ofWord Settings.default.memory)
  | tables | halt | warn | divide => some (ascii "true")
  | output a =>
    if ["0", "<nil>"].any fun none => (s.destination a).render == ascii none then none
    else some (Settings.default.destination a).render
  | _ => none

/-- A default behind the usage of a flag. -/
def defaultNote (s : Settings) (f : Flag) : Text :=
  match f.default? s with
  | some value => ascii " (default " ++ value ++ ascii ")"
  | none => []

/-- The letter and the name of a flag, and what stands for its value. -/
def synopsis (f : Flag) : Text :=
  (match f.letter? with
    | some c => ascii "  -" ++ [c] ++ ascii ", --"
    | none => ascii "      --") ++ ascii f.name ++ f.valueName

end Flag

/-- Flags of a command in columns. -/
def flagTable (command : Text) (flags : List Flag) (s : Settings) : Text :=
  let width := (flags.map fun f => f.synopsis.length).foldl max 0
  flags.flatMap fun f =>
    f.synopsis ++ Text.blanks (width - f.synopsis.length + 3) ++ f.usage command ++
      f.defaultNote s ++ ascii "\n"

/-- The name of the program. -/
def programName : Text := ascii "sps1620"

/-- The help text. -/
def helpText (s : Settings) : Text :=
  ascii "Assembles IBM 1620 SPS source into a listing and loadable core memory, card deck and " ++
    ascii "paper tape images.\n\n" ++
    ascii "Usage:\n  " ++ programName ++ ascii " [options] source[.sps] ... [flags]\n\n" ++
    ascii "Flags:\n" ++ flagTable programName Flag.all s

end SpsAssembler
