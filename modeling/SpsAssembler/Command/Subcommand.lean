import SpsAssembler.Command.Help

/-!
# Subcommands

The first argument that is no flag may be the word of a subcommand. `completion` tells how a shell
completes arguments, for one shell or for all; two others, which shells use themselves, list what an
argument may be completed to. Any other word is the name of a source file.

* `Shell`, `Command`: the shells and the commands;
* `firstWord`, `withoutWord`: the word of a command among arguments;
* `Command.find`: the command of arguments;
* `Command.page`: the help text of a command.
-/

namespace SpsAssembler

/-- The shells that complete arguments. -/
inductive Shell where
  | bash
  | fish
  | powershell
  | zsh
  deriving DecidableEq, Repr

namespace Shell

/-- All shells, in byte order of their names. -/
def all : List Shell := [bash, fish, powershell, zsh]

/-- The name of a shell. -/
def name : Shell → Text
  | bash => ascii "bash"
  | fish => ascii "fish"
  | powershell => ascii "powershell"
  | zsh => ascii "zsh"

/-- What the command of a shell does. -/
def summary (s : Shell) : Text := ascii "Generate the autocompletion script for " ++ s.name

/-- How the script of a shell is used. -/
def guide (s : Shell) : Text :=
  let command := programName ++ ascii " completion " ++ s.name
  match s with
  | bash =>
    ascii "Generate the autocompletion script for the bash shell.\n\n" ++
      ascii "This script depends on the 'bash-completion' package.\n" ++
      ascii "If it is not installed already, you can install it via your OS's package " ++
      ascii "manager.\n\nTo load completions in your current shell session:\n\n" ++
      ascii "\tsource <(" ++ command ++ ascii ")\n\n" ++
      ascii "To load completions for every new session, execute once:\n\n#### Linux:\n\n\t" ++
      command ++ ascii " > /etc/bash_completion.d/" ++ programName ++
      ascii "\n\n#### macOS:\n\n\t" ++ command ++
      ascii " > $(brew --prefix)/etc/bash_completion.d/" ++ programName ++
      ascii "\n\nYou will need to start a new shell for this setup to take effect."
  | fish =>
    ascii "Generate the autocompletion script for the fish shell.\n\n" ++
      ascii "To load completions in your current shell session:\n\n\t" ++ command ++
      ascii " | source\n\nTo load completions for every new session, execute once:\n\n\t" ++
      command ++ ascii " > ~/.config/fish/completions/" ++ programName ++
      ascii ".fish\n\nYou will need to start a new shell for this setup to take effect."
  | powershell =>
    ascii "Generate the autocompletion script for powershell.\n\n" ++
      ascii "To load completions in your current shell session:\n\n\t" ++ command ++
      ascii " | Out-String | Invoke-Expression\n\n" ++
      ascii "To load completions for every new session, add the output of the above command\n" ++
      ascii "to your powershell profile."
  | zsh =>
    ascii "Generate the autocompletion script for the zsh shell.\n\n" ++
      ascii "If shell completion is not already enabled in your environment you will need\n" ++
      ascii "to enable it.  You can execute the following once:\n\n" ++
      ascii "\techo \"autoload -U compinit; compinit\" >> ~/.zshrc\n\n" ++
      ascii "To load completions in your current shell session:\n\n\tsource <(" ++ command ++
      ascii ")\n\nTo load completions for every new session, execute once:\n\n" ++
      ascii "#### Linux:\n\n\t" ++ command ++ ascii " > \"$\x7bfpath[1]\x7d/_" ++ programName ++
      ascii "\"\n\n#### macOS:\n\n\t" ++ command ++
      ascii " > $(brew --prefix)/share/zsh/site-functions/_" ++ programName ++
      ascii "\n\nYou will need to start a new shell for this setup to take effect."

end Shell

/-- The word that asks for choices, with or without their descriptions. -/
def requestWord (described : Bool) : String :=
  if described then "__complete" else "__completeNoDesc"

/-- The commands: the assembler, what is told about completion, for all shells or for one, and the
list of what the last argument may be completed to. -/
inductive Command where
  | assemble
  | completion
  | script (shell : Shell)
  | choices (described : Bool)
  deriving DecidableEq, Repr

/-! ## The word of a command -/

/-- Whether an argument is a flag that takes the next argument. Of flags that are not known it is
assumed that they do. -/
def takesNext (flags : List Flag) (arg : Text) : Bool :=
  !arg.contains CommandLine.equals &&
    match arg with
    | a :: b :: name =>
      a == CommandLine.dash &&
        if b == CommandLine.dash then
          !flags.any fun f => ascii f.name == name && f.bare?.isSome
        else name.isEmpty && !flags.any fun f => f.letter? == some b && f.bare?.isSome
    | _ => false

/-- What ends the flags. -/
def flagsEnd : Text := ascii "--"

/-- The first argument that is neither a flag nor the value of one. -/
def firstWord (flags : List Flag) : List Text → Option Text
  | [] => none
  | arg :: rest =>
    if arg == flagsEnd then none
    else if takesNext flags arg then
      match rest with
      | _ :: next :: more => firstWord flags (next :: more)
      | _ => none
    else if !arg.isEmpty && arg.head? != some CommandLine.dash then some arg
    else firstWord flags rest

/-- The arguments without the first that is a given word. -/
def withoutWord (flags : List Flag) (word : Text) : List Text → List Text
  | [] => []
  | arg :: rest =>
    if arg == flagsEnd then arg :: rest
    else if takesNext flags arg then
      match rest with
      | value :: more => arg :: value :: withoutWord flags word more
      | [] => [arg]
    else if arg == word then rest
    else arg :: withoutWord flags word rest

namespace Command

/-- The name of a command. -/
def name : Command → Text
  | completion => ascii "completion"
  | script shell => shell.name
  | choices described => ascii (requestWord described)
  | assemble => programName

/-- The words from the program to a command. -/
def path : Command → Text
  | assemble => programName
  | script shell => programName ++ ascii " completion " ++ shell.name
  | c => programName ++ ascii " " ++ c.name

/-- The flags of a command. -/
def flags : Command → List Flag
  | assemble => Flag.all
  | script _ => [.help, .noDescriptions]
  | _ => [.help]

/-- The flags that tell a word of a command from the value of a flag. -/
def wordFlags : Command → List Flag
  | assemble => Flag.all.filter (· != .help)
  | _ => []

/-- The commands whose words may follow a command. -/
def inner : Command → List Command
  | assemble => [completion, choices true, choices false]
  | completion => Shell.all.map script
  | _ => []

/-- The command that follows a command in arguments, and the arguments without its word. -/
def next? (c : Command) (args : List Text) : Option (Command × List Text) := do
  let word ← firstWord c.wordFlags args
  let inner ← c.inner.find? fun i => i.name == word
  some (inner, withoutWord c.wordFlags word args)

/-- The command of arguments, and the arguments without its words. -/
def find (args : List Text) : Command × List Text :=
  match assemble.next? args with
  | none => (assemble, args)
  | some (c, args) => (c.next? args).getD (c, args)

/-! ## Help texts -/

/-- What stands before the usage of a command. -/
def guide : Command → Text
  | script shell => shell.guide
  | _ =>
    ascii "Generate the autocompletion script for " ++ programName ++
      ascii " for the specified shell.\n" ++
      ascii "See each sub-command's help for details on how to use the generated script."

/-- How a command is called. -/
def usageLine (c : Command) : Text :=
  c.path ++
    match c with
    | completion => ascii " [command]"
    | script .bash => []
    | _ => ascii " [flags]"

/-- The commands that may follow a command, in columns. -/
def innerTable (shells : List Shell) : Text :=
  let width := (shells.map fun s => s.name.length).foldl max 0
  shells.flatMap fun s =>
    ascii "  " ++ s.name ++ Text.blanks (width - s.name.length + 2) ++ s.summary ++ ascii "\n"

/-- The help text of a command that is about completion. -/
def page (c : Command) : Text :=
  c.guide ++ ascii "\n\nUsage:\n  " ++ c.usageLine ++ ascii "\n\n" ++
    (if c == completion then
      ascii "Available Commands:\n" ++ innerTable Shell.all ++ ascii "\n"
     else []) ++
    ascii "Flags:\n" ++ flagTable c.name c.flags Settings.default ++
    (if c == completion then
      ascii "\nUse \"" ++ c.path ++
        ascii " [command] --help\" for more information about a command.\n"
     else [])

end Command

end SpsAssembler
