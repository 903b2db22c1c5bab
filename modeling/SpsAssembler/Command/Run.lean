import SpsAssembler.Command.Completion
import SpsAssembler.Command.Journal
import SpsAssembler.Source.Stream

/-!
# A run of the command

From arguments, environment and files to the console, the journal and the files afterwards. A run
sees no files but those in its store; which paths the store has to know about, the arguments, the
environment and the configuration file tell.

* `Surroundings`: what a run depends on;
* `RunError`: why a run fails;
* `summary`: the settings on the console;
* `Session`, `runAssembler`, `runCommand`;
* `knownVariables`, `Surroundings.reach`: what a run looks at.
-/

namespace SpsAssembler

/-- What a run depends on. -/
structure Surroundings where
  args : List Text
  env : Environment := []
  store : FileStore := {}
  stamp : Stamp
  readers : Readers := {}

/-- Why a run fails. An assembly fails when its source has errors. -/
inductive RunError where
  | failed (message : Text)
  | assemblyFailed
  deriving DecidableEq, Repr

/-- The wording of a failure. -/
def RunError.message : RunError → Text
  | failed message => message
  | assemblyFailed => ascii "assembly failed"

/-- What a run has done so far. Its remark stands behind the journal; trouble with completion is no
part of that, and only the terminal shows it. -/
structure Session where
  store : FileStore
  console : Text := []
  trouble : Text := []
  journal : List JournalEntry := []
  remark : Text := []
  error : Option RunError := none

namespace Session

/-- Writes to the console. -/
def print (s : Session) (t : Text) : Session := { s with console := s.console ++ t }

/-- Adds entries to the journal; those for debugging only in a verbose run. -/
def note (s : Session) (verbose : Bool) (entries : List JournalEntry) : Session :=
  { s with journal := s.journal ++ entries.filter fun e => verbose || e.level != .debug }

/-- Ends with a failure. -/
def fail (s : Session) (e : RunError) : Session := { s with error := some e }

/-- The text of the journal. -/
def journalText (s : Session) : Text := s.journal.flatMap JournalEntry.render ++ s.remark

end Session

/-- A truth value as a word. -/
def yesNo (b : Bool) : Text := ascii (if b then "yes" else "no")

/-- A path, or that there is none. -/
def pathOrNone (path : Text) : Text := if path.isEmpty then ascii "<none>" else path

/-- The source files of a run. -/
def summaryFiles (files : List Text) : Text :=
  match files with
  | [file] => ascii "Source file:  " ++ file ++ ascii "\n"
  | _ =>
    (files.zipIdx.flatMap fun (file, i) =>
      (if i = 0 then ascii "Source files: " else Text.blanks 14) ++ Text.ofNat (i + 1) ++
        ascii ". " ++ file ++ ascii "\n") ++ ascii "\n"

/-- A line of the summary. -/
def summaryLine (label : String) (value : Text) : Text := ascii label ++ value ++ ascii "\n"

/-- The settings of a run as they are shown on the console. -/
def summary (s : Settings) (files : List Text) (paths : Paths) (tabs : TabStops) : Text :=
  let o := s.options
  let stops := if s.sourceFormat == .freeform then tabs.render else ascii "n/a"
  productName ++ ascii "\n\n" ++ summaryFiles files ++
    summaryLine "Lst file:     " (pathOrNone (paths .listing)) ++
    summaryLine "Cmem file:    " (pathOrNone (paths .core)) ++
    summaryLine "Crd file:     " (pathOrNone (paths .cards)) ++
    summaryLine "Pt file:      " (pathOrNone (paths .tape)) ++
    summaryLine "Symbol map:   " (pathOrNone (paths .symbols)) ++ ascii "\n" ++
    summaryLine "Source format:       " s.sourceFormat.name ++
    summaryLine "System type:         " (ascii o.model.name) ++
    summaryLine "Memory size:         " (Text.ofWord o.memorySize) ++
    summaryLine "Include tables:      " (yesNo o.tables) ++
    summaryLine "Load halt:           " (yesNo o.halt) ++
    summaryLine "Produce warnings:    " (yesNo o.warnings) ++
    summaryLine "Print pass 1 errors: " (yesNo s.pass1Errors) ++
    summaryLine "Symbol divide:       " (yesNo o.divide) ++
    summaryLine "Tab stops:           " stops ++ ascii "\n"

/-- A message of the assembler as an entry of the journal. -/
def diagnosticEntry (place : Word → Text) (d : Diagnostic Cause) : JournalEntry where
  level := if d.severity == .error then .error else .warning
  message := d.cause.message
  fields :=
    (if 0 < d.line then [("line", place d.line)] else []) ++ [("pass", Text.ofWord d.pass)]

/-- An entry that a file is read. -/
def readingEntry (file : Nat) (name : Text) : JournalEntry where
  level := .debug
  message := ascii "reading " ++ name
  fields := [("file", Text.ofNat file)]

/-- What the journal holds about the first pass. -/
def firstPassEntries (place : Word → Text) (shown : Bool) : Event → List JournalEntry
  | .opened file name => [readingEntry file name]
  | .raised d => if shown then [diagnosticEntry place d] else []
  | .finished _ _ => []

/-- What the journal holds about the second pass. -/
def secondPassEntries (place : Word → Text) (shown : Bool) : Event → List JournalEntry
  | .opened file name => [readingEntry file name]
  | .raised _ => []
  | .finished o _ => if shown then o.diagnostics.map (diagnosticEntry place) else []

/-- The end of a pass. -/
def passEntry (pass : String) (lines : Nat) (c : Counts) : JournalEntry where
  level := .info
  message :=
    ascii "End of Pass " ++ ascii pass ++ ascii ", " ++ Text.ofNat lines ++ ascii " lines, " ++
      Text.ofNat c.errors ++ ascii " error(s), " ++ Text.ofNat c.warnings ++ ascii " warning(s)"

/-- A file that was written or removed. -/
def outputEntry (action : String) (path : Text) : JournalEntry where
  level := .debug
  message := ascii action ++ ascii " " ++ path

/-- Writes the output files and ends the run. -/
def finishRun (s : Session) (verbose : Bool) (p : Provenance) (program : Program) (paths : Paths) :
    Except Fault Session := do
  let e ← emit p program paths s.store
  let s := { s with store := e.store }.note verbose
    (e.created.map (outputEntry "wrote") ++ e.removed.map (outputEntry "removed"))
  match e.error? with
  | some message => pure (s.fail (.failed message))
  | none =>
    let s := s.print (ascii "End of assembly\n")
    pure (if program.ok then s else s.fail .assemblyFailed)

/-- Assembles a stream of files. Without a listing the messages of the second pass go to the
journal. -/
def runStream (s : Session) (verbose : Bool) (settings : Settings) (stream : Stream)
    (paths : Paths) (stamp : Stamp) : Except Fault Session := do
  let reading ← stream.read s.store
  let run ← assemble settings.options reading reading
  let place := locateLine stream.files stream.multi
  let shown := (paths .listing).isEmpty
  let s := s.note verbose
    (run.first.flatMap (firstPassEntries place settings.pass1Errors) ++
      run.second.flatMap (secondPassEntries place shown))
  match run.result with
  | .error message => pure (s.fail (.failed message))
  | .ok program =>
    let trailing := if shown then program.trailing.map (diagnosticEntry place) else []
    let s := s.note verbose
      (passEntry "1" program.lines program.pass1 :: trailing ++
        [passEntry "2" program.lines program.pass2])
    let p : Provenance :=
      { files := stream.files, fixed := settings.sourceFormat == .fixed, stamp }
    finishRun s verbose p program paths

/-- Runs with settings on named files. -/
def runSettings (s : Session) (verbose : Bool) (settings : Settings) (names : List Text)
    (stamp : Stamp) : Except Fault Session :=
  match settings.invalid? with
  | some message => .ok (s.fail (.failed message))
  | none =>
    let s := s.note verbose (settings.notices.map fun n => { level := .warning, message := n })
    match settings.tabStops with
    | .error message => .ok (s.fail (.failed message))
    | .ok tabs =>
      match Stream.ofNames names settings.sourceFormat tabs with
      | .error message => .ok (s.fail (.failed message))
      | .ok stream =>
        let paths := settings.paths (stream.files.headD [])
        let s := s.print (summary settings stream.files paths tabs)
        runStream s verbose settings stream paths stamp

/-- Loads the configuration file of a run, if there is one. -/
def loadConfiguration (w : Surroundings) (c : CommandLine) (s : Session) :
    Except ConfigurationError (Layer × Session) :=
  match configurationFile w.store w.env c.config w.readers with
  | none => .ok ({}, s)
  | some path =>
    match loadFile w.store w.env.edition path w.readers with
    | .error e => .error e
    | .ok layer =>
      let entry : JournalEntry :=
        { level := .debug, message := ascii "configuration loaded from " ++ path }
      .ok (layer, s.note c.verbose [entry])

/-- The settings of a run: the command line comes before the environment, the environment before the
file, and the file before the defaults. -/
def layeredSettings (file : Layer) (env : Environment) (c : CommandLine)
    (readers : Readers := {}) : Settings :=
  c.layer.apply ((env.layer readers).apply (file.apply Settings.default))

/-- What is said of a number of source files that cannot be. -/
def wrongCount (n : Nat) : Text :=
  ascii "accepts between 1 and " ++ Text.ofNat maxFiles ++ ascii " arg(s), received " ++
    Text.ofNat n

/-- Runs the assembler. -/
def runAssembler (w : Surroundings) (s : Session) : Except Fault Session :=
  match CommandLine.parse Command.assemble.flags w.args with
  | .error e => .ok (s.fail (.failed e.message))
  | .ok c =>
    if c.help then .ok (s.print (helpText (c.layer.apply Settings.default)))
    else if c.args.isEmpty || maxFiles < c.args.length then
      .ok (s.fail (.failed (wrongCount c.args.length)))
    else match loadConfiguration w c s with
      | .error e => .ok (s.fail (.failed e.message))
      | .ok (file, s) =>
        runSettings s c.verbose (layeredSettings file w.env c w.readers) c.args w.stamp

/-- What is said of an argument that a command does not take. -/
def unknownCommand (c : Command) (arg : Text) : Text :=
  ascii "unknown command " ++ arg.quoted ++ ascii " for " ++ c.path.quoted

/-- Tells about completion, or prints the script of a shell. -/
def runCompletion (c : Command) (args : List Text) (s : Session) : Session :=
  match CommandLine.parse c.flags args with
  | .error e => s.fail (.failed e.message)
  | .ok line =>
    match line.help, c, line.args with
    | false, .script _, arg :: _ => s.fail (.failed (unknownCommand c arg))
    | false, .script shell, [] => s.print (shell.script !line.noDescriptions)
    | _, _, _ => s.print c.page

/-- Keeps what is wrong with arguments that are to be completed, in a file that the environment
names. It does not matter if that fails. -/
def keepTrouble (env : Environment) (choices : Choices) (store : FileStore) : FileStore :=
  match choices.error?, env.value? troubleVariable with
  | some e, some path => (store.append path e.line).toOption.getD store
  | _, _ => store

/-- Lists what the last argument may be completed to. -/
def runChoices (env : Environment) (described : Bool) (args : List Text) (s : Session) :
    Session :=
  if args.isEmpty then s.fail (.failed (ascii "requires at least 1 arg(s), only received 0"))
  else
    let choices := choicesFor args
    let s := s.print (choices.render (described && isDescribed env args))
    { s with
      store := keepTrouble env choices s.store
      trouble := (choices.error?.map CompletionError.line).getD []
      remark := choices.remark }

/-- Runs the command that the arguments name. -/
def runCommand (w : Surroundings) : Except Fault Session :=
  let s : Session := { store := w.store }
  match Command.find w.args with
  | (.assemble, _) => runAssembler w s
  | (.choices described, args) => .ok (runChoices w.env described args s)
  | (c, args) => .ok (runCompletion c args s)

/-! ## What a run looks at -/

/-- The variables that have a meaning. -/
def knownVariables : List String :=
  Environment.names.map (fun name => Environment.commonStart ++ name) ++
    [troubleVariable, editionVariable] ++ descriptionVariables true ++ descriptionVariables false

namespace Surroundings

/-- The configuration files that a run may load. -/
def configurationReach (w : Surroundings) (c : CommandLine) : List Text :=
  [c.config, (w.env.get? w.readers "CONFIG").getD [], defaultConfiguration]

/-- The settings of a run as far as its store tells. -/
def settings (w : Surroundings) (c : CommandLine) : Settings :=
  let file := (configurationFile w.store w.env c.config w.readers).bind fun path =>
    (loadFile w.store w.env.edition path w.readers).toOption
  layeredSettings (file.getD {}) w.env c w.readers

/-- The paths that the assembler looks at: of configuration, source and output files. -/
def assemblerReach (w : Surroundings) : List Text :=
  match CommandLine.parse Flag.all w.args with
  | .error _ => []
  | .ok c =>
    let sources := c.args.map sourceName
    let outputs := Artifact.all.map ((w.settings c).paths (sources.headD []))
    (w.configurationReach c ++ sources ++ outputs).filter fun path => !path.isEmpty

/-- The paths that a run looks at. -/
def reach (w : Surroundings) : List Text :=
  match Command.find w.args with
  | (.assemble, _) => w.assemblerReach
  | (.choices _, _) => (w.env.value? troubleVariable).toList
  | _ => []

end Surroundings

/-- A path and the paths of the directories on its way, from the outermost inwards. -/
def waysTo (path : Text) : List Text :=
  let names := Place.names path
  (List.range names.length).map fun n => Place.path (names.take (n + 1))

end SpsAssembler
