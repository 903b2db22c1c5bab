import SpsAssembler.Settings.Environment
import SpsAssembler.Text.Capitals

/-!
# Settings from a file

A TOML document whose keys are the names of settings, in capitals or small letters. A key that is no
setting is an error, and so is a value of the wrong kind.

* `decodeFile`: the settings of a document;
* `entryKeys`, `unknownKeys`: the keys that are settings, and those that are none;
* `loadFile`: the settings of a file;
* `Environment.edition`: the edition of the format;
* `configurationFile`: the file that a run loads.
-/

namespace SpsAssembler

/-- The file that is loaded if none is named. -/
def defaultConfiguration : Text := ascii "sps1620.toml"

/-- A text. -/
def textSlot : Toml.Slot → Option Text
  | .scalar (.string t) => some t
  | _ => none

/-- A number. -/
def wordSlot : Toml.Slot → Option Word
  | .scalar (.integer n) => some n
  | _ => none

/-- A truth value. -/
def truthSlot : Toml.Slot → Option Bool
  | .scalar (.boolean b) => some b
  | _ => none

/-- Whether a key is the name of a setting. -/
def isNamed (name : String) (key : Text) : Bool := Text.sameWord (ascii name) key

/-- What an entry of the table of an output file sets. -/
def destinationEntry (d : DestinationLayer) (e : Text × Toml.Slot) : Option DestinationLayer :=
  if isNamed "enabled" e.1 then (truthSlot e.2).map fun b => { d with enabled := some b }
  else if isNamed "path" e.1 then (textSlot e.2).map fun t => { d with path := some t }
  else some d

/-- The entries of a table of a document; nothing if there is another value in its place. -/
def tableSlot (document : Toml.Document) : Toml.Slot → Option (List (Text × Toml.Slot))
  | .table id => document.tables[id]?.map Toml.Table.entries
  | _ => none

/-- The name of the table of an output file. -/
def Artifact.key : Artifact → String
  | listing => "listing"
  | core => "cmem"
  | cards => "crd"
  | tape => "pt"
  | symbols => "symbols"

/-- The output file whose table has a name. -/
def namedArtifact? (key : Text) : Option Artifact := Artifact.all.find? fun a => isNamed a.key key

/-- What an entry of a document sets; nothing if its value has the wrong kind. -/
def fileEntry (document : Toml.Document) (l : Layer) (e : Text × Toml.Slot) : Option Layer :=
  let (key, slot) := e
  if isNamed "format" key then (textSlot slot).map fun t => { l with format := some t }
  else if isNamed "model" key then (wordSlot slot).map fun n => { l with model := some n }
  else if isNamed "memory" key then (wordSlot slot).map fun n => { l with memory := some n }
  else if isNamed "tabs" key then (textSlot slot).map fun t => { l with tabs := some t }
  else if isNamed "tables" key then (truthSlot slot).map fun b => { l with tables := some b }
  else if isNamed "halt" key then (truthSlot slot).map fun b => { l with halt := some b }
  else if isNamed "warnings" key then (truthSlot slot).map fun b => { l with warnings := some b }
  else if isNamed "pass1_errors" key then
    (truthSlot slot).map fun b => { l with pass1Errors := some b }
  else if isNamed "symbol_divide" key then
    (truthSlot slot).map fun b => { l with divide := some b }
  else match namedArtifact? key with
    | some a => do
      let entries ← tableSlot document slot
      let d ← entries.foldlM destinationEntry (l.destination a)
      some (l.setDestination a d)
    | none => some l

/-- Names of settings that are no tables. -/
def settingNames : List String :=
  ["format", "model", "memory", "tabs", "tables", "halt", "warnings", "pass1_errors",
   "symbol_divide"]

/-- Names of settings in the table of an output file. -/
def destinationNames : List String := ["enabled", "path"]

/-- The keys of the settings that an entry of a document holds. -/
def entryKeys (document : Toml.Document) (e : Text × Toml.Slot) : List Toml.Key :=
  if settingNames.any (isNamed · e.1) then [[e.1]]
  else if (namedArtifact? e.1).isSome then
    let inside := ((tableSlot document e.2).getD []).filter fun e =>
      destinationNames.any (isNamed · e.1)
    [e.1] :: inside.map fun i => [e.1, i.1]
  else []

/-- The keys of a document that are no settings, in byte order. -/
def unknownKeys (document : Toml.Document) (entries : List (Text × Toml.Slot)) : List Text :=
  let known := entries.flatMap (entryKeys document)
  ((document.keys.filter fun k => !known.contains k).map Toml.Key.render).mergeSort fun a b =>
    !Text.before b a

/-- What is wrong with a configuration file. -/
inductive ConfigurationError where
  | cannotRead (path : Text) (error : FileError)
  | malformed (path : Text)
  | unknownKeys (path : Text) (keys : List Text)
  deriving DecidableEq, Repr

/-- The wording of what is wrong. -/
def ConfigurationError.message : ConfigurationError → Text
  | cannotRead path e =>
    ascii "error decoding configuration file " ++ path ++ ascii ": " ++ e.message
  | malformed path =>
    ascii "error decoding configuration file " ++ path ++ ascii ": toml: invalid document"
  | unknownKeys path keys =>
    ascii "unknown keys in configuration file " ++ path ++ ascii ": " ++
      Text.join (ascii ", ") keys

/-- The settings of a document. -/
def decodeFile (readers : Readers) (edition : Toml.Edition) (path content : Text) :
    Except ConfigurationError Layer :=
  match readers.parse edition content with
  | none => .error (.malformed path)
  | some document =>
    let entries := (document.tables[0]?.map Toml.Table.entries).getD []
    match entries.foldlM (fileEntry document) {} with
    | none => .error (.malformed path)
    | some layer =>
      let unknown := unknownKeys document entries
      if unknown.isEmpty then .ok layer else .error (.unknownKeys path unknown)

/-- The settings of a file. -/
def loadFile (store : FileStore) (edition : Toml.Edition) (path : Text)
    (readers : Readers := {}) : Except ConfigurationError Layer :=
  match store.read path with
  | .error e => .error (.cannotRead path e)
  | .ok content => decodeFile readers edition path content

/-- The variable that turns on the later edition of the format. -/
def editionVariable : String := "BURNTSUSHI_TOML_110"

/-- The edition that files are read in. The variable need not have a value. -/
def Environment.edition (env : Environment) : Toml.Edition :=
  if env.any fun v => v.1 == ascii editionVariable then .v11 else .v10

/-- The file that a run loads: the one named on the command line, else the one named in the
environment, else the default one if it is there. -/
def configurationFile (store : FileStore) (env : Environment) (named : Text)
    (readers : Readers := {}) : Option Text :=
  if !named.isEmpty then some named
  else match env.get? readers "CONFIG" with
    | some path => some path
    | none => if store.has defaultConfiguration then some defaultConfiguration else none

end SpsAssembler
