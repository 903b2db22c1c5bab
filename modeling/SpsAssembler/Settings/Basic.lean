import SpsAssembler.Assembly.State
import SpsAssembler.Output.Artifacts
import SpsAssembler.Source.Card
import SpsAssembler.Text.Numeral

/-!
# Settings of a run

What the user can choose. Settings come in layers; each layer may set some of them, and a higher
layer has the last word.

* `Destination`, `Settings`, `Settings.default`;
* `Layer`, `Layer.apply`: what a layer sets;
* `Settings.sourceFormat`, `Settings.tabStops`, `Settings.options`, `Settings.paths`: what settings
  mean;
* `Settings.problems`, `Settings.notices`: what is wrong with settings.
-/

namespace SpsAssembler

/-- Whether an output file is written, and where; an empty path is derived from the source. -/
structure Destination where
  enabled : Bool := false
  path : Text := []
  deriving DecidableEq, Repr

/-- The settings of a run. -/
structure Settings where
  format : Text
  model : Word
  memory : Word
  tabs : Text
  tables : Bool
  halt : Bool
  warnings : Bool
  pass1Errors : Bool
  divide : Bool
  listing : Destination
  core : Destination
  cards : Destination
  tape : Destination
  symbols : Destination
  deriving DecidableEq, Repr

/-- The part of a layer that is about an output file. -/
structure DestinationLayer where
  enabled : Option Bool := none
  path : Option Text := none
  deriving DecidableEq, Repr

/-- The settings that a layer sets. -/
structure Layer where
  format : Option Text := none
  model : Option Word := none
  memory : Option Word := none
  tabs : Option Text := none
  tables : Option Bool := none
  halt : Option Bool := none
  warnings : Option Bool := none
  pass1Errors : Option Bool := none
  divide : Option Bool := none
  listing : DestinationLayer := {}
  core : DestinationLayer := {}
  cards : DestinationLayer := {}
  tape : DestinationLayer := {}
  symbols : DestinationLayer := {}
  deriving DecidableEq, Repr

/-- A destination under a layer. -/
def DestinationLayer.apply (l : DestinationLayer) (d : Destination) : Destination :=
  { enabled := l.enabled.getD d.enabled, path := l.path.getD d.path }

/-- Settings under a layer. -/
def Layer.apply (l : Layer) (s : Settings) : Settings :=
  { format := l.format.getD s.format
    model := l.model.getD s.model
    memory := l.memory.getD s.memory
    tabs := l.tabs.getD s.tabs
    tables := l.tables.getD s.tables
    halt := l.halt.getD s.halt
    warnings := l.warnings.getD s.warnings
    pass1Errors := l.pass1Errors.getD s.pass1Errors
    divide := l.divide.getD s.divide
    listing := l.listing.apply s.listing
    core := l.core.apply s.core
    cards := l.cards.apply s.cards
    tape := l.tape.apply s.tape
    symbols := l.symbols.apply s.symbols }

/-- The part of a layer about one output file. -/
def Layer.destination (l : Layer) : Artifact → DestinationLayer
  | .listing => l.listing
  | .core => l.core
  | .cards => l.cards
  | .tape => l.tape
  | .symbols => l.symbols

/-- Replaces the part of a layer about one output file. -/
def Layer.setDestination (l : Layer) (a : Artifact) (d : DestinationLayer) : Layer :=
  match a with
  | .listing => { l with listing := d }
  | .core => { l with core := d }
  | .cards => { l with cards := d }
  | .tape => { l with tape := d }
  | .symbols => { l with symbols := d }

namespace Settings

/-- A run in the fixed format for a model 1 with 60000 digits that writes only the listing. -/
def default : Settings where
  format := SourceFormat.fixed.name
  model := 1
  memory := defaultMemorySize
  tabs := []
  tables := true
  halt := true
  warnings := true
  pass1Errors := false
  divide := true
  listing := { enabled := true }
  core := {}
  cards := {}
  tape := {}
  symbols := {}

/-- What is chosen for an output file. -/
def destination (s : Settings) : Artifact → Destination
  | .listing => s.listing
  | .core => s.core
  | .cards => s.cards
  | .tape => s.tape
  | .symbols => s.symbols

/-- The number of digits of core; numbers up to 100 are thousands. -/
def memorySize (s : Settings) : Word :=
  if 0 < s.memory && s.memory ≤ 100 then s.memory * 1000 else s.memory

/-- The source format, fixed if there is no such format. -/
def sourceFormat (s : Settings) : SourceFormat := (SourceFormat.parse? s.format).getD .fixed

/-- The tab stops, which only the freeform format has a use for, or what is wrong with them. -/
def tabStops (s : Settings) : Except Text TabStops :=
  if s.tabs.isEmpty || s.sourceFormat == .fixed then .ok .default
  else match TabStops.parse? s.tabs with
    | some stops => .ok stops
    | none => .error (TabStops.invalidMessage s.tabs)

/-- Everything that is wrong with settings. -/
def problems (s : Settings) : List Text :=
  (if (SourceFormat.parse? s.format).isNone then [Cause.about "invalid format" s.format] else []) ++
    (if s.model != 1 && s.model != 2 then [Cause.about "invalid model" (Text.ofWord s.model)]
     else []) ++
    (if !memorySizes.contains s.memorySize then
      [Cause.about "invalid memory size" (Text.ofWord s.memory)] else []) ++
    match s.tabStops with
    | .ok _ => []
    | .error message => [message]

/-- All problems as one message; there is none without problems. -/
def invalid? (s : Settings) : Option Text :=
  if s.problems.isEmpty then none else some (Text.bullets s.problems)

/-- Settings that are valid but have no effect. -/
def notices (s : Settings) : List Text :=
  if !s.tabs.isEmpty && s.sourceFormat == .fixed then
    [ascii "tabs option only valid with freeform"]
  else []

/-- The options of the assembly. -/
def options (s : Settings) : Options where
  model := if s.model == 2 then .two else .one
  memorySize := s.memorySize
  divide := s.divide
  tables := s.tables
  halt := s.halt
  warnings := s.warnings

end Settings

/-- The extension of an output file. -/
def Artifact.extension : Artifact → Text
  | listing => ascii ".lst"
  | core => ascii ".cmem"
  | cards => ascii ".crd"
  | tape => ascii ".pt"
  | symbols => ascii ".sym.yaml"

/-- The paths of the output files that are chosen, named after the first source file where no path
is given. -/
def Settings.paths (s : Settings) (firstSource : Text) : Paths := fun a =>
  let d := s.destination a
  if !d.enabled then []
  else if d.path.isEmpty then Path.stem firstSource ++ a.extension
  else d.path

end SpsAssembler
