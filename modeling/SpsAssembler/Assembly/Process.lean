import SpsAssembler.Assembly.Encoding

/-!
# Processing of statements

A statement is placed, its label is defined or checked, and in the pass that builds the core image
its cells are encoded and stored.

* `Outcome`: what became of a line;
* `checkBounds`, `defineLabel`, `store`;
* `process`: a statement from placement to storing.
-/

namespace SpsAssembler

/-- What became of a line. -/
structure Outcome where
  statement : Statement
  shape : Shape
  placement : Placement := {}
  value : Value := []
  diagnostics : List (Diagnostic Cause) := []
  deriving DecidableEq, Repr

/-- Whether statements of a kind take cells. -/
def Kind.takesCells : Kind → Bool
  | dac | das | dc | dda | dgm | dnb | dot | ds | dsa | dsac | dsb | dsc | dss | dvlc
  | instruction => true
  | _ => false

/-- Whether statements of a kind define their label. -/
def Kind.definesLabel (k : Kind) : Bool := k.takesCells || k == dorg

/-- Reports cells beyond the end of core. -/
def checkBounds (p : Placement) : Step Unit := do
  let a ← get
  reportIf (a.options.memorySize < p.address + p.length) (error .outsideMemory)

/-- Defines the label of a statement in the first pass and checks it in any other. -/
def defineLabel (s : Statement) (p : Placement) : Step Unit :=
  modify fun a =>
    if a.log.pass == 1 then
      let (symbols, reports) := a.symbols.define s.label p.labelAddress s.kind a.log.line a.head
      { a with symbols }.raise reports
    else a.raise (a.symbols.verify s.label a.log.line a.head)

/-- Stores the cells of a statement. -/
def store (address : Word) (value : Value) : Build Unit := fun a =>
  match a.memory.admits address value with
  | .error f => .error f a
  | .ok false => .ok () (a.raise [error (.cannotStore address)])
  | .ok true => .ok () { a with memory := a.memory.written address value }

/-- Places a statement and deals with its label. -/
def layOut (s : Statement) : Step Placement := do
  let p ← place s
  if s.kind.takesCells then checkBounds p
  if s.kind.definesLabel then defineLabel s p
  pure p

/-- Processes a statement. -/
def process (s : Statement) : Build Outcome := do
  let p ← layOut s
  let outcome : Outcome := { statement := s, shape := s.descriptor.shape, placement := p }
  if (← get).emitting then
    let value ← encode s p
    store p.address value
    pure { outcome with value }
  else pure outcome

end SpsAssembler
