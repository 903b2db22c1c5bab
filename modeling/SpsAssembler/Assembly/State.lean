import SpsAssembler.Expression.Evaluation
import SpsAssembler.Machine.LowCore

/-!
# The state of an assembly

What the statements of a run share: the symbols, the core image, the address counter, the head in
force and the log. A `Step` always comes to an end: a fault that it meets is noted in the state, and
it goes on with a stand-in until the line ends. A `Build` stops at a fault, and the state reached
before stays visible.

* `Options`, `Ending`, `Assembly`;
* `Assembly.start`, `Assembly.reset`, `Assembly.atLine`, `Assembly.note`;
* `Step`, `Build`;
* `report`, `settle`, `evaluate`, `evaluateQuietly`: steps on the state.
-/

namespace SpsAssembler

/-- The machine that is assembled for, and what is loaded with a program. `divide` makes the slash
a character of names. -/
structure Options where
  model : Model := .one
  memorySize : Word := defaultMemorySize
  divide : Bool := true
  tables : Bool := true
  halt : Bool := true
  warnings : Bool := true
  deriving DecidableEq, Repr

/-- Whether the end statement was met, and whether statements behind it were reported. -/
inductive Ending where
  | running
  | ended
  | overrun
  deriving DecidableEq, Repr

/-- The state of a run. `counter` is the next free address, `last` the last address given to a
statement, `entry` where the program starts, and `fault` the first fault that a step met. -/
structure Assembly where
  options : Options
  log : Log Cause
  symbols : SymbolTable
  memory : Memory
  counter : Word := 0
  last : Word := 0
  head : Byte := Byte.blank
  ending : Ending := .running
  entry : Word := 0
  fault : Option Fault := none
  deriving DecidableEq, Repr

/-- Where the address counter begins. -/
def startAddress : Word := 402

namespace Assembly

/-- The state before the first pass. -/
def start (options : Options) : Except Fault Assembly :=
  match Memory.blank options.memorySize with
  | .error f => .error f
  | .ok memory =>
    .ok {
      options, memory, log := Log.start options.warnings, symbols := { divide := options.divide } }

/-- Prepares for a pass. Symbols, core and the entry stay. -/
def reset (a : Assembly) (pass : Word) : Assembly :=
  { a with
    log := a.log.reset pass
    counter := startAddress
    last := 0
    head := Byte.blank
    ending := .running }

/-- Ties what follows to a line. -/
def atLine (a : Assembly) (line : Word) : Assembly := { a with log := a.log.atLine line }

/-- Whether operands may have an index. -/
def indexed (a : Assembly) : Bool := a.options.model == .two

/-- Whether the pass builds the core image. -/
def emitting (a : Assembly) : Bool := a.log.pass == 2

/-- The place of an operand. -/
def scope (a : Assembly) : Scope :=
  { head := a.head, line := a.log.line, entering := a.emitting, memorySize := a.options.memorySize }

/-- Reports in order. -/
def raise (a : Assembly) (reports : List (Report Cause)) : Assembly :=
  { a with log := a.log.raiseAll reports }

/-- Notes a fault, unless there is one already. -/
def note (a : Assembly) : Option Fault → Assembly
  | none => a
  | some f => { a with fault := a.fault <|> some f }

end Assembly

/-- A step that always comes to an end. -/
abbrev Step := StateM Assembly

/-- A step that may end in a fault. -/
abbrev Build := EStateM Fault Assembly

instance : MonadLift Step Build where
  monadLift step := fun a => let (x, a) := step.run a; .ok x a

/-- Reports in order. -/
def report (reports : List (Report Cause)) : Step Unit := modify (·.raise reports)

/-- Reports if a condition holds. -/
def reportIf (c : Bool) (r : Report Cause) : Step Unit := report (if c then [r] else [])

/-- The answer of a computation. A fault is noted, and there is a stand-in for the answer. -/
def settle {α : Type} [Inhabited α] : Except Fault α → Step α
  | .ok x => pure x
  | .error f => do
    modify (·.note (some f))
    pure default

/-- Evaluates an operand. -/
def evaluate (operand : Text) (usage : Usage) : Step (Word × Index) :=
  modifyGet fun a =>
    let e := evaluateIn a.scope usage a.symbols operand
    ((e.value, e.index), ({ a with symbols := e.table }.raise e.reports).note e.fault)

/-- Evaluates an operand without reporting anything. -/
def evaluateQuietly (operand : Text) (usage : Usage) : Step Word :=
  modifyGet fun a =>
    let e := evaluateIn a.scope usage a.symbols operand
    (e.value, { a with symbols := e.table }.note e.fault)

/-- Evaluates an operand that positions a statement: it has no index, and its symbols are defined
further up. -/
def evaluateLayout (operand : Text) (check : Check) : Step Word := do
  let a ← get
  let (v, _) ← evaluate operand { star := a.last, ordered := true, check }
  pure v

/-- Evaluates a length or a count. -/
def evaluateLength (operand : Text) : Step Word := evaluateLayout operand .positive

end SpsAssembler
