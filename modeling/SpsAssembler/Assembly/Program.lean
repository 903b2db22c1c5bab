import SpsAssembler.Assembly.Process
import SpsAssembler.Source.Reading

/-!
# Two passes over a source

The first pass builds the symbol table, the second the core image. Errors in statements do not end
a run; a source that cannot be opened does.

* `Event`: what a pass does, in order;
* `handleLine`, `finishLine`, `sweep`, `runPass`: one pass;
* `Program`, `Run`, `assemble`: both passes.
-/

namespace SpsAssembler

/-- What a pass does. A finished line was processed, or only listed. -/
inductive Event where
  | opened (file : Nat) (name : Text)
  | raised (diagnostic : Diagnostic Cause)
  | finished (outcome : Outcome) (processed : Bool)
  deriving DecidableEq, Repr

/-- Where a statement was placed. -/
structure Span where
  line : Word
  address : Word
  length : Word
  deriving DecidableEq, Repr

namespace Event

/-- The outcome of a finished line. -/
def outcome? : Event → Option Outcome
  | finished o _ => some o
  | _ => none

/-- The diagnostic that was raised. -/
def diagnostic? : Event → Option (Diagnostic Cause)
  | raised d => some d
  | _ => none

/-- The file that was opened, with its number. -/
def file? : Event → Option (Nat × Text)
  | opened i name => some (i, name)
  | _ => none

/-- The place of a statement that was processed and understood. -/
def span? : Event → Option Span
  | finished o processed =>
    if processed && o.statement.descriptor.family != .unknown then
      some ⟨o.statement.line.number, o.placement.address, o.placement.length⟩
    else none
  | _ => none

end Event

/-- Parses and processes a line. Comments, and lines behind the end, are only listed. -/
def handleLine (line : Line) : Build (Outcome × Bool) := do
  modify (·.atLine line.number)
  let s ← parse line
  if s.descriptor.family == .comment then
    pure ({ statement := s, shape := .comment }, false)
  else match (← get).ending with
    | .running =>
      let o ← process s
      pure (o, true)
    | .ended =>
      report [error .beyondEnd]
      modify ({ · with ending := .overrun })
      pure ({ statement := s, shape := .unknown }, false)
    | .overrun => pure ({ statement := s, shape := .unknown }, false)

/-- The messages raised since the last ones were taken. -/
def takePending : Build (List (Diagnostic Cause)) :=
  modifyGet fun a => let (ds, log) := a.log.take; (ds, { a with log })

/-- Runs a step and gives the messages that it raised besides its answer. -/
def raisedBy {α : Type} (step : Build α) : Build (α × List (Diagnostic Cause)) := do
  let before := (← get).log.pending.length
  let x ← step
  let a ← get
  pure (x, a.log.pending.drop before)

/-- Stops at the fault that was noted. -/
def stopAtFault : Build Unit := do
  match (← get).fault with
  | none => pure ()
  | some f => throw f

/-- Handles a line and takes the messages that belong to it. -/
def finishLine (line : Line) : Build (List Event) := do
  let ((o, processed), raised) ← raisedBy (handleLine line)
  stopAtFault
  let diagnostics ← takePending
  pure (raised.map Event.raised ++ [.finished { o with diagnostics } processed])

/-- Reports that a source cannot be read, after `count` lines. -/
def reportUnreadable (count : Nat) (reason : Text) : Build (List Event) := do
  modify (·.atLine (Int64.ofNat count))
  let (_, raised) ← raisedBy (report [error (.unreadable reason)])
  pure (raised.map Event.raised)

/-- Handles what was read, `count` lines having been read before. -/
def sweep : Nat → List (Item Line) → Build (List Event)
  | _, [] => pure []
  | count, .opened file name :: rest => do
    let events ← sweep count rest
    pure (.opened file name :: events)
  | count, .unreadable _ reason :: rest => do
    let first ← reportUnreadable count reason
    let events ← sweep count rest
    pure (first ++ events)
  | count, .line line :: rest => do
    let first ← finishLine line
    let events ← sweep (count + 1) rest
    pure (first ++ events)

/-- Reports that the end statement is missing. -/
def closePass : Build (List Event) := do
  if (← get).ending == .running then
    modify (·.atLine 0)
    let (_, raised) ← raisedBy (report [error .missingEnd])
    pure (raised.map Event.raised)
  else pure []

/-- One pass. -/
def runPass (reading : Reading Line) : Build (List Event) := do
  let events ← sweep 0 reading.items
  if reading.failure.isSome then pure events
  else
    let closing ← closePass
    pure (events ++ closing)

/-- The number of messages of a pass. -/
structure Counts where
  errors : Nat
  warnings : Nat
  deriving DecidableEq, Repr

/-- The number of messages of each severity. -/
def Log.counts {ρ : Type} (log : Log ρ) : Counts := ⟨log.errorCount, log.warningCount⟩

/-- What two passes make of a source. `trailing` are the messages after the last line, and
`startup` is the bottom of core as it was before the second pass. -/
structure Program where
  options : Options
  memory : Memory
  symbols : SymbolTable
  outcomes : List Outcome
  trailing : List (Diagnostic Cause)
  entry : Word
  lines : Nat
  pass1 : Counts
  pass2 : Counts
  layout1 : List Span
  layout2 : List Span
  startup : Value
  deriving DecidableEq, Repr

/-- Whether neither pass raised an error. -/
def Program.ok (p : Program) : Bool := p.pass1.errors == 0 && p.pass2.errors == 0

/-- A run: the events of both passes, and the program or the reason why there is none. -/
structure Run where
  first : List Event := []
  second : List Event := []
  result : Except Text Program

/-- Makes core ready for the second pass, and gives the cells at its bottom. -/
def Assembly.load (a : Assembly) : Except Fault (Assembly × Value) :=
  let memory := a.memory.clear.seed a.entry a.options.halt a.options.tables
    (a.options.model == .one)
  if memory.cells.size < startupLength then .error .positionOutOfRange
  else .ok ({ a with memory }, (memory.cells.extract 0 startupLength).toList)

/-- Assembles a source that is read twice. -/
def assemble (options : Options) (first second : Reading Line) : Except Fault Run := do
  let a ← Assembly.start options
  match runPass first (a.reset 1) with
  | .error f _ => .error f
  | .ok events1 a =>
    match first.failure with
    | some reason => .ok { first := events1, result := .error (ascii "pass 1: " ++ reason) }
    | none =>
      let pass1 := a.log.counts
      let (a, startup) ← (a.reset 2).load
      match runPass second a with
      | .error f _ => .error f
      | .ok events2 a =>
        match second.failure with
        | some reason =>
          .ok { first := events1, second := events2, result := .error (ascii "pass 2: " ++ reason) }
        | none =>
          let program : Program :=
            { options
              memory := a.memory
              symbols := a.symbols
              outcomes := events2.filterMap Event.outcome?
              trailing := a.log.pending
              entry := a.entry
              lines := second.lines.length
              pass1
              pass2 := a.log.counts
              layout1 := events1.filterMap Event.span?
              layout2 := events2.filterMap Event.span?
              startup }
          .ok { first := events1, second := events2, result := .ok program }

end SpsAssembler
