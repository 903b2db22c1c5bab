import SpsAssembler.Fault

/-!
# The log of a pass

A log counts what is reported while a line is processed and keeps it until it is taken. Warnings
can be switched off as a whole; while a log is muted nothing is reported at all. The log does not
look at what is reported.

* `Severity`, `Report`, `Diagnostic`;
* `Log.start`, `Log.reset`, `Log.atLine`;
* `Log.raise`, `Log.raiseAll`, `Log.quietly`, `Log.take`.
-/

namespace SpsAssembler

/-- How bad a message is. -/
inductive Severity where
  | warning
  | error
  deriving DecidableEq, Repr

/-- The name of a severity. -/
def Severity.name : Severity → String
  | warning => "Warning"
  | error => "Error"

/-- The name of the severity at a place of their order. -/
def Severity.nameOfNumber (n : Int) : String :=
  if n = 0 then warning.name else if n = 1 then error.name else "unknown"

/-- Something to say, before it is tied to a place. -/
structure Report (ρ : Type) where
  severity : Severity
  cause : ρ
  deriving DecidableEq, Repr

/-- Something said in a pass about a line; line 0 is the run as a whole. -/
structure Diagnostic (ρ : Type) where
  severity : Severity
  pass : Word
  line : Word
  cause : ρ
  deriving DecidableEq, Repr

/-- The messages of a pass. `pending` are those raised since the last ones were taken. -/
structure Log (ρ : Type) where
  warnings : Bool
  muted : Nat := 0
  pass : Word := 0
  line : Word := 0
  errorCount : Nat := 0
  warningCount : Nat := 0
  pending : List (Diagnostic ρ) := []
  deriving DecidableEq, Repr

namespace Log

variable {ρ α : Type}

/-- A new log; `warnings` says whether warnings are kept. -/
def start (warnings : Bool) : Log ρ := { warnings }

/-- Clears the counts for a new pass. -/
def reset (log : Log ρ) (pass : Word) : Log ρ :=
  { log with pass, line := 0, errorCount := 0, warningCount := 0, pending := [] }

/-- Ties what follows to a line. -/
def atLine (log : Log ρ) (line : Word) : Log ρ := { log with line }

/-- Adds a message at the end. -/
def push (log : Log ρ) (r : Report ρ) : Log ρ :=
  { log with pending := log.pending ++ [⟨r.severity, log.pass, log.line, r.cause⟩] }

/-- Reports one thing. -/
def raise (log : Log ρ) (r : Report ρ) : Log ρ :=
  if log.muted != 0 then log
  else match r.severity with
    | .error => { log.push r with errorCount := log.errorCount + 1 }
    | .warning =>
      if log.warnings then { log.push r with warningCount := log.warningCount + 1 } else log

/-- Reports several things in order. -/
def raiseAll (log : Log ρ) (rs : List (Report ρ)) : Log ρ := rs.foldl raise log

/-- Reports nothing until the matching `unmute`. -/
def mute (log : Log ρ) : Log ρ := { log with muted := log.muted + 1 }

/-- Ends a `mute`. -/
def unmute (log : Log ρ) : Log ρ := { log with muted := log.muted - 1 }

/-- Runs a step with reporting switched off. -/
def quietly (log : Log ρ) (step : Log ρ → Log ρ) : Log ρ := (step log.mute).unmute

/-- The messages raised since the last call. -/
def take (log : Log ρ) : List (Diagnostic ρ) × Log ρ := (log.pending, { log with pending := [] })

/-- Whether the pass raised an error. -/
def hasErrors (log : Log ρ) : Bool := 0 < log.errorCount

end Log

end SpsAssembler
