import SpsAssembler.Proofs.Reports

/-!
# Every message is counted and delivered once

A report that is kept becomes a message that waits in the log. It is given to the line that raised it,
or to the next one if it was raised between two lines, or it is left over when the pass ends.

* `Talk`, **`Log.quietly_hearAll`**: what is said to a log that is to keep quiet, at any depth, leaves
  it as it was; `evaluateQuietly_muted`: operands are evaluated so while they are cut;
* `raisedIn`, `listedIn`: the messages of a pass as they are raised, and as its lines have them;
* `Accounts`: both are the same messages, up to those that wait, and each of them is counted;
* **`sweep_accounts`**, **`runPass_accounts`**: so it is along a pass;
* `Program.messages`, **`TwoPasses.delivered`**: the messages of a program.
-/

namespace SpsAssembler

/-! ## Silence -/

/-- What is said to a log: a report, or a row of such things that is to be kept quiet. -/
inductive Talk (ρ : Type) where
  | report (r : Report ρ)
  | quiet (talks : List (Talk ρ))

namespace Log

variable {ρ : Type}

mutual

/-- The log after something was said to it. -/
def hear : Log ρ → Talk ρ → Log ρ
  | log, .report r => log.raise r
  | log, .quiet talks => log.quietly fun muted => muted.hearAll talks

/-- The log after several things were said to it. -/
def hearAll : Log ρ → List (Talk ρ) → Log ρ
  | log, [] => log
  | log, talk :: talks => (log.hear talk).hearAll talks

end

theorem unmute_mute (log : Log ρ) : log.mute.unmute = log := rfl

theorem raise_of_muted {log : Log ρ} (h : log.muted ≠ 0) (r : Report ρ) : log.raise r = log :=
  if_pos (by simpa using h)

mutual

theorem hear_of_muted {log : Log ρ} (h : log.muted ≠ 0) : ∀ talk, log.hear talk = log
  | .report r => raise_of_muted h r
  | .quiet talks => by
    have hmute : log.mute.muted ≠ 0 := Nat.succ_ne_zero _
    rw [hear, quietly, hearAll_of_muted hmute talks, unmute_mute]

theorem hearAll_of_muted {log : Log ρ} (h : log.muted ≠ 0) : ∀ talks, log.hearAll talks = log
  | [] => rfl
  | talk :: talks => by rw [hearAll, hear_of_muted h talk, hearAll_of_muted h talks]

end

/-- **What is said quietly** leaves a log as it was, at any depth. -/
theorem quietly_hearAll (log : Log ρ) (talks : List (Talk ρ)) :
    (log.quietly fun muted => muted.hearAll talks) = log := by
  have hmute : log.mute.muted ≠ 0 := Nat.succ_ne_zero _
  rw [quietly, hearAll_of_muted hmute talks, unmute_mute]

theorem raiseAll_of_muted {log : Log ρ} (h : log.muted ≠ 0) (reports : List (Report ρ)) :
    log.raiseAll reports = log := by
  induction reports with
  | nil => rfl
  | cons r rs ih => rw [raiseAll_cons, raise_of_muted h, ih]

end Log

/-- A state whose log keeps quiet. -/
def Assembly.mute (a : Assembly) : Assembly := { a with log := a.log.mute }

/-- A state whose log need not keep quiet any more. -/
def Assembly.unmute (a : Assembly) : Assembly := { a with log := a.log.unmute }

/-- **Evaluating without reporting** is evaluating while the log keeps quiet. -/
theorem evaluateQuietly_muted (operand : Text) (usage : Usage) (a : Assembly) :
    evaluateQuietly operand usage a =
      ((evaluate operand usage a.mute).1.1, (evaluate operand usage a.mute).2.unmute) := by
  have hmute : a.log.mute.muted ≠ 0 := Nat.succ_ne_zero _
  have hlog := Log.raiseAll_of_muted hmute (evaluateIn a.scope usage a.symbols operand).reports
  rw [evaluateQuietly_eq, Step.modifyGet_apply, evaluate_apply]
  change (_, _) = (_, { a with
    symbols := (evaluateIn a.scope usage a.symbols operand).table
    log := (a.log.mute.raiseAll (evaluateIn a.scope usage a.symbols operand).reports).unmute })
  rw [hlog]
  rfl

/-! ## One line -/

/-- The messages of a pass in the order in which they were raised. -/
def raisedIn (events : List Event) : List (Diagnostic Cause) := events.filterMap Event.diagnostic?

/-- The messages that the lines of a pass have. -/
def listedIn (events : List Event) : List (Diagnostic Cause) :=
  (events.filterMap Event.outcome?).flatMap Outcome.diagnostics

theorem raisedIn_append (es fs : List Event) : raisedIn (es ++ fs) = raisedIn es ++ raisedIn fs :=
  List.filterMap_append

theorem listedIn_append (es fs : List Event) : listedIn (es ++ fs) = listedIn es ++ listedIn fs := by
  rw [listedIn, List.filterMap_append, List.flatMap_append]
  rfl

theorem raisedIn_map (ds : List (Diagnostic Cause)) : raisedIn (ds.map Event.raised) = ds := by
  rw [raisedIn, List.filterMap_map]
  exact List.filterMap_some

theorem listedIn_map (ds : List (Diagnostic Cause)) : listedIn (ds.map Event.raised) = [] := by
  rw [listedIn, List.filterMap_map]
  have hnone : (Event.outcome? ∘ Event.raised) = fun _ => none := rfl
  rw [hnone]
  simp

/-- From one state of a pass to another, every message that was raised is counted, and the lines have
them, in the order in which they were raised, up to those that still wait. -/
structure Accounts (events : List Event) (a b : Assembly) : Prop where
  pass : b.log.pass = a.log.pass
  errors : b.log.errorCount = a.log.errorCount + (raisedIn events).countP (·.isError)
  warnings : b.log.warningCount = a.log.warningCount + (raisedIn events).countP (!·.isError)
  listed : listedIn events ++ b.log.pending = a.log.pending ++ raisedIn events
  passes : ∀ d ∈ raisedIn events, d.pass = a.log.pass

namespace Accounts

variable {events fs : List Event} {a b c : Assembly}

theorem nil (a : Assembly) : Accounts [] a a := ⟨rfl, rfl, rfl, by simp [listedIn, raisedIn], nofun⟩

theorem append (h : Accounts events a b) (g : Accounts fs b c) : Accounts (events ++ fs) a c where
  pass := g.pass.trans h.pass
  errors := by
    rw [g.errors, h.errors, raisedIn_append, List.countP_append]
    omega
  warnings := by
    rw [g.warnings, h.warnings, raisedIn_append, List.countP_append]
    omega
  listed := by
    rw [listedIn_append, List.append_assoc, g.listed, ← List.append_assoc, h.listed, List.append_assoc,
      ← raisedIn_append]
  passes := by
    intro d hd
    rw [raisedIn_append] at hd
    rcases List.mem_append.mp hd with hd | hd
    · exact h.passes d hd
    · exact (g.passes d hd).trans h.pass

theorem opened (file : Nat) (name : Text) (a : Assembly) : Accounts [.opened file name] a a :=
  ⟨rfl, rfl, rfl, (List.append_nil _).symm, nofun⟩

theorem deliver {line : Word} {ds : List (Diagnostic Cause)}
    (hlog : b.log = (a.atLine line).log.deliver ds) (hpass : ∀ d ∈ ds, d.pass = a.log.pass) :
    Accounts (ds.map Event.raised) a b where
  pass := by rw [hlog]; rfl
  errors := by rw [hlog, raisedIn_map]; rfl
  warnings := by rw [hlog, raisedIn_map]; rfl
  listed := by rw [hlog, raisedIn_map, listedIn_map]; rfl
  passes := by rwa [raisedIn_map]

theorem take (o : Outcome) (processed : Bool) (a : Assembly) :
    Accounts [.finished { o with diagnostics := a.log.pending } processed] a
      { a with log := { a.log with pending := [] } } :=
  ⟨rfl, rfl, rfl, by simp [listedIn, raisedIn, Event.outcome?, Event.diagnostic?], nofun⟩

end Accounts

variable {a b : Assembly} {events : List Event}

theorem Assembly.Utters.delivers {P : Cause → Prop} (h : a.Utters P b) :
    ∃ ds, b.log = a.log.deliver ds ∧ ∀ d ∈ ds, d.pass = a.log.pass := by
  obtain ⟨reports, hlog, -⟩ := h
  refine ⟨a.log.kept reports, by rw [hlog, Log.raiseAll_eq], fun d hd => ?_⟩
  unfold Log.kept at hd
  split at hd
  · obtain ⟨r, -, rfl⟩ := List.mem_map.mp hd
    rfl
  · cases hd

/-- The messages that are raised on a line are those that it adds to the log. -/
theorem Assembly.Utters.raised {P : Cause → Prop} {line : Word} (h : (a.atLine line).Utters P b) :
    b.log = (a.atLine line).log.deliver (b.log.pending.drop a.log.pending.length) ∧
      ∀ d ∈ b.log.pending.drop a.log.pending.length, d.pass = a.log.pass := by
  obtain ⟨es, hlog, hpass⟩ := h.delivers
  have hpending : b.log.pending.drop a.log.pending.length = es := by
    rw [hlog]
    exact List.drop_left
  rw [hpending]
  exact ⟨hlog, hpass⟩

/-- **A line accounts for its messages**: it has those that wait and those that it raises. -/
theorem finishLine_accounts {line : Line} (h : finishLine line a = .ok events b) :
    Accounts events a b := by
  obtain ⟨o, processed, c, hline, -, rfl, rfl⟩ := finishLine_cases h
  obtain ⟨hlog, hpass⟩ := (utters_of_handleLine hline).raised
  exact (Accounts.deliver hlog hpass).append (.take o processed c)

theorem announceError_accounts {line : Word} {cause : Cause}
    (h : announceError line cause a = .ok events b) : Accounts events a b := by
  rw [announceError_apply] at h
  cases h
  have hutters : (a.atLine line).Utters (fun _ => True) ((a.atLine line).raise [error cause]) :=
    .raise fun _ _ => trivial
  obtain ⟨hlog, hpass⟩ := hutters.raised
  exact .deliver hlog hpass

/-! ## A pass -/

/-- **A sweep accounts for its messages.** -/
theorem sweep_accounts {count : Nat} {items : List (Item Line)}
    (h : sweep count items a = .ok events b) : Accounts events a b := by
  induction items generalizing count a events with
  | nil =>
    cases h
    exact .nil _
  | cons item items ih =>
    obtain ⟨next, es, c, fs, hitem, hrest, rfl⟩ := sweep_cons h
    refine Accounts.append ?_ (ih hrest)
    cases hitem with
    | opened file name => exact .opened file name a
    | unreadable name hfirst => exact announceError_accounts hfirst
    | line hfirst => exact finishLine_accounts hfirst

/-- **A pass accounts for its messages**, that of a missing end included. -/
theorem runPass_accounts {reading : Reading Line} (h : runPass reading a = .ok events b) :
    Accounts events a b := by
  obtain ⟨swept, c, hsweep, ⟨rfl, rfl, -⟩ | ⟨-, -, closing, hclose, rfl⟩⟩ := runPass_cases h
  · exact sweep_accounts hsweep
  · exact (sweep_accounts hsweep).append (announceError_accounts hclose)

theorem Accounts.of_reset {pass : Word} (h : Accounts events a b) (hlog : a.log = a.log.reset pass) :
    b.log.counts = ⟨(raisedIn events).countP (·.isError), (raisedIn events).countP (!·.isError)⟩ ∧
      listedIn events ++ b.log.pending = raisedIn events ∧ ∀ d ∈ raisedIn events, d.pass = pass := by
  have herrors := h.errors
  have hwarnings := h.warnings
  have hlisted := h.listed
  have hpasses := h.passes
  rw [hlog] at herrors hwarnings hlisted hpasses
  refine ⟨?_, hlisted, hpasses⟩
  rw [Log.counts, herrors, hwarnings]
  simp [Log.reset]

/-- The messages of a program: those of its lines, then those that were left over. -/
def Program.messages (program : Program) : List (Diagnostic Cause) :=
  program.outcomes.flatMap Outcome.diagnostics ++ program.trailing

/-- **The messages of a program** are those that its second pass raised. -/
theorem TwoPasses.delivered {options : Options} {first second : Reading Line} {run : Run}
    {program : Program} {a b c d : Assembly}
    (h : TwoPasses options first second run program a b c d) :
    program.messages = raisedIn run.second ∧
      program.pass2 = ⟨program.messages.countP (·.isError), program.messages.countP (!·.isError)⟩ ∧
      (∀ m ∈ program.messages, m.pass = 2) ∧
      program.pass1 =
        ⟨(raisedIn run.first).countP (·.isError), (raisedIn run.first).countP (!·.isError)⟩ ∧
      ∀ m ∈ raisedIn run.first, m.pass = 1 := by
  obtain ⟨hcounts1, -, hpasses1⟩ := (runPass_accounts h.pass1).of_reset rfl
  have hloaded : c.log = c.log.reset 2 := by rw [(load_eq h.load).1]; rfl
  obtain ⟨hcounts2, hlisted2, hpasses2⟩ := (runPass_accounts h.pass2).of_reset hloaded
  have hmessages : program.messages = raisedIn run.second := by
    rw [← hlisted2, Program.messages, h.program_eq]
    rfl
  refine ⟨hmessages, ?_, ?_, ?_, hpasses1⟩
  · rw [hmessages, ← hcounts2, h.program_eq]
  · rwa [hmessages]
  · rw [← hcounts1, h.program_eq]

end SpsAssembler
