import SpsAssembler.Proofs.QuotedLines

/-!
# The messages of a program

Whatever is reported in a pass is counted once and handed on once: in the first pass as it is raised,
in the second with the lines of the program, and in its listing on a line of its own.

* `Item.OneLine`: what is read on one line each;
* **`TwoPasses.displayable`**: the lines, names and messages of a program do not run over lines;
* **`messages_counted_once`**: the messages of a program.
-/

namespace SpsAssembler

/-- What was read does not run over several lines. -/
def Item.OneLine : Item Line → Prop
  | .opened _ _ => True
  | .line l => l.OneLine
  | .unreadable _ reason => Byte.newline ∉ reason

instance (item : Item Line) : Decidable item.OneLine :=
  match item with
  | .opened _ _ => .isTrue trivial
  | .line l => inferInstanceAs (Decidable (Byte.newline ∉ l.bytes))
  | .unreadable _ reason => inferInstanceAs (Decidable (Byte.newline ∉ reason))

theorem Item.OneLine.quotes {item : Item Line} (h : item.OneLine) :
    Item.Quotes (Byte.newline ∉ ·) item := by
  cases item with
  | opened file name => trivial
  | line l =>
    simp only [Item.OneLine, Line.OneLine, Line.bytes, List.mem_append, not_or] at h
    exact ⟨h.1.1.2, h.1.2, h.2⟩
  | unreadable name reason => exact h

theorem Item.quotes_any (item : Item Line) : Item.Quotes (fun _ => True) item := by
  cases item with
  | opened file name => trivial
  | line l => exact ⟨trivial, trivial, trivial⟩
  | unreadable name reason => trivial

theorem Visits.statement_line {a b : Assembly} {vs : List Visit} (h : Visits a vs b) :
    ∀ v ∈ vs, v.result.statement.line = v.line := by
  induction h with
  | nil _ => simp
  | @cons a b v vs _ hv _ ih =>
    refine List.forall_mem_cons.mpr ⟨?_, ih⟩
    change v.outcome.statement.line = v.line
    rw [statement_of_handleLine hv, parse_line]

variable {options : Options} {first second : Reading Line} {run : Run} {program : Program}

/-- **A program** whose second pass reads everything on one line each can be displayed. -/
theorem TwoPasses.displayable {a b c d : Assembly}
    (h : TwoPasses options first second run program a b c d)
    (hitems : ∀ item ∈ second.items, item.OneLine) : program.Displayable := by
  -- The first pass enters keys whatever its lines hold.
  have hstart : (a.reset 1).Quotes fun _ => True := by
    rw [(start_eq h.start).2]
    exact ⟨rfl, nofun, nofun⟩
  obtain ⟨hfirst, -⟩ := runPass_quotes quotable_any (fun item _ => item.quotes_any) h.pass1 hstart
  have hloaded : c.Quotes (Byte.newline ∉ ·) := by
    rw [(load_eq h.load).1]
    exact ⟨rfl, hfirst.names, nofun⟩
  obtain ⟨hsecond, hraised⟩ :=
    runPass_quotes quotable_newline (fun item hitem => (hitems item hitem).quotes) h.pass2 hloaded
  refine ⟨fun o ho => ?_, fun s hs => ?_, fun m hm => ?_⟩
  · obtain ⟨-, ws, -, hws, -, hlines, -, hrecorded, -⟩ := h.visits
    rw [h.program_eq] at ho
    change o ∈ run.second.filterMap Event.outcome? at ho
    rw [hrecorded.outcomes] at ho
    obtain ⟨w, hw, rfl⟩ := List.mem_map.mp ho
    rw [hws.statement_line w hw]
    have hline : w.line ∈ second.lines := hlines ▸ List.mem_map_of_mem hw
    obtain ⟨item, hitem, hread⟩ := List.mem_filterMap.mp hline
    cases item with
    | line l =>
      cases hread
      exact hitems _ hitem
    | opened file name => cases hread
    | unreadable name reason => cases hread
  · rw [h.program_eq] at hs
    exact (hsecond.names s.name (List.mem_map_of_mem hs)).caret_notMem
  · rw [h.delivered.1] at hm
    exact Diagnostic.newline_notMem_render (hraised m hm)

/-- **Every message is counted once and handed on once.** A report that is kept is added to the
messages of its pass and counted there, and what is said quietly leaves no trace, at any depth. The
messages of the second pass, in the order in which they were raised, are those of the lines of the
program and those behind the last line; those of the first pass were seen as they were raised. The
listing shows each message of the program on a line of its own. -/
theorem messages_counted_once (h : assemble options first second = .ok run)
    (hprogram : run.result = .ok program) :
    (∀ (log : Log Cause) reports, log.raiseAll reports = log.deliver (log.kept reports)) ∧
      (∀ (log : Log Cause) talks, (log.quietly fun muted => muted.hearAll talks) = log) ∧
      (∀ operand usage a, (evaluateQuietly operand usage a).2.log = a.log ∧
        evaluateQuietly operand usage a =
          ((evaluate operand usage a.mute).1.1, (evaluate operand usage a.mute).2.unmute)) ∧
      program.pass2.errors = program.messages.countP (·.isError) ∧
      program.pass2.warnings = program.messages.countP (!·.isError) ∧
      program.messages = raisedIn run.second ∧ (∀ m ∈ program.messages, m.pass = 2) ∧
      (raisedIn run.first).length = program.pass1.errors + program.pass1.warnings ∧
      (∀ m ∈ raisedIn run.first, m.pass = 1) ∧
      ∀ p : Provenance, (∀ item ∈ second.items, item.OneLine) →
        (∀ name ∈ p.files, Byte.newline ∉ name) →
        messageLines p (listing p program) = program.messages.map Diagnostic.render := by
  obtain ⟨a, b, c, d, htwo⟩ := twoPasses_of_assemble h hprogram
  obtain ⟨hraised, hpass2, hpasses2, hpass1, hpasses1⟩ := htwo.delivered
  refine ⟨Log.raiseAll_eq, Log.quietly_hearAll,
    fun _ _ _ => ⟨by rw [evaluateQuietly_eq]; rfl, evaluateQuietly_muted _ _ _⟩, ?_, ?_, hraised,
    hpasses2, ?_, hpasses1, fun p hitems hfiles => ?_⟩
  · rw [hpass2]
  · rw [hpass2]
  · rw [hpass1, List.length_eq_countP_add_countP (·.isError)]
    simp
  · exact messageLines_listing (htwo.displayable hitems) hfiles

/-- A source that becomes unreadable between two lines, has mistakes in them, one in a length that is
looked at quietly as well, and does not end. -/
def noisySource : Reading Line where
  items := [
    .opened 1 (ascii "main.sps"),
    .line { number := 1, label := ascii "A", operation := ascii "DC", operands := ascii "3,12" },
    .unreadable (ascii "main.sps") (ascii "gone"),
    .line { number := 2, label := ascii "A", operation := ascii "TF", operands := ascii "B,A,X" },
    .line { number := 3, operation := ascii "DAC", operands := ascii "C+2,^^" },
    .line { number := 4, operation := ascii "TCD" }]

/-- The messages of its second pass. -/
def noisyMessages : List Text := [
  ascii "Error: error reading source file (gone)",
  ascii "Error: duplicate label (A)",
  ascii "Error: undefined symbol (B)",
  ascii "Error: invalid flags (X)",
  ascii "Error: undefined symbol (C)",
  ascii "Error: invalid value (^^)",
  ascii "Warning: unsupported control operation (TCD)",
  ascii "Error: DEND statement missing"]

theorem noisySource_assembles : ∃ run program,
    assemble { memorySize := 20000, tables := false } noisySource noisySource = .ok run ∧
      run.result = .ok program ∧ program.pass1.errors = 4 ∧ program.pass2.errors = 7 ∧
      ((raisedIn run.first).length, (raisedIn run.second).map Diagnostic.render) =
        (5, noisyMessages) := by
  exact assemble_of_afterPasses
    (fun es fs _ => ((raisedIn es).length, (raisedIn fs).map Diagnostic.render)) rfl (by decide) rfl rfl
    (by decide +kernel)

theorem messages_counted_once_noisySource : ∃ run program,
    assemble { memorySize := 20000, tables := false } noisySource noisySource = .ok run ∧
      run.result = .ok program ∧ (∀ item ∈ noisySource.items, item.OneLine) ∧
      program.messages.countP (·.isError) = 7 ∧ program.pass1.errors + program.pass1.warnings = 5 ∧
      ∀ p : Provenance, (∀ name ∈ p.files, Byte.newline ∉ name) →
        messageLines p (listing p program) = noisyMessages := by
  obtain ⟨run, program, hrun, hprogram, -, herrors, hraised⟩ := noisySource_assembles
  obtain ⟨hfirst, hsecond⟩ := Prod.mk.inj hraised
  have hitems : ∀ item ∈ noisySource.items, item.OneLine := by decide +kernel
  obtain ⟨-, -, -, hcount, -, hmessages, -, hlength, -, hlisting⟩ :=
    messages_counted_once hrun hprogram
  refine ⟨run, program, hrun, hprogram, hitems, by rw [← hcount, herrors], by rw [← hlength, hfirst],
    fun p hfiles => ?_⟩
  rw [hlisting p hitems hfiles, hmessages, hsecond]

end SpsAssembler
