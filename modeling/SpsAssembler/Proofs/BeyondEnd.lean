import SpsAssembler.Proofs.Faultless

/-!
# Behind the end of a program

Lines behind the end statement are not looked at. They are listed as they stand, the first of them
is reported, and so is every one that holds invalid characters; nothing else comes of them.

* `Line.isEnd`, `Reading.StopsAtEnd`: sources that stop with their end statement;
* `ending_of_handleLine`, `Visits.ended`: the end is met where the first end statement is;
* `Assembly.Overruns`, `Listed`: what lines behind the end do, and what is left of them;
* **`sweep_beyond`**: any row of lines behind the end;
* **`assemble_followedBy`**: a source with lines behind its end.
-/

namespace SpsAssembler

open Assembly (Keeps)

variable {a b c : Assembly}

/-- Whether a line is an end statement. -/
def Line.isEnd (line : Line) : Bool :=
  !line.invalid && !line.comment && line.operation == ascii "DEND"

/-- The last line of a source is its first end statement. -/
def Reading.StopsAtEnd (reading : Reading Line) : Prop :=
  ∃ before last, reading.lines = before ++ [last] ∧ last.isEnd = true ∧
    ∀ line ∈ before, line.isEnd = false

/-- A source with more behind it. -/
def Reading.followedBy (reading : Reading Line) (tail : List (Item Line)) : Reading Line :=
  { reading with items := reading.items ++ tail }

/-- A line with invalid characters, or a place from where a source cannot be read. -/
def Item.isFaulty : Item Line → Bool
  | .line l => l.invalid
  | .unreadable _ _ => true
  | .opened _ _ => false

/-! ## The end statement -/

theorem kind_of_find? {mnemonic : Text} {d : Descriptor} (h : Descriptor.find? mnemonic = some d) :
    d.kind = .dend ↔ mnemonic = ascii "DEND" := by
  have hall : catalog.all (fun d => (d.kind == .dend) == (d.mnemonic == ascii "DEND")) = true := by
    decide +kernel
  have hd := List.all_eq_true.mp hall d (List.mem_of_find?_eq_some h)
  have hmnemonic : d.mnemonic = mnemonic := by simpa using List.find?_some h
  rw [beq_iff_eq, Bool.eq_iff_iff, beq_iff_eq, beq_iff_eq, hmnemonic] at hd
  exact hd

/-- While a program runs, a line becomes an end statement exactly if it is one. -/
theorem parse_isEnd (line : Line) (ha : a.ending = .running) :
    (parse line a).1.kind = .dend ↔ line.isEnd = true := by
  rw [parse_apply, Line.isEnd]
  split_ifs with hinvalid hending hcomment hblank
  · simp [Statement.kind, Descriptor.unknown, hinvalid]
  · simp [ha] at hending
  · simp [Statement.kind, Descriptor.comment, hcomment]
  · have hne : line.operation ≠ ascii "DEND" := by
      rintro heq
      rw [heq] at hblank
      cases hblank
    simp [Statement.kind, Descriptor.unknown, hne]
  · cases hd : Descriptor.find? line.operation with
    | none =>
      have hne : line.operation ≠ ascii "DEND" := by
        rintro heq
        rw [heq] at hd
        cases hd
      simp [Statement.kind, Descriptor.unknown, hne]
    | some d =>
      simp [Statement.kind, hinvalid, hcomment, kind_of_find? hd]

theorem place_ending (s : Statement) (a : Assembly) :
    (place s a).2.ending = if s.kind = .dend then .ended else a.ending := by
  split
  · rename_i hkind
    unfold place
    rw [hkind]
    simp only [placeEnd, Step.bind_apply, evaluateLayout_apply]
    rfl
  · rename_i hkind
    refine ((place_within s a).entry_eq ?_).1
    cases hk : s.kind <;> first | rfl | exact absurd hk hkind

/-- **A line ends a running program** exactly if it is an end statement. -/
theorem ending_of_handleLine {line : Line} {o : Outcome} {processed : Bool}
    (h : handleLine line a = .ok (o, processed) b) (ha : a.ending = .running) :
    b.ending = if line.isEnd then .ended else .running := by
  have hparsed : (parse line (a.atLine line.number)).2.ending = .running :=
    ((parse_leads line a).entry_eq rfl).1.trans ha
  have hend := parse_isEnd (a := a.atLine line.number) line ha
  cases handles_of_handleLine h with
  | comment hf =>
    have hkind := parse_kind (.inl hf)
    rw [if_neg, hparsed]
    rw [← hend]
    rcases hkind with hkind | hkind <;> rw [hkind] <;> decide
  | beyond _ he => rw [hparsed] at he; cases he
  | overrun _ he => rw [hparsed] at he; cases he
  | processed _ _ hp =>
    have hregisters := (processed_of_process hp).registers_eq
    simp only [Assembly.registers, Prod.mk.injEq] at hregisters
    rw [hregisters.2.2.2.1, place_ending, hparsed]
    simp only [hend]

theorem Visits.running {vs : List Visit} (h : Visits a vs b) (ha : a.ending = .running)
    (hlines : ∀ v ∈ vs, v.line.isEnd = false) : b.ending = .running := by
  induction h with
  | nil hrests => rw [hrests.same]; exact ha
  | @cons a b v vs hrests hv _ ih =>
    have hbefore : v.before.ending = .running := by rw [hrests.same]; exact ha
    refine ih ?_ fun u hu => hlines u (List.mem_cons_of_mem _ hu)
    rw [ending_of_handleLine hv hbefore, hlines v List.mem_cons_self]
    rfl

theorem Visits.ended {vs : List Visit} {reading : Reading Line} (h : Visits a vs b)
    (ha : a.ending = .running) (hlines : vs.map Visit.line = reading.lines)
    (hstops : reading.StopsAtEnd) : b.ending = .ended := by
  obtain ⟨before, last, hsplit, hlast, hbefore⟩ := hstops
  rw [hsplit] at hlines
  obtain ⟨us, ws, rfl, rfl, hw⟩ := List.map_eq_append_iff.mp hlines
  obtain ⟨v, rfl, rfl⟩ : ∃ v, ws = [v] ∧ v.line = last := by simpa [List.map_eq_cons_iff] using hw
  obtain ⟨hus, hv, hrest⟩ := h.split
  have hrunning := hus.running ha fun u hu => hbefore _ (List.mem_map_of_mem hu)
  cases hrest with
  | nil hrests =>
    rw [hrests.same]
    exact (ending_of_handleLine hv hrunning).trans (by rw [hlast]; rfl)

/-! ## Lines behind the end -/

/-- The errors that the next line behind the end raises for being there. -/
def Ending.due : Ending → Nat
  | .ended => 1
  | _ => 0

/-- Only the log differs and how the program ended, and `n` errors were raised but no warning. -/
structure Assembly.Overruns (n : Nat) (a b : Assembly) : Prop extends Assembly.Keeps a b where
  same : b = { a with log := b.log, ending := b.ending }
  errors_eq : b.log.errorCount = a.log.errorCount + n
  warnings_eq : b.log.warningCount = a.log.warningCount

namespace Assembly.Overruns

theorem refl (a : Assembly) : Overruns 0 a a := ⟨.refl a, rfl, rfl, rfl⟩

theorem trans {m n : Nat} (h : Overruns m a b) (g : Overruns n b c) : Overruns (m + n) a c where
  toKeeps := h.toKeeps.trans g.toKeeps
  same := by rw [g.same, h.same]
  errors_eq := by rw [g.errors_eq, h.errors_eq, Nat.add_assoc]
  warnings_eq := g.warnings_eq.trans h.warnings_eq

theorem error (hmuted : a.log.muted = 0) (cause : Cause) :
    Overruns 1 a (a.raise [SpsAssembler.error cause]) where
  toKeeps := .raise a _
  same := rfl
  errors_eq := a.log.errorCount_raiseAll hmuted _
  warnings_eq := by
    change (a.log.raise (SpsAssembler.error cause)).warningCount = _
    rcases a.log.raise_cases (SpsAssembler.error cause) with ⟨h, -⟩ | ⟨h, -⟩ | ⟨-, h⟩
    · rw [h]
    · rw [h]
      rfl
    · cases h

/-- Nothing but the counts of a pass tells that lines behind the end were met in it. -/
theorem reset_eq {n : Nat} (h : Overruns n a b) (pass : Word) : b.reset pass = a.reset pass := by
  rw [h.same]
  simp only [Assembly.reset, Log.reset, h.muted, h.cautious]

end Assembly.Overruns

open Assembly (Overruns)

/-- What is left of lines behind the end: each is listed, with no cells and no description. -/
structure Listed (tail : List (Item Line)) (events : List Event) : Prop where
  lines : (events.filterMap Event.outcome?).map (·.statement.line) = tail.filterMap Item.line?
  outcomes : ∀ o ∈ events.filterMap Event.outcome?,
    o.value = [] ∧ o.statement.descriptor = Descriptor.unknown
  spans : events.filterMap Event.span? = []

theorem Listed.append {tail more : List (Item Line)} {es fs : List Event} (h : Listed tail es)
    (g : Listed more fs) : Listed (tail ++ more) (es ++ fs) where
  lines := by simp [h.lines, g.lines]
  outcomes o ho := by
    rw [List.filterMap_append, List.mem_append] at ho
    exact ho.elim (h.outcomes o) (g.outcomes o)
  spans := by rw [List.filterMap_append, h.spans, g.spans, List.append_nil]

theorem Listed.raised (ds : List (Diagnostic Cause)) : Listed [] (ds.map Event.raised) where
  lines := by simp [Event.outcome?]
  outcomes := by simp [Event.outcome?]
  spans := by simp [Event.span?]

theorem parse_beyond (line : Line) (ha : a.ending ≠ .running) :
    parse line a = ({ line }, if line.invalid then a.raise [error .invalidCharacters] else a) := by
  rw [parse_apply]
  by_cases hinvalid : line.invalid = true <;> simp [hinvalid, ha]

/-- **A line behind the end** raises an error if it is the first, and one if it is invalid. -/
theorem handleLine_beyond (line : Line) (ha : a.ending ≠ .running) (hmuted : a.log.muted = 0) :
    ∃ b, handleLine line a = .ok ({ statement := { line }, shape := .unknown }, false) b ∧
      b.ending = .overrun ∧ Overruns ((Item.line line).isFaulty.toNat + a.ending.due) a b := by
  have hparse := parse_beyond (a := a.atLine line.number) line ha
  obtain ⟨c, hc, hending, hparsed⟩ : ∃ c, parse line (a.atLine line.number) = ({ line }, c) ∧
      c.ending = a.ending ∧ Overruns (Item.line line).isFaulty.toNat a c := by
    refine ⟨_, hparse, ?_, ?_⟩
    · split <;> rfl
    · cases hinvalid : line.invalid with
      | true =>
        have herror := Overruns.error (a := a.atLine line.number) hmuted .invalidCharacters
        simpa [Item.isFaulty, hinvalid] using
          (⟨{ herror.toKeeps with }, rfl, herror.errors_eq, herror.warnings_eq⟩ : Overruns 1 a _)
      | false =>
        simpa [Item.isFaulty, hinvalid] using
          (⟨{ Keeps.refl a with }, rfl, rfl, rfl⟩ : Overruns 0 a (a.atLine line.number))
  have hfamily : Descriptor.unknown.family ≠ .comment := by decide
  cases he : a.ending with
  | running => exact absurd he ha
  | ended =>
    have herror := Overruns.error (hparsed.muted.trans hmuted) .beyondEnd
    refine ⟨{ c.raise [error .beyondEnd] with ending := .overrun }, handleLine_of_handles ?_, rfl,
      hparsed.trans ⟨{ herror.toKeeps with }, rfl, herror.errors_eq, herror.warnings_eq⟩⟩
    rw [hc]
    exact .beyond hfamily (hending.trans he)
  | overrun =>
    refine ⟨c, handleLine_of_handles ?_, hending.trans he, hparsed⟩
    rw [hc]
    exact .overrun hfamily (hending.trans he)

theorem reportUnreadable_beyond (count : Nat) (reason : Text) (hmuted : a.log.muted = 0) :
    ∃ (ds : List (Diagnostic Cause)) (b : Assembly),
      reportUnreadable count reason a = .ok (ds.map Event.raised) b ∧ b.ending = a.ending ∧
      Overruns 1 a b := by
  have herror := Overruns.error (a := a.atLine (Int64.ofNat count)) hmuted (.unreadable reason)
  exact ⟨_, _, rfl, rfl, { herror.toKeeps with }, rfl, herror.errors_eq, herror.warnings_eq⟩

/-- **Any row of lines behind the end** is listed, and raises an error for the first line and for
every faulty item. -/
theorem sweep_beyond (tail : List (Item Line)) (count : Nat) (ha : a.ending ≠ .running)
    (hmuted : a.log.muted = 0) (hfault : a.fault = none) :
    ∃ events b, sweep count tail a = .ok events b ∧ b.ending ≠ .running ∧ Listed tail events ∧
      Overruns (tail.countP Item.isFaulty +
        if tail.filterMap Item.line? = [] then 0 else a.ending.due) a b := by
  induction tail generalizing a count with
  | nil => exact ⟨[], a, rfl, ha, ⟨rfl, by simp, rfl⟩, .refl a⟩
  | cons item tail ih =>
    cases item with
    | opened file name =>
      obtain ⟨events, b, hsweep, hb, hlisted, hover⟩ := ih count ha hmuted hfault
      have hopened : Listed [.opened file name] [.opened file name] :=
        ⟨rfl, by simp [Event.outcome?], rfl⟩
      exact ⟨_, b, Swept.sweep (.opened file name) hsweep, hb, hopened.append hlisted, by
        simpa [Item.isFaulty, Item.line?] using hover⟩
    | unreadable name reason =>
      obtain ⟨ds, c, hfirst, hc, hover⟩ := reportUnreadable_beyond count reason hmuted
      obtain ⟨events, b, hsweep, hb, hlisted, hrest⟩ :=
        ih count (by rwa [hc]) (hover.muted.trans hmuted) (hover.fault.trans hfault)
      have hunread : Listed [.unreadable name reason] (ds.map Event.raised) :=
        { Listed.raised ds with }
      refine ⟨_, b, Swept.sweep (.unreadable name hfirst) hsweep, hb, hunread.append hlisted, ?_⟩
      have hlines : (Item.unreadable name reason :: tail).filterMap Item.line? =
          tail.filterMap Item.line? := rfl
      rw [hlines, List.countP_cons_of_pos rfl, Nat.add_right_comm, Nat.add_comm _ 1, ← hc]
      exact hover.trans hrest
    | line line =>
      obtain ⟨c, hline, hc, hover⟩ := handleLine_beyond line ha hmuted
      have htaken : Overruns 0 c { c with log := { c.log with pending := [] } } :=
        ⟨{ Keeps.refl c with }, rfl, rfl, rfl⟩
      obtain ⟨events, b, hsweep, hb, hlisted, hrest⟩ :=
        ih (a := { c with log := { c.log with pending := [] } }) (count + 1) (by simp [hc])
          (hover.muted.trans hmuted) (hover.fault.trans hfault)
      have hfinished : Listed [.line line] [.finished ⟨{ line }, .unknown, {}, [], c.log.pending⟩
          false] := ⟨rfl, by simp [Event.outcome?], rfl⟩
      refine ⟨_, b, Swept.sweep (.line (finishLine_of_handleLine hline
        (hover.fault.trans hfault))) hsweep, hb,
        ((Listed.raised _).append hfinished).append hlisted, ?_⟩
      have hsum : (Item.line line).isFaulty.toNat + a.ending.due + 0 +
          (tail.countP Item.isFaulty + if tail.filterMap Item.line? = [] then 0 else c.ending.due) =
          (Item.line line :: tail).countP Item.isFaulty +
            if (Item.line line :: tail).filterMap Item.line? = [] then 0 else a.ending.due := by
        rw [hc, List.countP_cons]
        cases (Item.line line).isFaulty <;> simp [Item.line?, Ending.due] <;> omega
      rw [← hsum]
      exact (hover.trans htaken).trans hrest

/-! ## Passes and runs -/

variable {reading : Reading Line} {es : List Event}

theorem sweep_followed {count : Nat} {items : List (Item Line)}
    (h : sweep count items a = .ok es b) (tail : List (Item Line)) :
    ∃ count', ∀ fs c, sweep count' tail b = .ok fs c →
      sweep count (items ++ tail) a = .ok (es ++ fs) c := by
  induction items generalizing a count es with
  | nil =>
    cases h
    exact ⟨count, fun fs c hrest => hrest⟩
  | cons item items ih =>
    obtain ⟨next, first, d, rest, hitem, hrest, rfl⟩ := sweep_cons h
    obtain ⟨count', hgoes⟩ := ih hrest
    refine ⟨count', fun fs c htail => ?_⟩
    rw [List.append_assoc]
    exact hitem.sweep (hgoes fs c htail)

theorem runPass_of_ended (h : sweep 0 reading.items a = .ok es b) (hb : b.ending ≠ .running) :
    runPass reading a = .ok es b := by
  have hclose : closePass b = .ok [] b := by
    unfold closePass
    rw [Build.get_bind, if_neg (by simpa using hb)]
    rfl
  unfold runPass
  rw [Build.bind_ok h]
  split
  · rfl
  · rw [Build.bind_ok hclose, List.append_nil]
    rfl

/-- **A pass over a source with lines behind its end** goes on from where the pass over the source
ends. -/
theorem runPass_followedBy (h : runPass reading a = .ok es b) (hstops : reading.StopsAtEnd)
    (ha : a.ending = .running) (hmuted : a.log.muted = 0) (hfault : a.fault = none)
    {tail : List (Item Line)} (htail : tail.filterMap Item.line? ≠ []) :
    ∃ fs c, runPass (reading.followedBy tail) a = .ok (es ++ fs) c ∧ Listed tail fs ∧
      Overruns (tail.countP Item.isFaulty + 1) b c := by
  obtain ⟨swept, b', hsweep, -⟩ := Build.ok_of_bind_ok h
  obtain ⟨vs, hvs, hlines, -⟩ := visits_of_sweep hsweep
  have hended := hvs.ended ha hlines hstops
  have hpass := runPass_of_ended hsweep (by simp [hended])
  rw [h] at hpass
  cases hpass
  obtain ⟨count, hgoes⟩ := sweep_followed hsweep tail
  obtain ⟨fs, c, hrest, hc, hlisted, hover⟩ := sweep_beyond tail count (by simp [hended])
    (hvs.keeps.muted.trans hmuted) (hvs.keeps.fault.trans hfault)
  rw [if_neg htail, hended] at hover
  exact ⟨fs, c, runPass_of_ended (hgoes fs c hrest) hc, hlisted, hover⟩

/-- **Nothing behind the end matters.** A source that stops at its end statement makes the same
program with lines behind it: the same core, symbols, entry, layouts and warnings. Its outcomes are
followed by those of the further lines, without cells or a description, and each pass raises one
more error, besides those for further lines that are invalid and places that cannot be read. -/
theorem assemble_followedBy {options : Options} {first second : Reading Line} {run : Run}
    {program : Program} {tail : List (Item Line)} (hfirst : first.StopsAtEnd)
    (hsecond : second.StopsAtEnd) (htail : tail.filterMap Item.line? ≠ [])
    (hrun : assemble options first second = .ok run) (hprogram : run.result = .ok program) :
    ∃ run' program', assemble options (first.followedBy tail) (second.followedBy tail) = .ok run' ∧
      run'.result = .ok program' ∧
      program'.memory = program.memory ∧ program'.symbols = program.symbols ∧
      program'.entry = program.entry ∧ program'.startup = program.startup ∧
      program'.layout1 = program.layout1 ∧ program'.layout2 = program.layout2 ∧
      program'.pass1.warnings = program.pass1.warnings ∧
      program'.pass2.warnings = program.pass2.warnings ∧
      program'.pass1.errors = program.pass1.errors + 1 + tail.countP Item.isFaulty ∧
      program'.pass2.errors = program.pass2.errors + 1 + tail.countP Item.isFaulty ∧
      program.outcomes.length = second.lines.length ∧
      ∃ rest, program'.outcomes = program.outcomes ++ rest ∧
        rest.map (·.statement.line) = tail.filterMap Item.line? ∧
        ∀ o ∈ rest, o.value = [] ∧ o.statement.descriptor = Descriptor.unknown := by
  obtain ⟨a, b, c, d, h⟩ := twoPasses_of_assemble hrun hprogram
  obtain ⟨-, ws, -, -, -, hwlines, -, hwrec, -⟩ := h.visits
  obtain ⟨hmuted1, hmuted2⟩ := h.audible
  obtain ⟨hfault1, hfault2⟩ := h.faultless
  have hrunning : c.ending = .running := by rw [(load_eq h.load).1]; rfl
  obtain ⟨fs, b', hpass1, hlisted1, hover1⟩ :=
    runPass_followedBy h.pass1 hfirst rfl hmuted1 hfault1 htail
  obtain ⟨gs, d', hpass2, hlisted2, hover2⟩ :=
    runPass_followedBy h.pass2 hsecond hrunning hmuted2 hfault2 htail
  have hload := h.load
  rw [← hover1.reset_eq] at hload
  obtain ⟨run', program', hrun', hprogram', hes, hfs, hstartup, h'⟩ :=
    assemble_of_passes h.start hpass1 h.failure1 hload hpass2 h.failure2
  have hlength : (run.second.filterMap Event.outcome?).length = second.lines.length := by
    rw [hwrec.outcomes, List.length_map, ← hwlines, List.length_map]
  have herrors1 : b'.log.errorCount = b.log.errorCount + 1 + tail.countP Item.isFaulty := by
    rw [hover1.errors_eq]
    omega
  have herrors2 : d'.log.errorCount = d.log.errorCount + 1 + tail.countP Item.isFaulty := by
    rw [hover2.errors_eq]
    omega
  refine ⟨run', program', hrun', hprogram', ?_⟩
  rw [h'.program_eq, h.program_eq, hes, hfs, hstartup]
  dsimp only
  refine ⟨by rw [hover2.same], by rw [hover2.same], by rw [hover2.same], rfl, ?_, ?_,
    hover1.warnings_eq, hover2.warnings_eq, herrors1, herrors2, hlength, _, List.filterMap_append,
    hlisted2.lines, hlisted2.outcomes⟩
  · rw [List.filterMap_append, hlisted1.spans, List.append_nil]
  · rw [List.filterMap_append, hlisted2.spans, List.append_nil]

/-- A source that stops at its end statement. -/
def shortSource : Reading Line where
  items := [
    .line { number := 1, label := ascii "A", operation := ascii "DC", operands := ascii "3,12" },
    .line { number := 2, operation := ascii "H" },
    .line { number := 3, operation := ascii "DEND", operands := ascii "406" }]

/-- Lines behind its end, of which the first defines a label again and the last is invalid. -/
def idleLines : List (Item Line) := [
  .line { number := 4, label := ascii "A", operation := ascii "DC", operands := ascii "3,45" },
  .line { number := 5, comment := true },
  .opened 2 (ascii "more"),
  .line { number := 6, operation := ascii "DEND", invalid := true }]

theorem shortSource_assembles : ∃ run program,
    assemble { memorySize := 20000, tables := false } shortSource shortSource = .ok run ∧
      run.result = .ok program ∧ program.pass1.errors = 0 ∧ program.pass2.errors = 0 := by
  exact assemble_of_errorCounts rfl (by decide) rfl rfl (by decide +kernel)

theorem assemble_followedBy_idleLines : ∃ run program run' program',
    shortSource.StopsAtEnd ∧ idleLines.filterMap Item.line? ≠ [] ∧
      assemble { memorySize := 20000, tables := false } shortSource shortSource = .ok run ∧
      run.result = .ok program ∧
      assemble { memorySize := 20000, tables := false } (shortSource.followedBy idleLines)
        (shortSource.followedBy idleLines) = .ok run' ∧
      run'.result = .ok program' ∧ program'.memory = program.memory ∧
      program'.symbols = program.symbols ∧ program'.pass1.errors = 2 ∧
      program'.pass2.errors = 2 ∧ program'.outcomes.take 3 = program.outcomes := by
  have hstops : shortSource.StopsAtEnd := ⟨shortSource.lines.dropLast, _, rfl, rfl, by decide⟩
  have htail : idleLines.filterMap Item.line? ≠ [] := by decide
  obtain ⟨run, program, hrun, hprogram, h1, h2⟩ := shortSource_assembles
  obtain ⟨run', program', hrun', hprogram', hmemory, hsymbols, -, -, -, -, -, -, herrors1, herrors2,
    hlength, rest, hrest, -⟩ := assemble_followedBy hstops hstops htail hrun hprogram
  refine ⟨run, program, run', program', hstops, htail, hrun, hprogram, hrun', hprogram', hmemory,
    hsymbols, by rw [herrors1, h1]; rfl, by rw [herrors2, h2]; rfl, ?_⟩
  rw [hrest]
  exact List.take_left' hlength

end SpsAssembler
