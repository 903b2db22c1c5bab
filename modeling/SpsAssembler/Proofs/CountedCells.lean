import SpsAssembler.Proofs.Occupancy

/-!
# Cells that the address counter gives out

In a pass without an error the counter stays in core, and only a new origin moves it back. So the
cells that it gives to one statement end before those that it gives to a later one, unless there is
an origin between them.

* `Statement.isCounted`: the counter places the statement;
* `Advances`, **`advances_of_handleLine`**: what one line does to the counter;
* `Visits.counts`, **`Visits.apart`**: a row of lines without an error;
* `CounterIn`, `Orderly`, **`counted_disjoint`**: both passes of a program.
-/

namespace SpsAssembler

open Assembly (Keeps Checked Counts)

variable {s : Statement} {p : Placement} {a b c d : Assembly} {o : Outcome} {vs ws : List Visit}

/-- The counter places the statement: an instruction, a row of addresses, or a declarative whose
address operand is blank. -/
def Statement.isCounted (s : Statement) : Bool := s.kind.takesCells && !s.isNamed

/-! ## One line -/

/-- What a line does to a counter in core: it stays there, only an origin takes it back, and a
statement that it places gets cells between where it was and where it is. -/
structure Advances (s : Statement) (p : Placement) (a b : Assembly) : Prop where
  counts : b.Counts
  ahead : s.kind ≠ .dorg → a.counter.toInt ≤ b.counter.toInt
  cells : s.isCounted = true → a.counter.toInt ≤ p.address.toInt ∧ 0 ≤ p.length.toInt ∧
    p.address.toInt + p.length.toInt = b.counter.toInt

theorem Advances.of_eq (hcounts : b.Counts) (hcounter : b.counter = a.counter)
    (hs : s.isCounted = false) : Advances s p a b where
  counts := hcounts
  ahead _ := by simp [hcounter]
  cells hcounted := by simp [hs] at hcounted

theorem Processed.advances (h : Processed s a o b) (hchecked : a.Checked)
    (hs : s.kind = .dsa → s.operands.length ≤ maxAddressOperands)
    (hcount : b.log.errorCount ≤ a.log.errorCount) (hcounts : a.Counts) :
    Advances s o.placement a b := by
  have hafter := h.counts hchecked hs hcount hcounts
  obtain ⟨hlo, hhi⟩ := hcounts
  obtain ⟨-, hmax⟩ := toInt_of_mem_memorySizes hchecked.size
  cases h.situated hchecked hs hcount with
  | nowhere _ _ hcounter htakes =>
    exact .of_eq hafter hcounter (by simp [Statement.isCounted, htakes])
  | origin _ _ _ _ hkind =>
    refine ⟨hafter, fun hne => absurd hkind hne, fun hcounted => ?_⟩
    simp [Statement.isCounted, hkind, Kind.takesCells] at hcounted
  | counted _ _ hlength haddress hcounter =>
    obtain ⟨halo, hahi⟩ := toInt_of_counted hlo (by omega) haddress
    obtain ⟨hllo, hlhi⟩ := hlength
    have hend : o.placement.address.toInt + o.placement.length.toInt = b.counter.toInt := by
      rw [hcounter, Word.toInt_add_of (by omega) (by omega)]
    exact ⟨hafter, fun _ => by omega, fun _ => ⟨halo, hllo, hend⟩⟩
  | named _ hnamed _ _ _ hcounter =>
    exact .of_eq hafter hcounter (by simp [Statement.isCounted, hnamed])
  | beside _ _ _ hcounter hnamed =>
    exact .of_eq hafter hcounter (by simp [Statement.isCounted, hnamed])

/-- **One line without an error** and the counter. -/
theorem advances_of_handleLine {line : Line} {processed : Bool}
    (h : handleLine line a = .ok (o, processed) b) (hchecked : a.Checked)
    (hcount : b.log.errorCount ≤ a.log.errorCount) (hcounts : a.Counts) :
    Advances o.statement o.placement a b := by
  have hparse := parse_leads line a
  have hcounter : (parse line (a.atLine line.number)).2.counter = a.counter :=
    (hparse.counter_eq rfl).1
  cases processed with
  | true =>
    have hadvances := (processed_of_handleLine h).advances (hchecked.parse line)
      (operands_of_handleLine h) (Nat.le_trans hcount hparse.frame.errors) (hcounts.parse line)
    exact ⟨hadvances.counts, hcounter ▸ hadvances.ahead, hcounter ▸ hadvances.cells⟩
  | false =>
    have hafter := counts_of_handleLine h hchecked hcount hcounts
    refine .of_eq hafter ?_ ?_
    · rw [← hcounter]
      cases handles_of_handleLine h <;> rfl
    · rcases kind_of_unprocessed h with hk | hk <;> simp [Statement.isCounted, hk, Kind.takesCells]

/-! ## A row of lines -/

theorem Visits.checked (h : Visits a vs b) (ha : a.Checked) : b.Checked := ha.of_keeps h.keeps

theorem Assembly.Rests.counts (h : a.Rests b) (ha : a.Counts) : b.Counts := by
  rw [h.same]
  exact ha

/-- **The counter stays in core** along a row of lines without an error, and without an origin it
does not go back. -/
theorem Visits.counts (h : Visits a vs b) (ha : a.Checked)
    (hcount : b.log.errorCount ≤ a.log.errorCount) (hcounts : a.Counts) :
    b.Counts ∧ ((∀ v ∈ vs, v.outcome.statement.kind ≠ .dorg) →
      a.counter.toInt ≤ b.counter.toInt) := by
  induction h with
  | nil hrests =>
    refine ⟨hrests.counts hcounts, fun _ => ?_⟩
    exact Int.le_of_eq (by rw [hrests.same])
  | @cons a b v vs hrests hv hvs ih =>
    have hkeeps := keeps_of_handleLine hv
    have hbefore := ha.of_keeps hrests.toKeeps
    obtain ⟨-, hthis, hrest⟩ := hrests.toKeeps.clean_parts hkeeps hvs.keeps hcount
    have hadvances := advances_of_handleLine hv hbefore hthis (hrests.counts hcounts)
    obtain ⟨hafter, hahead⟩ := ih (hbefore.of_keeps hkeeps) hrest hadvances.counts
    refine ⟨hafter, fun hno => ?_⟩
    obtain ⟨hthere, hlater⟩ := List.forall_mem_cons.mp hno
    have hsame : v.before.counter = a.counter := by rw [hrests.same]
    have hstep := hadvances.ahead hthere
    rw [hsame] at hstep
    exact Int.le_trans hstep (hahead hlater)

theorem Visits.advances {v : Visit} (h : Visits a (vs ++ v :: ws) b) (ha : a.Checked)
    (hcount : b.log.errorCount ≤ a.log.errorCount) (hcounts : a.Counts) :
    Advances v.outcome.statement v.outcome.placement v.before v.after ∧ v.after.Checked ∧
      b.log.errorCount ≤ v.after.log.errorCount := by
  obtain ⟨hvs, hv, hws⟩ := h.split
  have hkeeps := keeps_of_handleLine hv
  obtain ⟨hfirst, hthis, hrest⟩ := hvs.keeps.clean_parts hkeeps hws.keeps hcount
  have hmet := (hvs.counts ha hfirst hcounts).1
  have hbefore := hvs.checked ha
  exact ⟨advances_of_handleLine hv hbefore hthis hmet, hbefore.of_keeps hkeeps, hrest⟩

/-- **Two statements that the counter places** in a row of lines without an error, with no origin
between them. -/
theorem Visits.apart {us : List Visit} {v w : Visit} (h : Visits a (us ++ v :: (vs ++ w :: ws)) b)
    (ha : a.Checked) (hcount : b.log.errorCount ≤ a.log.errorCount) (hcounts : a.Counts)
    (hv : v.outcome.statement.isCounted = true) (hw : w.outcome.statement.isCounted = true)
    (hno : ∀ u ∈ vs, u.outcome.statement.kind ≠ .dorg) :
    v.outcome.placement.address.toInt + v.outcome.placement.length.toInt ≤
        w.outcome.placement.address.toInt ∧
      w.outcome.placement.address.toInt + w.outcome.placement.length.toInt ≤
        a.options.memorySize.toInt := by
  obtain ⟨hadvances, hchecked, herrors⟩ := h.advances ha hcount hcounts
  obtain ⟨hus, hline, hrest⟩ := h.split
  obtain ⟨hlater, -⟩ := hrest.advances hchecked herrors hadvances.counts
  obtain ⟨hbetween, hline', hend⟩ := hrest.split
  have hoptions : w.after.options = a.options := by
    rw [(keeps_of_handleLine hline').options, hbetween.keeps.options,
      (keeps_of_handleLine hline).options, hus.keeps.options]
  obtain ⟨hclean, -⟩ := hbetween.keeps.clean_parts (keeps_of_handleLine hline') hend.keeps herrors
  have hrise := (hbetween.counts hchecked hclean hadvances.counts).2 hno
  obtain ⟨-, -, hvend⟩ := hadvances.cells hv
  obtain ⟨hwstart, -, hwend⟩ := hlater.cells hw
  have hcore := hlater.counts.2
  rw [hoptions] at hcore
  omega

/-! ## Programs -/

/-- The counter has a value at some point of a pass over items: between two of them, or when it gives
cells to a statement, for which it may have been made even. -/
inductive CounterIn (items : List (Item Line)) (a : Assembly) : Word → Prop
  | between {before after : List (Item Line)} {events : List Event} {b : Assembly}
      (hitems : items = before ++ after) (hsweep : sweep 0 before a = .ok events b) :
      CounterIn items a b.counter
  | giving {before after : List (Item Line)} {line : Line} {events : List Event}
      {b c : Assembly} {o : Outcome} (hitems : items = before ++ .line line :: after)
      (hsweep : sweep 0 before a = .ok events b) (hline : handleLine line b = .ok (o, true) c)
      (hcounted : o.statement.isCounted = true) : CounterIn items a o.placement.address

/-- A pass from a state over a source: the counter never leaves core, and of two statements that it
places the first ends before the second starts, and the second in core, unless there is an origin
between them. -/
structure Orderly (size : Word) (reading : Reading Line) (a : Assembly) (events : List Event) :
    Prop where
  counter : ∀ n, CounterIn reading.items a n → 0 ≤ n.toInt ∧ n.toInt ≤ size.toInt
  apart : ∀ before p between q after,
    events.filterMap Event.placed? = before ++ p :: (between ++ q :: after) →
    p.1.isCounted = true → q.1.isCounted = true → (∀ m ∈ between, m.1.kind ≠ .dorg) →
    p.2.address.toInt + p.2.length.toInt ≤ q.2.address.toInt ∧
      q.2.address.toInt + q.2.length.toInt ≤ size.toInt

theorem sweep_append {count : Nat} {before after : List (Item Line)} {events : List Event}
    (h : sweep count (before ++ after) a = .ok events b) :
    ∃ count' es fs c, sweep count before a = .ok es c ∧ sweep count' after c = .ok fs b := by
  induction before generalizing count a events with
  | nil => exact ⟨count, [], events, a, rfl, h⟩
  | cons item before ih =>
    obtain ⟨next, first, c, rest, hitem, hrest, -⟩ := sweep_cons h
    obtain ⟨count', es, fs, d, hes, hfs⟩ := ih hrest
    exact ⟨count', _, fs, d, hitem.sweep hes, hfs⟩

theorem sweep_behind {count : Nat} {before after : List (Item Line)} {events swept : List Event}
    (h : sweep count (before ++ after) a = .ok events b)
    (hbefore : sweep count before a = .ok swept c) :
    ∃ count' fs, sweep count' after c = .ok fs b := by
  obtain ⟨count', es, fs, d, hes, hfs⟩ := sweep_append h
  rw [hbefore] at hes
  cases hes
  exact ⟨count', fs, hfs⟩

theorem visits_of_sweep_line {count : Nat} {line : Line} {after : List (Item Line)}
    {events : List Event} {processed : Bool} (h : sweep count (.line line :: after) a = .ok events b)
    (hline : handleLine line a = .ok (o, processed) c) : ∃ vs, Visits c vs b := by
  obtain ⟨next, first, d, rest, ⟨⟩ | ⟨⟩ | hfirst, hrest, -⟩ := sweep_cons h
  obtain ⟨v, -, -, hv, hidles, -⟩ := visit_of_finishLine hfirst
  rw [hline] at hv
  cases hv
  obtain ⟨vs, hvs, -⟩ := visits_of_sweep hrest
  exact ⟨vs, hvs.rests hidles.toRests⟩

/-- **The counter never leaves core** in a pass without an error. -/
theorem CounterIn.bounds {items : List (Item Line)} {events : List Event} {n : Word}
    (hn : CounterIn items a n) (h : sweep 0 items a = .ok events b) (ha : a.Checked)
    (hcounts : a.Counts) (hcount : b.log.errorCount ≤ a.log.errorCount) :
    0 ≤ n.toInt ∧ n.toInt ≤ a.options.memorySize.toInt := by
  cases hn with
  | @between before after swept c hitems hsweep =>
    subst hitems
    obtain ⟨count, fs, hfs⟩ := sweep_behind h hsweep
    obtain ⟨vs, hvs, -⟩ := visits_of_sweep hsweep
    obtain ⟨ws, hws, -⟩ := visits_of_sweep hfs
    have hrest := hws.keeps.errors
    rw [← hvs.keeps.options]
    exact (hvs.counts ha (by omega) hcounts).1
  | @giving before after line swept c d o hitems hsweep hline hcounted =>
    subst hitems
    obtain ⟨count, fs, hfs⟩ := sweep_behind h hsweep
    obtain ⟨vs, hvs, -⟩ := visits_of_sweep hsweep
    obtain ⟨ws, hws⟩ := visits_of_sweep_line hfs hline
    obtain ⟨hfirst, hthis, -⟩ :=
      hvs.keeps.clean_parts (keeps_of_handleLine hline) hws.keeps hcount
    have hmet := (hvs.counts ha hfirst hcounts).1
    have hadvances := advances_of_handleLine hline (hvs.checked ha) hthis hmet
    obtain ⟨hstart, hlength, hend⟩ := hadvances.cells hcounted
    obtain ⟨-, hcore⟩ := hadvances.counts
    rw [(keeps_of_handleLine hline).options, hvs.keeps.options] at hcore
    have hlo := hmet.1
    omega

theorem Visits.handled (h : Visits a vs b) {v : Visit} (hv : v ∈ vs) :
    handleLine v.line v.before = .ok (v.outcome, v.processed) v.after := by
  obtain ⟨before, after, rfl⟩ := List.append_of_mem hv
  exact h.split.2.1

theorem Recorded.placed {events : List Event} (h : Recorded events vs) :
    events.filterMap Event.placed? = vs.filterMap (Event.placed? ∘ Visit.event) :=
  h.filterMap fun e he => by cases e <;> first | rfl | cases he

theorem Recorded.mem_placed {events : List Event} (h : Recorded events vs) {v : Visit} (hv : v ∈ vs)
    (hprocessed : v.processed = true) :
    (v.outcome.statement, v.outcome.placement) ∈ events.filterMap Event.placed? := by
  rw [h.placed, List.mem_filterMap]
  refine ⟨v, hv, ?_⟩
  rw [Function.comp_apply, Visit.event, hprocessed]
  rfl

theorem Visit.eq_of_placed? {v : Visit} {m : Statement × Placement}
    (h : Event.placed? v.event = some m) : m = (v.outcome.statement, v.outcome.placement) := by
  unfold event at h
  cases hprocessed : v.processed with
  | true =>
    rw [hprocessed] at h
    exact (Option.some.inj h).symm
  | false =>
    rw [hprocessed] at h
    cases h

theorem Visits.kind_ne_dorg (h : Visits a vs b) {v : Visit} (hv : v ∈ vs)
    (hplaced : ∀ m, Event.placed? v.event = some m → m.1.kind ≠ .dorg) :
    v.outcome.statement.kind ≠ .dorg := by
  have hline := h.handled hv
  unfold Visit.event at hplaced
  cases hprocessed : v.processed with
  | true =>
    rw [hprocessed] at hplaced
    exact hplaced _ rfl
  | false =>
    rw [hprocessed] at hline
    rcases kind_of_unprocessed hline with hk | hk <;> rw [hk] <;> decide

theorem Recorded.apart {events : List Event} (hrec : Recorded events vs) (hvs : Visits a vs b)
    (ha : a.Checked) (hcount : b.log.errorCount ≤ a.log.errorCount) (hcounts : a.Counts)
    {before between after : List (Statement × Placement)} {p q : Statement × Placement}
    (hsplit : events.filterMap Event.placed? = before ++ p :: (between ++ q :: after))
    (hp : p.1.isCounted = true) (hq : q.1.isCounted = true)
    (hno : ∀ m ∈ between, m.1.kind ≠ .dorg) :
    p.2.address.toInt + p.2.length.toInt ≤ q.2.address.toInt ∧
      q.2.address.toInt + q.2.length.toInt ≤ a.options.memorySize.toInt := by
  rw [hrec.placed] at hsplit
  -- The lines on which the two statements were placed, and the lines between them.
  obtain ⟨us, rest, rfl, -, hrest⟩ := List.filterMap_eq_append_iff.mp hsplit
  obtain ⟨us', v, rest, rfl, -, hv, hrest⟩ := List.filterMap_eq_cons_iff.mp hrest
  obtain ⟨ms, rest, rfl, hms, hrest⟩ := List.filterMap_eq_append_iff.mp hrest
  obtain ⟨ns, w, ws, rfl, hns, hw, -⟩ := List.filterMap_eq_cons_iff.mp hrest
  have hrow : Visits a ((us ++ us') ++ v :: ((ms ++ ns) ++ w :: ws)) b := by simpa using hvs
  have hbetween : ∀ u ∈ ms ++ ns, u.outcome.statement.kind ≠ .dorg := by
    intro u hu
    refine hrow.kind_ne_dorg (List.mem_append_right _ (List.mem_cons_of_mem _
      (List.mem_append_left _ hu))) fun m hm => ?_
    rcases List.mem_append.mp hu with hu | hu
    · exact hno m (hms ▸ List.mem_filterMap.mpr ⟨u, hu, hm⟩)
    · have hnone : Event.placed? u.event = none := hns u hu
      rw [hnone] at hm
      cases hm
  rw [Visit.eq_of_placed? hv] at hp ⊢
  rw [Visit.eq_of_placed? hw] at hq ⊢
  exact hrow.apart ha hcount hcounts hp hq hbetween

theorem TwoPasses.start_ready {options : Options} {first second : Reading Line} {run : Run}
    {program : Program} (h : TwoPasses options first second run program a b c d)
    (hsize : options.memorySize ∈ memorySizes) :
    (a.reset 1).options = options ∧ (a.reset 1).Checked ∧ (a.reset 1).Counts := by
  obtain ⟨-, hstart⟩ := start_eq h.start
  have hoptions : (a.reset 1).options = options := by rw [hstart]; rfl
  refine ⟨hoptions, ⟨by rwa [hoptions], by rw [hstart]; rfl⟩, ?_⟩
  have hmin := (toInt_of_mem_memorySizes hsize).1
  unfold Assembly.Counts
  rw [hoptions]
  exact ⟨startAddress_bounds.1, Int.le_trans (by decide : startAddress.toInt ≤ 20000) hmin⟩

theorem orderly_of_runPass {reading : Reading Line} {events : List Event}
    (h : runPass reading a = .ok events b) (hfailure : reading.failure = none) (ha : a.Checked)
    (hcounts : a.Counts) (hcount : b.log.errorCount ≤ a.log.errorCount) :
    Orderly a.options.memorySize reading a events := by
  obtain ⟨vs, hvs, -, hrec⟩ := visits_of_runPass h
  obtain ⟨swept, c, hsweep, -, hrests, -⟩ := sweep_of_runPass h hfailure
  have hclosed := hrests.errors
  refine ⟨fun n hn => hn.bounds hsweep ha hcounts (by omega), ?_⟩
  intro before p between q after hsplit hp hq hno
  exact hrec.apart hvs ha hcount hcounts hsplit hp hq hno

/-- **Statements that the counter places never overlap.** In a program without an error the counter
stays between the start and the end of core at every point of either pass, and the cells of a
statement that it places end before those of every later one up to the next origin, all in core. -/
theorem counted_disjoint {options : Options} {first second : Reading Line} {run : Run}
    {program : Program} (hsize : options.memorySize ∈ memorySizes)
    (hrun : assemble options first second = .ok run) (hprogram : run.result = .ok program)
    (hok : program.ok = true) :
    ∃ a b c d, TwoPasses options first second run program a b c d ∧
      Orderly options.memorySize first (a.reset 1) run.first ∧
      Orderly options.memorySize second c run.second := by
  obtain ⟨a, b, c, d, h⟩ := twoPasses_of_assemble hrun hprogram
  obtain ⟨hclean1, hclean2⟩ := h.clean hok
  obtain ⟨hoptions1, hchecked1, hcounts1⟩ := h.start_ready hsize
  obtain ⟨hbuilding, hoptions2, hcounts2, -⟩ := building_of_beginsSecond hsize
    ⟨a, _, b, _, h.start, h.pass1, h.failure1, h.load⟩
  have hfirst := orderly_of_runPass h.pass1 h.failure1 hchecked1 hcounts1 (by omega)
  have hsecond := orderly_of_runPass h.pass2 h.failure2 hbuilding.toChecked hcounts2 (by omega)
  rw [hoptions1] at hfirst
  rw [hoptions2] at hsecond
  exact ⟨a, b, c, d, h, hfirst, hsecond⟩

/-- Whether the counter placed a statement, and its cells. -/
def countedSpan (m : Statement × Placement) : Bool × Word × Word :=
  (m.1.isCounted, m.2.address, m.2.length)

/-- Statements that the counter places behind an odd address, and one with an address operand between
them. -/
def mixedSource : Reading Line where
  items := [
    .line { number := 1, operation := ascii "DS", operands := ascii "1" },
    .line { number := 2, label := ascii "A", operation := ascii "DS", operands := ascii "5,409" },
    .line { number := 3, operation := ascii "DAC", operands := ascii "2,AB" },
    .line { number := 4, operation := ascii "DSA", operands := ascii "A" },
    .line { number := 5, operation := ascii "DEND", operands := ascii "402" }]

theorem counted_disjoint_mixedSource : ∃ run program,
    assemble { memorySize := 20000, tables := false } mixedSource mixedSource = .ok run ∧
      run.result = .ok program ∧ program.ok = true ∧
      (run.second.filterMap Event.placed?).map countedSpan =
        [(true, 402, 1), (false, 405, 5), (true, 404, 4), (true, 408, 5), (false, 402, 0)] ∧
      ∃ a b c d, TwoPasses { memorySize := 20000, tables := false } mixedSource mixedSource run
          program a b c d ∧
        Orderly 20000 mixedSource (a.reset 1) run.first ∧
        Orderly 20000 mixedSource c run.second := by
  obtain ⟨run, program, hrun, hprogram, h1, h2, hspans⟩ : ∃ run program,
      assemble { memorySize := 20000, tables := false } mixedSource mixedSource = .ok run ∧
        run.result = .ok program ∧ program.pass1.errors = 0 ∧ program.pass2.errors = 0 ∧
        (run.second.filterMap Event.placed?).map countedSpan =
          [(true, 402, 1), (false, 405, 5), (true, 404, 4), (true, 408, 5), (false, 402, 0)] := by
    exact assemble_of_afterPasses (fun _ events _ => (events.filterMap Event.placed?).map countedSpan)
      rfl (by decide) rfl rfl (by decide +kernel)
  have hok : program.ok = true := by rw [Program.ok, h1, h2]; rfl
  exact ⟨run, program, hrun, hprogram, hok, hspans,
    counted_disjoint (by decide) hrun hprogram hok⟩

end SpsAssembler
