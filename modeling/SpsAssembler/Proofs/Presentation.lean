import SpsAssembler.Proofs.Faultless
import SpsAssembler.Proofs.Twins

/-!
# Options of presentation and loading

A source makes the same program whether or not warnings are kept, whether or not the arithmetic
tables are loaded, and whether or not a program starts with a halt. Only core differs, and only
where these are loaded and no statement has stored its cells.

* `Event.unwarned?`, `SameEvents`: events that differ in warnings only;
* `Build.Matches`: steps that twin states take alike;
* `finishLine_matches`, `sweep_matches`, **`runPass_matches`**: a pass is such a step;
* `Memory.Common`, **`seed_agree`**: where low core is the same;
* **`presentation_irrelevant`**: runs of a source with different options.
-/

namespace SpsAssembler

open Assembly (Twins Tells)

/-- An outcome without its warnings. -/
def Outcome.unwarned (o : Outcome) : Outcome :=
  { o with diagnostics := o.diagnostics.filter Diagnostic.isError }

/-- An event without its warnings; nothing is left of a warning. -/
def Event.unwarned? : Event → Option Event
  | opened file name => some (.opened file name)
  | raised d => if d.isError then some (.raised d) else none
  | finished o processed => some (.finished o.unwarned processed)

/-- The errors of a pass, in the order in which they were raised. -/
def errorsOf (events : List Event) : List (Diagnostic Cause) :=
  (events.filterMap Event.diagnostic?).filter Diagnostic.isError

/-- Events that differ in warnings only. -/
def SameEvents (es fs : List Event) : Prop :=
  fs.filterMap Event.unwarned? = es.filterMap Event.unwarned?

namespace SameEvents

variable {es fs es' fs' : List Event}

theorem append (h : SameEvents es fs) (h' : SameEvents es' fs') :
    SameEvents (es ++ es') (fs ++ fs') := by
  unfold SameEvents at h h' ⊢
  rw [List.filterMap_append, List.filterMap_append, h, h']

theorem filterMap_eq {γ : Type} (h : SameEvents es fs) {f g : Event → Option γ}
    (hf : ∀ e, f e = e.unwarned?.bind g) : fs.filterMap f = es.filterMap f := by
  have hread : ∀ events : List Event,
      events.filterMap f = (events.filterMap Event.unwarned?).filterMap g := by
    intro events
    rw [List.filterMap_filterMap]
    congr 1
    funext e
    exact hf e
  rw [hread, hread, h]

theorem spans_eq (h : SameEvents es fs) :
    fs.filterMap Event.span? = es.filterMap Event.span? := by
  refine h.filterMap_eq (g := Event.span?) fun e => ?_
  cases e with
  | opened file name => rfl
  | finished o processed => rfl
  | raised d => by_cases hd : d.isError = true <;> simp [Event.unwarned?, Event.span?, hd]

theorem outcomes_eq (h : SameEvents es fs) :
    (fs.filterMap Event.outcome?).map Outcome.unwarned =
      (es.filterMap Event.outcome?).map Outcome.unwarned := by
  rw [List.map_filterMap, List.map_filterMap]
  refine h.filterMap_eq (g := Event.outcome?) fun e => ?_
  cases e with
  | opened file name => rfl
  | finished o processed => rfl
  | raised d => by_cases hd : d.isError = true <;> simp [Event.unwarned?, Event.outcome?, hd]

theorem errorsOf_eq (h : SameEvents es fs) : errorsOf fs = errorsOf es := by
  unfold errorsOf
  rw [← List.filterMap_eq_filter, List.filterMap_filterMap, List.filterMap_filterMap]
  refine h.filterMap_eq (g := Event.diagnostic?) fun e => ?_
  cases e with
  | opened file name => rfl
  | finished o processed => rfl
  | raised d =>
    by_cases hd : d.isError = true <;> simp [Event.unwarned?, Event.diagnostic?, hd]

theorem raised {ds ds' : List (Diagnostic Cause)}
    (h : ds'.filter Diagnostic.isError = ds.filter Diagnostic.isError) :
    SameEvents (ds.map .raised) (ds'.map .raised) := by
  have hkept : ∀ ds : List (Diagnostic Cause), (ds.map Event.raised).filterMap Event.unwarned? =
      (ds.filter Diagnostic.isError).map Event.raised := by
    intro ds
    induction ds with
    | nil => rfl
    | cons d ds ih =>
      rw [List.map_cons, List.filterMap_cons, ih, Event.unwarned?]
      by_cases hd : d.isError = true <;> simp [hd]
  unfold SameEvents
  rw [hkept, hkept, h]

end SameEvents

/-! ## Steps of twin states -/

/-- The agreed places, and those where statements among the events have stored their cells. -/
def agreedAfter (size : Nat) (agreed : Nat → Prop) (events : List Event) (i : Nat) : Prop :=
  agreed i ∨ ∃ o ∈ events.filterMap Event.outcome?, o.Stores size i

theorem outcomes_raised (ds : List (Diagnostic Cause)) :
    (ds.map Event.raised).filterMap Event.outcome? = [] := by
  rw [List.filterMap_map, List.filterMap_eq_nil_iff]
  intro d _
  rfl

theorem agreedAfter_finished {size : Nat} {agreed : Nat → Prop} {ds : List (Diagnostic Cause)}
    {o : Outcome} {processed : Bool} {i : Nat} :
    agreedAfter size agreed (ds.map .raised ++ [.finished o processed]) i ↔
      agreed i ∨ o.Stores size i := by
  unfold agreedAfter
  rw [List.filterMap_append, outcomes_raised]
  simp [Event.outcome?]

/-- What the step does in a state it does in every twin of it, with events that differ in warnings
only. -/
def Build.Matches (x : Build (List Event)) : Prop :=
  ∀ size agreed a b es a', Twins size agreed a b → x a = .ok es a' →
    ∃ fs b', x b = .ok fs b' ∧ SameEvents es fs ∧ Twins size (agreedAfter size agreed es) a' b'

namespace Build.Matches

variable {x y : Build (List Event)}

/-- A step from which nothing comes but files and messages. -/
theorem of_twins {R : Assembly → List Event × Assembly} (hx : ∀ a, x a = .ok (R a).1 (R a).2)
    (hR : ∀ size agreed a b, Twins size agreed a b → SameEvents (R a).1 (R b).1 ∧
      Twins size agreed (R a).2 (R b).2) (hnone : ∀ a, (R a).1.filterMap Event.outcome? = []) :
    Build.Matches x := by
  intro size agreed a b es a' h hok
  rw [hx] at hok
  cases hok
  obtain ⟨hsame, htwins⟩ := hR size agreed a b h
  refine ⟨_, _, hx b, hsame, htwins.mono fun i hi => hi.resolve_right ?_⟩
  rintro ⟨o, ho, -⟩
  rw [hnone] at ho
  cases ho

theorem silent (events : List Event) (h : events.filterMap Event.outcome? = []) :
    Build.Matches (pure events) :=
  of_twins (R := fun a => (events, a)) (fun _ => rfl) (fun _ _ _ _ htwins => ⟨rfl, htwins⟩)
    fun _ => h

theorem append (hx : Build.Matches x) (hy : Build.Matches y) :
    Build.Matches (do let es ← x; let fs ← y; pure (es ++ fs)) := by
  intro size agreed a b es a' h hok
  obtain ⟨es, c, hxa, hok⟩ := Build.ok_of_bind_ok hok
  obtain ⟨es', d, hya, hok⟩ := Build.ok_of_bind_ok hok
  cases hok
  obtain ⟨fs, c', hxb, hsame, hc⟩ := hx _ _ _ _ _ _ h hxa
  obtain ⟨fs', d', hyb, hsame', hd⟩ := hy _ _ _ _ _ _ hc hya
  refine ⟨fs ++ fs', d', by rw [Build.bind_ok hxb, Build.bind_ok hyb]; rfl, hsame.append hsame',
    hd.mono fun i hi => ?_⟩
  rcases hi with hi | ⟨o, ho, hstores⟩
  · exact .inl (.inl hi)
  · rw [List.filterMap_append, List.mem_append] at ho
    rcases ho with ho | ho
    · exact .inl (.inr ⟨o, ho, hstores⟩)
    · exact .inr ⟨o, ho, hstores⟩

end Build.Matches

variable {size : Nat} {agreed : Nat → Prop} {a b c d : Assembly}

/-- The errors raised between two states are the same if the pending ones are. -/
theorem raised_eq (hac : Tells a c) (hbd : Tells b d) (hbefore : b.log.errors = a.log.errors)
    (hafter : d.log.errors = c.log.errors) :
    (d.log.pending.drop b.log.pending.length).filter Diagnostic.isError =
      (c.log.pending.drop a.log.pending.length).filter Diagnostic.isError := by
  obtain ⟨ds, hds⟩ := hac
  obtain ⟨es, hes⟩ := hbd
  unfold Log.errors at hbefore hafter
  rw [← hds, ← hes, List.filter_append, List.filter_append, hbefore] at hafter
  rw [← hds, ← hes, List.drop_left, List.drop_left]
  exact List.append_cancel_left hafter

theorem announceError_matches (line : Word) (cause : Cause) :
    Build.Matches (announceError line cause) := by
  refine .of_twins (R := fun a =>
    ((((a.atLine line).raise [error cause]).log.pending.drop a.log.pending.length).map .raised,
      (a.atLine line).raise [error cause])) (fun _ => rfl) (fun size agreed a b h => ?_) fun a => ?_
  · have hraised := (h.atLine line).raise [error cause]
    refine ⟨.raised ?_, hraised⟩
    exact raised_eq (a := a.atLine line) (b := b.atLine line) (.raise _ _) (.raise _ _)
      h.log.errors hraised.log.errors
  · exact outcomes_raised _

theorem Assembly.Twins.take (h : Twins size agreed a b) : Twins size agreed
    { a with log := { a.log with pending := [] } } { b with log := { b.log with pending := [] } } :=
  { h with log := { h.log with errors := rfl } }

theorem finishLine_matches (line : Line) : Build.Matches (finishLine line) := by
  intro size agreed a b es a' h hok
  obtain ⟨o, processed, c, hline, hfault, rfl, rfl⟩ := finishLine_cases hok
  obtain ⟨d, hline', htwins⟩ := handleLine_twins h hline
  refine ⟨_, _, finishLine_of_handleLine hline' (htwins.fault.trans hfault), .append (.raised ?_) ?_, ?_⟩
  · exact raised_eq (tells_of_handleLine hline) (tells_of_handleLine hline') h.log.errors
      htwins.log.errors
  · have herrors := htwins.log.errors
    unfold Log.errors at herrors
    simp [SameEvents, Event.unwarned?, Outcome.unwarned, herrors]
  · refine htwins.take.mono fun i hi => ?_
    rw [agreedAfter_finished] at hi
    exact hi

theorem sweep_matches (items : List (Item Line)) (count : Nat) :
    Build.Matches (sweep count items) := by
  induction items generalizing count with
  | nil => exact .silent [] rfl
  | cons item items ih =>
    cases item with
    | opened file name => exact .append (.silent [.opened file name] rfl) (ih count)
    | unreadable name reason =>
      exact .append (announceError_matches (Int64.ofNat count) (.unreadable reason)) (ih count)
    | line line => exact .append (finishLine_matches line) (ih (count + 1))

theorem closePass_matches : Build.Matches closePass := by
  intro size agreed a b es a' h hok
  unfold closePass at hok ⊢
  rw [Build.get_bind] at hok ⊢
  rw [h.ending]
  by_cases hrunning : a.ending = .running
  · rw [if_pos (by simp [hrunning])] at hok ⊢
    exact announceError_matches 0 .missingEnd _ _ _ _ _ _ h hok
  · rw [if_neg (by simp [hrunning])] at hok ⊢
    exact Build.Matches.silent [] rfl _ _ _ _ _ _ h hok

/-- **A pass** goes alike from twin states. -/
theorem runPass_matches {reading : Reading Line} (hfailure : reading.failure = none) :
    Build.Matches (runPass reading) := by
  have happend := (sweep_matches reading.items 0).append closePass_matches
  unfold runPass
  simp only [hfailure]
  exact happend

/-! ## Low core -/

namespace Memory

variable {m n : Memory}

/-- The places where low core does not depend on what is loaded: not those of the second start
instruction, and not those of the tables. -/
def Common (i : Nat) : Prop := (i < 12 ∨ 23 < i) ∧ (i < 100 ∨ 400 < i)

theorem Agree.refl (m : Memory) (agreed : Nat → Prop) : Agree m.cells.size agreed m m :=
  ⟨rfl, rfl, fun _ _ => rfl⟩

theorem Agree.symm (h : Agree size agreed m n) : Agree size agreed n m :=
  ⟨h.right, h.left, fun i hi => (h.cells i hi).symm⟩

theorem Agree.place (h : Agree size agreed m n) (k : Nat) (v : Value) :
    Agree size agreed (m.place k v) (n.place k v) where
  left := by rw [size_place, h.left]
  right := by rw [size_place, h.right]
  cells i hi := by
    unfold Memory.place
    rw [h.left, h.right]
    split
    · exact write_agree (by rw [h.left, h.right]) (.inl (h.cells i hi))
    · exact h.cells i hi

theorem getElem?_write_of_outside {cells : Array Cell} {k i : Nat} {v : Value}
    (h : i < k ∨ k + v.length ≤ i) : (write cells k v)[i]? = cells[i]? := by
  induction v generalizing cells k with
  | nil => rfl
  | cons c v ih =>
    rw [List.length_cons] at h
    rw [write, ih (by omega), Array.getElem?_setIfInBounds_ne (by omega)]

theorem Agree.place_left (h : Agree size agreed m n) {k : Nat} {v : Value}
    (hk : ∀ i, agreed i → i < k ∨ k + v.length ≤ i) : Agree size agreed (m.place k v) n where
  left := by rw [size_place, h.left]
  right := h.right
  cells i hi := by
    unfold Memory.place
    split
    · exact (h.cells i hi).trans (getElem?_write_of_outside (hk i hi)).symm
    · exact h.cells i hi

theorem Agree.placeTables_left (h : Agree size Common m n) (tables addInCore : Bool) :
    Agree size Common (if tables then m.placeTables addInCore else m) n := by
  have hproducts : multiplyTable.length = 200 := by decide +kernel
  have hsums : addTable.length = 100 := by decide +kernel
  have hmultiply : Agree size Common (m.place 100 multiplyTable) n := by
    refine h.place_left fun i hi => ?_
    unfold Common at hi
    omega
  unfold placeTables
  split
  · refine Agree.place_left ?_ fun i hi => ?_
    · split
      · refine hmultiply.place_left fun i hi => ?_
        unfold Common at hi
        omega
      · exact hmultiply
    · unfold Common at hi
      simp only [List.length_cons, List.length_nil]
      omega
  · exact h

/-- **Low core** is the same where it does not depend on what is loaded. -/
theorem seed_agree (m : Memory) (entry : Word) (halt tables halt' tables' addInCore : Bool) :
    Agree m.cells.size Common (m.seed entry halt tables addInCore)
      (m.seed entry halt' tables' addInCore) := by
  have hfirst := (Agree.refl m Common).place 0 (bareInstruction 41)
  have hsecond : ∀ code i, Common i → i < 12 ∨ 12 + (bareInstruction code).length ≤ i := by
    intro code i hi
    rw [length_bareInstruction]
    unfold Common at hi
    omega
  have hstart := (((hfirst.place_left (hsecond (if halt then 48 else 41))).symm.place_left
    (hsecond (if halt' then 48 else 41))).symm).place 24
      ((bareInstruction 49).setField Field.p 5 false entry)
  exact ((hstart.placeTables_left tables addInCore).symm.placeTables_left tables' addInCore).symm

end Memory

theorem Assembly.Twins.reset (h : Twins size agreed a b) (pass : Word) :
    Twins size agreed (a.reset pass) (b.reset pass) where
  model := h.model
  memorySize := h.memorySize
  log := ⟨h.log.muted, rfl, rfl, rfl⟩
  symbols := h.symbols
  memory := h.memory
  counter := rfl
  last := rfl
  head := rfl
  ending := rfl
  entry := h.entry
  fault := h.fault

theorem Assembly.Twins.loaded (h : Twins size agreed a b) :
    Twins size Memory.Common a.loaded b.loaded := by
  have hclear : b.memory.clear = a.memory.clear := by
    unfold Memory.clear
    rw [h.memory.left, h.memory.right]
  have hsize : a.memory.clear.cells.size = size := by
    unfold Memory.clear
    rw [Array.size_replicate, h.memory.left]
  have hseed := Memory.seed_agree a.memory.clear a.entry a.options.halt a.options.tables
    b.options.halt b.options.tables (a.options.model == .one)
  refine { h with memory := ?_ }
  unfold Assembly.loaded
  rw [hclear, h.entry, h.model]
  exact hsize ▸ hseed

/-! ## Runs -/

theorem start_twins {options : Options} (h : Assembly.start options = .ok a)
    (warnings tables halt : Bool) :
    ∃ b, Assembly.start { options with warnings, tables, halt } = .ok b ∧
      Twins a.memory.cells.size (fun _ => True) a b := by
  obtain ⟨hblank, ha⟩ := start_eq h
  refine ⟨_, by unfold Assembly.start; rw [hblank], ?_⟩
  rw [ha]
  exact ⟨rfl, rfl, ⟨rfl, rfl, rfl, rfl⟩, rfl, .refl a.memory _, rfl, rfl, rfl, rfl, rfl, rfl⟩

/-- **Presentation and loading do not change a program.** With other options for warnings, tables
and the halt, a source makes the same layouts, symbols and entry; its statements have the same
places and cells, and each pass raises the same errors in the same order. Core is the same outside
of what these options load, and wherever a statement has stored its cells. -/
theorem presentation_irrelevant {options : Options} {first second : Reading Line} {run : Run}
    {program : Program} (warnings tables halt : Bool)
    (hrun : assemble options first second = .ok run) (hprogram : run.result = .ok program) :
    ∃ run' program',
      assemble { options with warnings, tables, halt } first second = .ok run' ∧
      run'.result = .ok program' ∧
      program'.layout1 = program.layout1 ∧ program'.layout2 = program.layout2 ∧
      program'.symbols = program.symbols ∧ program'.entry = program.entry ∧
      program'.outcomes.map Outcome.unwarned = program.outcomes.map Outcome.unwarned ∧
      errorsOf run'.first = errorsOf run.first ∧ errorsOf run'.second = errorsOf run.second ∧
      ∀ i, (((i < 12 ∨ 23 < i) ∧ (i < 100 ∨ 400 < i)) ∨
          ∃ o ∈ program.outcomes, o.Stores program.memory.cells.size i) →
        program'.memory.cells[i]? = program.memory.cells[i]? := by
  obtain ⟨a, b, c, d, h⟩ := twoPasses_of_assemble hrun hprogram
  obtain ⟨a', hstart, hbegin⟩ := start_twins h.start warnings tables halt
  obtain ⟨fs, b', hpass1, hsame1, hmiddle⟩ :=
    runPass_matches h.failure1 _ _ _ _ _ _ (hbegin.reset 1) h.pass1
  have hready := hmiddle.reset 2
  have hsize := size_of_load h.load
  rw [hready.memory.left, ← hready.memory.right] at hsize
  have hpass2 := h.pass2
  rw [(load_eq h.load).1] at hpass2
  obtain ⟨gs, d', hpass2', hsame2, hend⟩ :=
    runPass_matches h.failure2 _ _ _ _ _ _ hready.loaded hpass2
  obtain ⟨run', program', hrun', hprogram', hfs, hgs, -, h'⟩ :=
    assemble_of_passes hstart hpass1 h.failure1 (load_of_size hsize) hpass2' h.failure2
  refine ⟨run', program', hrun', hprogram', ?_⟩
  rw [h'.program_eq, h.program_eq, hfs, hgs]
  dsimp only
  refine ⟨hsame1.spans_eq, hsame2.spans_eq, hend.symbols, hend.entry, hsame2.outcomes_eq,
    hsame1.errorsOf_eq, hsame2.errorsOf_eq, fun i hi => hend.memory.cells i ?_⟩
  rw [hend.memory.left] at hi
  exact hi

/-- A source with a constant among the tables, a name that is not defined and a label that is not
expected. -/
def overlaidSource : Reading Line where
  items := [
    .line { number := 1, label := ascii "A", operation := ascii "DC", operands := ascii "3,1,300" },
    .line { number := 2, operation := ascii "B", operands := ascii "THERE" },
    .line { number := 3, label := ascii "END", operation := ascii "DEND", operands := ascii "402" }]

theorem overlaidSource_assembles : ∃ run program,
    assemble { memorySize := 20000, tables := false } overlaidSource overlaidSource = .ok run ∧
      run.result = .ok program ∧ program.pass1.errors = 0 ∧ program.pass2.errors = 1 := by
  exact assemble_of_errorCounts rfl (by decide) rfl rfl (by decide +kernel)

theorem presentation_irrelevant_overlaidSource : ∃ run program run' program',
    assemble { memorySize := 20000, tables := false } overlaidSource overlaidSource = .ok run ∧
      run.result = .ok program ∧ program.pass2.errors = 1 ∧
      assemble { memorySize := 20000, warnings := false, halt := false }
        overlaidSource overlaidSource = .ok run' ∧
      run'.result = .ok program' ∧ program'.layout2 = program.layout2 ∧
      program'.symbols = program.symbols ∧ errorsOf run'.second = errorsOf run.second ∧
      program'.memory.cells[402]? = program.memory.cells[402]? := by
  obtain ⟨run, program, hrun, hprogram, -, herrors⟩ := overlaidSource_assembles
  obtain ⟨run', program', hrun', hprogram', -, hlayout, hsymbols, -, -, -, hsame, hcells⟩ :=
    presentation_irrelevant false true false hrun hprogram
  exact ⟨run, program, run', program', hrun, hprogram, herrors, hrun', hprogram', hlayout, hsymbols,
    hsame, hcells 402 (.inl (by decide))⟩

end SpsAssembler
