import SpsAssembler.Proofs.Faultless
import SpsAssembler.Proofs.LegalStatements

/-!
# Every assembled cell is legal

The start instructions, the tables and the statements of a program put legal cells into core, and
every line of a pass keeps them legal. Only an operand without a magnitude breaks this, and there
is one that is neither the least nor the greatest word.

* **`RunSpills`**: a run puts a number without a magnitude into core;
* **`sweep_induction`**: what every line of a pass keeps;
* **`assemble_isLegal`**: core behind a run;
* **`startup_illegal_of_negativeEntry`**: an entry that the check of even addresses misses.
-/

namespace SpsAssembler

variable {s : Statement} {p : Placement} {a b : Assembly}

/-! ## Runs that spill -/

/-- The statement of a line does so. -/
def Assembly.Spills (a : Assembly) (line : Line) : Prop :=
  let s := (parse line (a.atLine line.number)).1
  let laid := layOut s (parse line (a.atLine line.number)).2
  s.Spills laid.1 laid.2

/-- A pass processes such a line. -/
def PassSpills (reading : Reading Line) (a : Assembly) : Prop :=
  ∃ before line after events b o c, reading.items = before ++ .line line :: after ∧
    sweep 0 before a = .ok events b ∧ handleLine line b = .ok (o, true) c ∧ b.Spills line

/-- One of the passes of a run does so. -/
def RunSpills (options : Options) (first second : Reading Line) : Prop :=
  ∃ a, Assembly.start options = .ok a ∧ (PassSpills first (a.reset 1) ∨
    ∃ events b c startup, runPass first (a.reset 1) = .ok events b ∧
      (b.reset 2).load = .ok (c, startup) ∧ PassSpills second c)

/-! ## One line -/

theorem isLegal_of_store {address : Word} {v : Value} (h : store address v a = .ok () b)
    (hv : v.IsLegal) (ha : a.memory.IsLegal) : b.memory.IsLegal := by
  rcases store_cases h with ⟨-, rfl⟩ | ⟨-, rfl⟩
  · exact ha
  · exact ha.written hv address

theorem Processed.isLegal {o : Outcome} (h : Processed s a o b)
    (hshort : s.descriptor.isShort = true)
    (hspills : ¬ s.Spills (layOut s a).1 (layOut s a).2) (ha : a.memory.IsLegal) :
    b.memory.IsLegal := by
  have hlaid : (layOut s a).2.memory.IsLegal := (layOut_memory s a).symm ▸ ha
  rcases h.core with ⟨-, -, rfl⟩ | ⟨hemitting, c, hc, hs⟩
  · exact hlaid
  · rw [h.placement] at hc
    have hmemory : c.memory.IsLegal := (encode_leads hc).frame.memory.symm ▸ hlaid
    exact isLegal_of_store hs (isLegal_of_encode hc hemitting hshort hspills) hmemory

theorem placeEnd_entry_ne (h : ∀ v ∈ evenValue? s (placeEnd s a).2, ¬ Check.SpillsEven v)
    (hkind : s.kind = .dend) : (placeEnd s a).2.entry ≠ Int64.minValue := by
  obtain ⟨c, hc⟩ : ∃ c, (placeEnd s a).2 =
      { (evaluateLayout (s.operand 0) .addressEven c).2 with
        entry := (evaluateLayout (s.operand 0) .addressEven c).1 } := ⟨_, rfl⟩
  have hleads : Leads .still c (evaluateLayout (s.operand 0) .addressEven c).2 :=
    evaluateLayout_within c
  rw [hc] at h ⊢
  unfold evenValue? at h
  rw [hkind] at h
  refine evaluateEven_yields (fun v hv => h v ?_) c .refl
  rw [← hleads.layoutValue_eq] at hv
  exact hv

theorem Processed.entry_ne {o : Outcome} (h : Processed s a o b)
    (hspills : ¬ s.Spills (layOut s a).1 (layOut s a).2) (ha : a.entry ≠ Int64.minValue) :
    b.entry ≠ Int64.minValue := by
  have hregisters := h.registers_eq
  simp only [Assembly.registers, Prod.mk.injEq] at hregisters
  rw [hregisters.2.2.2.2]
  by_cases hkind : s.kind = .dend
  · have hplace : place s a = placeEnd s a := by rw [place, hkind]
    have hlaid : (layOut s a).2 = (placeEnd s a).2 := by
      rw [layOut_apply, beforeLabel, hplace, hkind]
      rfl
    rw [hplace]
    refine placeEnd_entry_ne (fun v hv hspill => hspills (.inr ⟨v, ?_, hspill⟩)) hkind
    rwa [hlaid]
  · have hreach : s.kind.reach.ends = false := by
      cases hk : s.kind <;> first | rfl | exact absurd hk hkind
    rwa [((place_within s a).entry_eq hreach).2]

/-! ## A pass -/

/-- **What every line of a pass keeps**, and every message between them, the pass keeps. -/
theorem sweep_induction {P : Assembly → Prop} (hrests : ∀ a b, a.Rests b → P a → P b)
    {items : List (Item Line)} {count : Nat} {events : List Event}
    (hline : ∀ before line after swept c o processed d, items = before ++ .line line :: after →
      sweep count before a = .ok swept c → handleLine line c = .ok (o, processed) d → P c → P d)
    (h : sweep count items a = .ok events b) (ha : P a) : P b := by
  induction items generalizing count a events with
  | nil =>
    cases h
    exact ha
  | cons item items ih =>
    obtain ⟨next, es, e, fs, hitem, hrest, rfl⟩ := sweep_cons h
    have he : P e := by
      cases hitem with
      | opened file name => exact ha
      | unreadable name hfirst => exact hrests a e (rests_of_announceError rfl hfirst).1 ha
      | line hfirst =>
        obtain ⟨v, rfl, rfl, hv, hidles, -⟩ := visit_of_finishLine hfirst
        have hafter := hline [] v.line items [] v.before v.outcome v.processed v.after rfl rfl hv ha
        exact hrests v.after e hidles.toRests hafter
    refine ih (fun before line after swept c o processed d hsplit hsweep => ?_) hrest he
    exact hline (item :: before) line after _ c o processed d (by rw [hsplit]; rfl)
      (hitem.sweep hsweep)

theorem entry_ne_of_handleLine {line : Line} {o : Outcome} {processed : Bool}
    (h : handleLine line a = .ok (o, processed) b) (hspills : processed = true → ¬ a.Spills line)
    (ha : a.entry ≠ Int64.minValue) : b.entry ≠ Int64.minValue := by
  have hparsed : (parse line (a.atLine line.number)).2.entry ≠ Int64.minValue := by
    rwa [((parse_leads line a).entry_eq rfl).2]
  cases handles_of_handleLine h with
  | processed _ _ hp => exact (processed_of_process hp).entry_ne (hspills rfl) hparsed
  | _ => exact hparsed

theorem isLegal_of_handleLine {line : Line} {o : Outcome} {processed : Bool}
    (h : handleLine line a = .ok (o, processed) b) (hspills : processed = true → ¬ a.Spills line)
    (ha : a.memory.IsLegal) : b.memory.IsLegal := by
  have hparsed : (parse line (a.atLine line.number)).2.memory.IsLegal := by
    rw [(parse_leads line a).frame.memory]
    exact ha
  cases handles_of_handleLine h with
  | processed _ _ hp =>
    exact (processed_of_process hp).isLegal (parse_isShort line _) (hspills rfl) hparsed
  | _ => exact hparsed

/-- A pass that reads its source to the end keeps what its lines keep that do not spill. -/
theorem runPass_induction {P : Assembly → Prop} (hrests : ∀ a b, a.Rests b → P a → P b)
    (hline : ∀ line c o processed d, handleLine line c = .ok (o, processed) d →
      (processed = true → ¬ c.Spills line) → P c → P d)
    {reading : Reading Line} {events : List Event} (h : runPass reading a = .ok events b)
    (hfailure : reading.failure = none) (hspills : ¬ PassSpills reading a) (ha : P a) : P b := by
  obtain ⟨swept, c, hsweep, -, hc, -⟩ := sweep_of_runPass h hfailure
  refine hrests c b hc (sweep_induction hrests ?_ hsweep ha)
  intro before line after swept c o processed d hsplit hswept hd
  refine hline line c o processed d hd fun hprocessed hspill => hspills ?_
  subst hprocessed
  exact ⟨before, line, after, swept, c, o, d, hsplit, hswept, hd, hspill⟩

/-! ## A run -/

/-- **Every cell of core is legal** behind a run, with or without errors, that leaves no operand
without a magnitude. -/
theorem assemble_isLegal {options : Options} {first second : Reading Line} {run : Run}
    {program : Program} (h : assemble options first second = .ok run)
    (hprogram : run.result = .ok program) (hspills : ¬ RunSpills options first second) :
    ∀ c ∈ program.memory.cells.toList, c.isLegal = true := by
  obtain ⟨a, b, c, d, htwo⟩ := twoPasses_of_assemble h hprogram
  obtain ⟨-, hstart⟩ := start_eq htwo.start
  have hfirst : ¬ PassSpills first (a.reset 1) := fun hpass =>
    hspills ⟨a, htwo.start, .inl hpass⟩
  have hsecond : ¬ PassSpills second c := fun hpass =>
    hspills ⟨a, htwo.start, .inr ⟨_, b, c, _, htwo.pass1, htwo.load, hpass⟩⟩
  have hentry : b.entry ≠ Int64.minValue := by
    refine runPass_induction (P := fun a => a.entry ≠ Int64.minValue) (fun a b hab ha => ?_)
      (fun line c o processed d => entry_ne_of_handleLine) htwo.pass1 htwo.failure1 hfirst ?_
    · rwa [hab.same]
    · rw [hstart]
      exact (by decide : (0 : Word) ≠ Int64.minValue)
  have hloaded : c.memory.IsLegal := by
    rw [(load_eq htwo.load).1]
    exact (Memory.isLegal_replicate _).seed hentry _ _ _
  have hmemory : d.memory.IsLegal := by
    refine runPass_induction (P := fun a => a.memory.IsLegal) (fun a b hab ha => ?_)
      (fun line c o processed d => isLegal_of_handleLine) htwo.pass2 htwo.failure2 hsecond hloaded
    rwa [hab.same]
  rw [htwo.program_eq]
  exact hmemory

/-! ## The least and the greatest words -/

/-- What becomes of a line: nothing is known of it, it is a comment, or its operation is listed. -/
theorem parse_found (line : Line) (a : Assembly) : (parse line a).1.kind = .unknown ∨
    (parse line a).1.kind = .comment ∨ ∃ d c, Descriptor.find? line.operation = some d ∧
      (parse line a).1 =
        { line, descriptor := d, operands := (splitOperands d line.operands c).1 } := by
  rw [parse_apply]
  split_ifs
  · exact .inl rfl
  · exact .inl rfl
  · exact .inr (.inl rfl)
  · exact .inl rfl
  · cases hd : Descriptor.find? line.operation with
    | none => exact .inl rfl
    | some d => exact .inr (.inr ⟨d, _, rfl, rfl⟩)

theorem rawValue_literal {operand term : Text} {op : Operator} {n : Word}
    (hblank : operand.isBlank = false)
    (hread : ∀ divide, (Expression.read divide operand).terms = [(op, term)] ∧
      (Expression.read divide operand).dangling = false ∧
      Term.read? divide term = some (.literal n))
    (scope : Scope) (usage : Usage) (table : SymbolTable) :
    rawValue scope usage table operand = total [(op, n)] := by
  obtain ⟨hterms, hdangling, hterm⟩ := hread table.divide
  unfold rawValue
  dsimp only
  rw [hblank, hdangling, hterms]
  simp [chainOf, hterm, Term.value]

theorem Statement.Spills.kind (h : s.Spills p a) :
    s.kind ∈ [.dsa, .dda, .dvlc, .instruction, .dend] := by
  unfold Statement.Spills writtenValues evenValue? at h
  cases hk : s.kind <;> simp_all

/-- Constants that end with a record mark, and an entry that is out of range by as much as it may be
without an end in the least word. -/
def markedSource : Reading Line where
  items := [
    .line { number := 1, operation := ascii "DC", operands := ascii "1,@" },
    .line { number := 2, operation := ascii "DAC", operands := ascii "2,A@" },
    .line { number := 3, operation := ascii "DEND", operands := ascii "-9223372036854775806" }]

theorem markedSource_not_spills {line : Line} (h : line ∈ markedSource.lines) (a : Assembly) :
    ¬ a.Spills line := by
  intro hspills
  have hkinds : ∀ l ∈ markedSource.lines, ∀ d, Descriptor.find? l.operation = some d →
      d.kind = .dc ∨ d.kind = .dac ∨
        (d.kind = .dend ∧ splitFixed d.operands l.operands = [ascii "-9223372036854775806"]) := by
    decide +kernel
  have hread : ∀ divide, (Expression.read divide (ascii "-9223372036854775806")).terms =
        [(.sub, ascii "9223372036854775806")] ∧
      (Expression.read divide (ascii "-9223372036854775806")).dangling = false ∧
      Term.read? divide (ascii "9223372036854775806") = some (.literal 9223372036854775806) := by
    decide +kernel
  unfold Assembly.Spills at hspills
  dsimp only at hspills
  generalize layOut _ _ = laid at hspills
  rcases parse_found line (a.atLine line.number) with hk | hk | ⟨d, c, hd, hs⟩
  · have hmember := hspills.kind
    rw [hk] at hmember
    revert hmember
    decide
  · have hmember := hspills.kind
    rw [hk] at hmember
    revert hmember
    decide
  · rw [hs] at hspills
    have hmember : d.kind ∈ _ := hspills.kind
    rcases hkinds line h d hd with hk | hk | ⟨hk, hoperands⟩
    · rw [hk] at hmember
      revert hmember
      decide
    · rw [hk] at hmember
      revert hmember
      decide
    · have hsplit : (splitOperands d line.operands c).1 = [ascii "-9223372036854775806"] := by
        rw [splitOperands, hk]
        exact hoperands
      rw [hsplit] at hspills
      have hvalue : laid.2.layoutValue (ascii "-9223372036854775806") =
          some (-9223372036854775806) := rawValue_literal (by decide) hread ..
      rcases hspills with ⟨-, hmem⟩ | ⟨v, hv, hspill⟩
      · simp [writtenValues, Statement.kind, hk] at hmem
      · have heven : laid.2.layoutValue (ascii "-9223372036854775806") = some v := by
          simpa [evenValue?, Statement.kind, hk, Statement.operand] using hv
        rw [hvalue] at heven
        cases heven
        revert hspill
        unfold Check.SpillsEven
        decide

theorem assemble_isLegal_markedSource : ∃ run program,
    assemble { memorySize := 20000, tables := false } markedSource markedSource = .ok run ∧
      run.result = .ok program ∧
      ¬ RunSpills { memorySize := 20000, tables := false } markedSource markedSource ∧
      ∀ c ∈ program.memory.cells.toList, c.isLegal = true := by
  obtain ⟨run, program, hrun, hprogram, -⟩ : ∃ run program,
      assemble { memorySize := 20000, tables := false } markedSource markedSource = .ok run ∧
        run.result = .ok program ∧ program.pass1.errors = 2 ∧ program.pass2.errors = 2 := by
    exact assemble_of_errorCounts rfl (by decide) rfl rfl (by decide +kernel)
  have hpass : ∀ a, ¬ PassSpills markedSource a := by
    rintro a ⟨before, line, after, events, b, o, c, hsplit, -, -, hspills⟩
    have hline : line ∈ markedSource.items.filterMap Item.line? := by
      rw [hsplit]
      simp [Item.line?]
    exact markedSource_not_spills hline b hspills
  have hrun' : ¬ RunSpills { memorySize := 20000, tables := false } markedSource markedSource := by
    rintro ⟨a, -, hspills | ⟨-, -, c, -, -, -, hspills⟩⟩
    · exact hpass _ hspills
    · exact hpass c hspills
  exact ⟨run, program, hrun, hprogram, hrun', assemble_isLegal hrun hprogram hrun'⟩

/-- A program that is told to start at the negative of the greatest word. -/
def negativeEntrySource : Reading Line where
  items := [.line { number := 1, operation := ascii "DEND",
                    operands := ascii "-9223372036854775807" }]

theorem negativeEntry_value (a : Assembly) :
    a.layoutValue (ascii "-9223372036854775807") = some (-Int64.maxValue) := by
  have hread : ∀ divide, (Expression.read divide (ascii "-9223372036854775807")).terms =
        [(.sub, ascii "9223372036854775807")] ∧
      (Expression.read divide (ascii "-9223372036854775807")).dangling = false ∧
      Term.read? divide (ascii "9223372036854775807") = some (.literal Int64.maxValue) := by
    decide +kernel
  exact rawValue_literal (by decide) hread ..

theorem startup_of_load {startup : Value} (h : a.load = .ok (b, startup)) :
    startup = (b.memory.cells.extract 0 startupLength).toList := by
  unfold Assembly.load at h
  dsimp only at h
  split at h
  · cases h
  · cases h
    rfl

theorem memory_of_handleEnd {line : Line} {o : Outcome} {processed : Bool}
    (hline : line.operation = ascii "DEND") (h : handleLine line a = .ok (o, processed) b) :
    b.memory = a.memory := by
  have hend : ∀ d, Descriptor.find? (ascii "DEND") = some d → d.kind = .dend := by decide +kernel
  have hencode : ∀ c p, encode (parse line c).1 p = pure [] := by
    intro c p
    unfold encode
    rcases parse_found line c with hk | hk | ⟨d, _, hd, hs⟩
    · rw [hk]
    · rw [hk]
    · rw [hline] at hd
      have hk : (parse line c).1.kind = .dend := by
        rw [hs]
        exact hend d hd
      rw [hk]
  have hparsed : (parse line (a.atLine line.number)).2.memory = a.memory :=
    (parse_leads line a).frame.memory
  cases handles_of_handleLine h with
  | processed _ _ hp =>
    have hlaid := (layOut_memory (parse line (a.atLine line.number)).1 _).trans hparsed
    rcases (processed_of_process hp).core with ⟨-, -, hb⟩ | ⟨-, c, hc, hs⟩
    · rwa [hb]
    · rw [hencode, Build.pure_apply] at hc
      injection hc with hvalue hstate
      rw [← hvalue, ← hstate] at hs
      cases hs
      exact hlaid
  | _ => exact hparsed

theorem memory_of_ends {reading : Reading Line} {events : List Event}
    (hends : reading.lines.all (·.operation == ascii "DEND") = true)
    (h : runPass reading a = .ok events b) (hfailure : reading.failure = none) :
    b.memory = a.memory := by
  obtain ⟨swept, c, hsweep, -, hc, -⟩ := sweep_of_runPass h hfailure
  have hswept : c.memory = a.memory := by
    refine sweep_induction (P := fun x => x.memory = a.memory) (fun x y hxy hx => ?_) ?_ hsweep rfl
    · rwa [hxy.same]
    · intro before line after swept x o processed y hsplit _ hy hx
      have hmem : line ∈ reading.lines := by simp [Reading.lines, hsplit, Item.line?]
      have hline := List.all_eq_true.mp hends line hmem
      rw [memory_of_handleEnd (by simpa using hline) hy, hx]
  rw [hc.same, ← hswept]

/-- **The end statement can make cells illegal.** Its operand is neither the least word nor the
greatest one, but the negative of the greatest one: the check of an even address counts on from the
greatest word to the least one, whose digits are no digits. -/
theorem startup_illegal_of_negativeEntry :
    (∀ a : Assembly, a.layoutValue (ascii "-9223372036854775807") = some (-Int64.maxValue)) ∧
      ∃ run program,
        assemble { memorySize := 20000 } negativeEntrySource negativeEntrySource = .ok run ∧
          run.result = .ok program ∧ ∃ c ∈ program.memory.cells.toList, c.isLegal = false := by
  obtain ⟨run, program, hrun, hprogram, -⟩ : ∃ run program,
      assemble { memorySize := 20000 } negativeEntrySource negativeEntrySource = .ok run ∧
        run.result = .ok program ∧ program.pass1.errors = 2 ∧ program.pass2.errors = 2 := by
    exact assemble_of_errorCounts rfl (by decide) rfl rfl (by decide +kernel)
  refine ⟨negativeEntry_value, run, program, hrun, hprogram, ?_⟩
  obtain ⟨a, b, c, d, htwo⟩ := twoPasses_of_assemble hrun hprogram
  have hentry : b.entry = Int64.minValue := by
    have hstart : Assembly.start { memorySize := 20000 } = .ok a := htwo.start
    have hpass : (Assembly.start { memorySize := 20000 }).toOption.map (fun a =>
        match runPass negativeEntrySource (a.reset 1) with
        | .ok _ b => b.entry
        | .error _ _ => 0) = some Int64.minValue := by decide +kernel
    rw [hstart] at hpass
    simpa [Except.toOption, htwo.pass1] using hpass
  have hmemory : d.memory = c.memory := memory_of_ends (by decide) htwo.pass2 rfl
  obtain ⟨cell, hcell, hillegal⟩ : ∃ cell ∈ Memory.startupCells Int64.minValue true,
      cell.isLegal = false := by decide +kernel
  have hhalt : b.options.halt = true := by
    obtain ⟨vs, hvs, -⟩ := visits_of_runPass htwo.pass1
    rw [hvs.keeps.options, (start_eq htwo.start).2]
    rfl
  have hstartup : program.startup = Memory.startupCells Int64.minValue true := by
    rw [(load_eq htwo.load).2, ← hentry, ← hhalt]
    rfl
  refine ⟨cell, ?_, hillegal⟩
  rw [← hstartup, startup_of_load htwo.load, Array.toList_extract,
    List.extract_eq_take_drop] at hcell
  rw [htwo.program_eq, hmemory]
  exact List.mem_of_mem_take hcell

end SpsAssembler
