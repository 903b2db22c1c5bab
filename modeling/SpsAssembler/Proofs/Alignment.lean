import SpsAssembler.Proofs.LabelOffsets
import SpsAssembler.Proofs.OperandGrammar
import SpsAssembler.Proofs.SymbolAddresses

/-!
# Even and odd addresses

Instructions and disk control fields start at even addresses, and strings too, whose label is odd. The
counter is made even before it places one, and the check of an address operand puts the wrong parity
right; neither is undone where words wrap. An operand that has no value is not checked, however: it
gives the address zero, which is not odd, and a lone minus does so without a message.

* `Word.toInt_add_mod_two`: parity in words that wrap;
* `nextCell_even`, `Check.addressEven_even`, `Check.addressOdd_odd`: where parity comes from;
* `Kind.isPaired`, **`place_paired`**: the parities of a string;
* `exists_error_of_valueless`: an operand without a value, other than a lone minus, is an error;
* `Outcome.IsAligned`, `Outcome.Strays`, **`Processed.isAligned_iff`**: one statement;
* `Visits.aligned`, **`alignment_kept`**: the statements of a run;
* **`loneMinus_strays`**: a string at a lone minus.
-/

namespace SpsAssembler

variable {s : Statement} {a b : Assembly} {o : Outcome}

/-! ## Parity -/

theorem Word.toInt_add_mod_two (x y : Word) : (x + y).toInt % 2 = (x.toInt + y.toInt) % 2 := by
  rw [Int64.toInt_add, Int.bmod_def]
  split <;> omega

theorem Word.toInt_sub_mod_two (x y : Word) : (x - y).toInt % 2 = (x.toInt - y.toInt) % 2 := by
  rw [Int64.toInt_sub, Int.bmod_def]
  split <;> omega

theorem Word.toInt_double_mod_two (n : Word) : (2 * n).toInt % 2 = 0 := by
  have hsum : 2 * n = n + n := by grind
  rw [hsum, toInt_add_mod_two]
  omega

theorem nextCell_even (a : Assembly) : (a.nextCell true).toInt % 2 = 0 := by
  have hone : (1 : Word).toInt = 1 := rfl
  unfold Assembly.nextCell
  rw [Bool.true_and, Check.isOdd_eq]
  split
  · rename_i hodd
    rw [decide_eq_true_iff] at hodd
    rw [Word.toInt_add_mod_two]
    omega
  · rename_i heven
    rw [decide_eq_true_iff] at heven
    omega

namespace Check

theorem inCore_mod_two {size default : Word} {v : Verdict} {n : Int}
    (hdefault : default.toInt % 2 = n) (hv : v.1.toInt % 2 = n) :
    (inCore size default v).1.toInt % 2 = n := by
  unfold inCore
  rw [correct_value]
  split
  · exact hdefault
  · exact hv

theorem addressEven_even (size v : Word) : (addressEven.apply size v).1.toInt % 2 = 0 := by
  have hone : (1 : Word).toInt = 1 := rfl
  refine inCore_mod_two rfl ?_
  rw [correct_value, isOdd_eq]
  split <;> rename_i hodd <;> rw [decide_eq_true_iff] at hodd
  · rw [Word.toInt_add_mod_two]
    omega
  · omega

theorem addressOdd_odd (size v : Word) : (addressOdd.apply size v).1.toInt % 2 = 1 := by
  have hone : (1 : Word).toInt = 1 := rfl
  refine inCore_mod_two rfl ?_
  rw [correct_value, isOdd_eq]
  split <;> rename_i heven <;> rw [Bool.not_eq_true', decide_eq_false_iff_not] at heven
  · rw [Word.toInt_add_mod_two]
    omega
  · omega

end Check

/-! ## Where statements are placed -/

theorem place_even (hkind : s.kind = .instruction ∨ s.kind = .dda) (a : Assembly) :
    (place s a).1.address.toInt % 2 = 0 := by
  rcases hkind with hkind | hkind
  · have haddress : (place s a).1.address = a.nextCell true := by
      unfold place
      rw [hkind, ← alignEven_nextCell]
      rfl
    rw [haddress]
    exact nextCell_even a
  · have hi : s.kind.addressPlace? = some 0 := by rw [hkind]; rfl
    have hlies := place_lies hi (fun h => absurd (hkind.symm.trans h) (by decide)) a
    have hlength : (place s a).1.length = diskLength := by
      unfold place
      rw [hkind]
      exact placeAt_length ..
    cases hblank : (s.operand 0).isBlank with
    | true =>
      rw [hlies.counted hblank, hkind]
      exact nextCell_even a
    | false =>
      obtain ⟨hlabel, -, -⟩ := hlies.named hblank
      have hoffset := hlies.offset (by rw [hlength]; decide)
      have hsame : (place s a).1.address = (place s a).1.labelAddress := by
        rw [Statement.labelOffset, hkind] at hoffset
        grind
      rw [hsame, hlabel, hkind, evaluateLayout_value]
      cases a.layoutValue (s.operand 0) with
      | none => rfl
      | some v => exact Check.addressEven_even _ v

/-- Kinds whose cells come in pairs, labelled by the second cell of a pair. -/
def Kind.isPaired : Kind → Bool
  | dac | dsac | das => true
  | _ => false

/-- The operand that may name a cell of a statement. -/
def Statement.addressOperand (s : Statement) : Text := s.kind.addressPlace?.elim [] s.operand

theorem Statement.addressOperand_of_isPaired (h : s.kind.isPaired = true) :
    s.kind.isAligned = true ∧ s.kind.addressCheck = .addressOdd ∧ s.kind ≠ .dsb ∧
      ∃ i, s.kind.addressPlace? = some i ∧ s.addressOperand = s.operand i := by
  unfold addressOperand
  cases hk : s.kind <;> rw [hk] at h <;> cases h
  all_goals exact ⟨rfl, rfl, by decide, _, rfl, rfl⟩

theorem place_length_even (hkind : s.kind.isPaired = true) (a : Assembly) :
    (place s a).1.length.toInt % 2 = 0 := by
  unfold place
  cases hk : s.kind <;> rw [hk] at hkind <;> cases hkind
  all_goals
    simp only [Step.bind_apply, placePairs, placeAt_length]
    exact Word.toInt_double_mod_two _

/-- **The parities of a string.** The first cell is even and the label odd, unless an address operand
that has no value makes the label zero. -/
theorem place_paired (hkind : s.kind.isPaired = true) (hpos : 0 < (place s a).1.length) :
    if s.addressOperand.isBlank = false ∧ a.layoutValue s.addressOperand = none then
      (place s a).1.labelAddress = 0 ∧ (place s a).1.address.toInt % 2 = 1
    else (place s a).1.address.toInt % 2 = 0 ∧ (place s a).1.labelAddress.toInt % 2 = 1 := by
  have hone : (1 : Word).toInt = 1 := rfl
  obtain ⟨haligned, hcheck, hblock, i, hi, hoperand⟩ := s.addressOperand_of_isPaired hkind
  have hlies := place_lies hi (fun h => absurd h hblock) a
  rw [← hoperand] at hlies
  -- The offset of the label is odd, so that one of the two parities gives the other.
  have hparity : (place s a).1.labelAddress.toInt % 2 ≠ (place s a).1.address.toInt % 2 := by
    have hlength := place_length_even hkind a
    have hoffset : (s.labelOffset a (place s a).1.length).toInt % 2 = 1 := by
      unfold Statement.labelOffset
      cases hk : s.kind <;> rw [hk] at hkind <;> cases hkind
      case dsac =>
        rw [Word.toInt_sub_mod_two]
        omega
      all_goals rfl
    rw [← hlies.offset hpos, Word.toInt_sub_mod_two] at hoffset
    omega
  cases hblank : s.addressOperand.isBlank with
  | true =>
    have heven := nextCell_even a
    rw [← haligned, ← hlies.counted hblank] at heven
    rw [if_neg (by simp)]
    omega
  | false =>
    obtain ⟨hlabel, -, -⟩ := hlies.named hblank
    rw [hcheck, evaluateLayout_value] at hlabel
    cases hvalue : a.layoutValue s.addressOperand with
    | none =>
      rw [hvalue] at hlabel
      have hzero : (place s a).1.labelAddress.toInt = 0 := by rw [hlabel]; rfl
      rw [if_pos ⟨rfl, rfl⟩]
      exact ⟨hlabel, by omega⟩
    | some v =>
      rw [hvalue] at hlabel
      have hodd : (place s a).1.labelAddress.toInt % 2 = 1 := by
        rw [hlabel]
        exact Check.addressOdd_odd _ v
      rw [if_neg (by simp)]
      omega

/-! ## Operands without a value -/

/-- An operand without a value is an error, unless it is blank or a lone minus. -/
theorem exists_error_of_valueless {operand : Text} {usage : Usage} {scope : Scope}
    {table : SymbolTable} (hblank : operand.isBlank = false) (hminus : operand ≠ ascii "-")
    (hnone : rawValue scope usage table operand = none) :
    ∃ r ∈ (evaluateIn scope usage table operand).reports, r.isError = true := by
  have hne : operand ≠ [] := by
    rintro rfl
    cases hblank
  have hterms := mt (Expression.terms_read_eq_nil table.divide hne).mp hminus
  rw [evaluateIn_reports, hblank]
  rw [rawValue, hblank] at hnone
  generalize Expression.read table.divide operand = e at hterms hnone ⊢
  have hempty : e.terms.isEmpty = false := by simpa using hterms
  rw [hempty] at hnone ⊢
  suffices h : ∃ r ∈ restReports usage scope.memorySize operand e (chainOf scope usage table e.terms),
      r.isError = true by
    obtain ⟨r, hr, herror⟩ := h
    exact ⟨r, List.mem_append_right _ hr, herror⟩
  cases hchain : chainOf scope usage table e.terms with
  | none => exact ⟨_, List.mem_singleton_self _, rfl⟩
  | some chain =>
    cases hdangling : e.dangling with
    | true => exact ⟨error (.invalidOperand operand), by simp [restReports, hdangling], rfl⟩
    | false =>
      have htotal : total chain = none := by simpa [hchain, hdangling] using hnone
      exact ⟨error .divideByZero, by simp [restReports, hdangling, htotal], rfl⟩

theorem errorCount_evaluateLayout {operand : Text} (check : Check) (hmuted : a.log.muted = 0)
    (hblank : operand.isBlank = false) (hminus : operand ≠ ascii "-")
    (hnone : a.layoutValue operand = none) :
    a.log.errorCount < (evaluateLayout operand check a).2.log.errorCount := by
  have hraw : rawValue a.scope { star := a.last, ordered := true, check } a.symbols operand = none :=
    (rawValue_usage (by rfl) (by rfl) a.scope a.symbols operand).trans hnone
  have herror := exists_error_of_valueless hblank hminus hraw
  have hcount := a.log.errorCount_raiseAll hmuted
    (evaluateIn a.scope { star := a.last, ordered := true, check } a.symbols operand).reports
  have hpos := List.countP_pos_iff.mpr herror
  rw [evaluateLayout_apply]
  change _ < (a.log.raiseAll _).errorCount
  omega

theorem errorCount_place (hkind : s.kind.isPaired = true) (hmuted : a.log.muted = 0)
    (hblank : s.addressOperand.isBlank = false) (hminus : s.addressOperand ≠ ascii "-")
    (hnone : a.layoutValue s.addressOperand = none) :
    a.log.errorCount < (place s a).2.log.errorCount := by
  -- Each string evaluates its length first, and the address operand in the state behind that.
  have hmeasured : ∀ {x : Step Word} {length offset : Word → Word}, Step.Within .still x →
      a.log.errorCount < ((x >>= fun n =>
        placeAt true .addressOdd (length n) (offset n) s.addressOperand) a).2.log.errorCount := by
    intro x length offset hx
    have hkept := Assembly.Keeps.of_frame (hx a).frame
    have hvalue : (x a).2.layoutValue s.addressOperand = none := by rw [(hx a).layoutValue_eq, hnone]
    have hcount := errorCount_evaluateLayout .addressOdd (hkept.muted.trans hmuted) hblank hminus hvalue
    rw [Step.bind_apply, placeAt, Step.ite_apply, if_neg (by simp [hblank])]
    exact Nat.lt_of_le_of_lt hkept.errors hcount
  unfold Statement.addressOperand at hmeasured
  unfold place
  cases hk : s.kind <;> rw [hk] at hkind hmeasured <;> cases hkind
  case dac => exact hmeasured constantLength_within
  case dsac => exact hmeasured constantLength_within
  case das => exact hmeasured evaluateLength_within

/-! ## Processed statements -/

/-- Instructions, disk control fields and strings are where the machine can use them. -/
structure Outcome.IsAligned (o : Outcome) : Prop where
  even : o.statement.kind = .instruction ∨ o.statement.kind = .dda →
    o.placement.address.toInt % 2 = 0
  paired : o.statement.kind.isPaired = true → 0 < o.placement.length →
    o.placement.address.toInt % 2 = 0 ∧ o.placement.labelAddress.toInt % 2 = 1

/-- A string with cells whose address operand has no value in a state. -/
structure Outcome.Strays (o : Outcome) (a : Assembly) : Prop where
  paired : o.statement.kind.isPaired = true
  occupies : 0 < o.placement.length
  named : o.statement.addressOperand.isBlank = false
  valueless : a.layoutValue o.statement.addressOperand = none

/-- **A processed statement is aligned** unless it is a string whose address operand has no value. -/
theorem Processed.isAligned_iff (h : Processed s a o b) : o.IsAligned ↔ ¬ o.Strays a := by
  obtain rfl : s = o.statement := h.statement.symm
  have hplacement : o.placement = (place o.statement a).1 := by rw [h.placement, layOut_apply]
  constructor
  · rintro ⟨-, hpaired⟩ ⟨hkind, hpos, hnamed, hvalueless⟩
    obtain ⟨heven, -⟩ := hpaired hkind hpos
    have hplaced := place_paired hkind (hplacement ▸ hpos)
    rw [if_pos ⟨hnamed, hvalueless⟩, ← hplacement] at hplaced
    omega
  · intro hstrays
    refine ⟨fun hkind => hplacement ▸ place_even hkind a, fun hkind hpos => ?_⟩
    have hplaced := place_paired hkind (hplacement ▸ hpos)
    rwa [if_neg fun hoperand => hstrays ⟨hkind, hpos, hoperand.1, hoperand.2⟩, ← hplacement] at hplaced

/-- What is known of a string that strays: its label is zero, and a message says so unless the address
operand is a lone minus. -/
structure Outcome.IsAstray (o : Outcome) (messages : List (Diagnostic Cause)) : Prop where
  paired : o.statement.kind.isPaired = true
  label : o.placement.labelAddress = 0
  odd : o.placement.address.toInt % 2 = 1
  reported : o.statement.addressOperand = ascii "-" ∨ ∃ d ∈ messages, d.severity = .error

theorem Assembly.Utters.exists_error {P : Cause → Prop} (h : a.Utters P b)
    (hcount : a.log.errorCount < b.log.errorCount) : ∃ d ∈ b.log.pending, d.severity = .error := by
  obtain ⟨reports, hlog, -⟩ := h
  rw [Log.raiseAll_eq] at hlog
  rw [hlog] at hcount ⊢
  have hpos : 0 < (a.log.kept reports).countP (·.isError) := by
    change _ < _ + _ at hcount
    omega
  obtain ⟨d, hd, herror⟩ := List.countP_pos_iff.mp hpos
  exact ⟨d, List.mem_append_right _ hd, by simpa [Diagnostic.isError] using herror⟩

theorem Processed.isAstray (h : Processed s a o b) (hmuted : a.log.muted = 0) (hstrays : o.Strays a) :
    o.IsAstray b.log.pending := by
  obtain rfl : s = o.statement := h.statement.symm
  have hplacement : o.placement = (place o.statement a).1 := by rw [h.placement, layOut_apply]
  obtain ⟨hkind, hpos, hnamed, hvalueless⟩ := hstrays
  have hplaced := place_paired hkind (hplacement ▸ hpos)
  rw [if_pos ⟨hnamed, hvalueless⟩, ← hplacement] at hplaced
  refine ⟨hkind, hplaced.1, hplaced.2, ?_⟩
  by_cases hminus : o.statement.addressOperand = ascii "-"
  · exact .inl hminus
  · have hcount := errorCount_place hkind hmuted hnamed hminus hvalueless
    have hbounds := (beforeLabel_of_place o.statement a).frame.errors
    have hlabel := (beforeLabel_keeps o.statement a).errors
    have hcore := h.keeps_layOut.errors
    exact .inr (h.utters.exists_error (by omega))

/-! ## Runs -/

theorem Visits.aligned {vs : List Visit} {events : List Event} (hvs : Visits a vs b)
    (hrec : Recorded events vs) (hmuted : a.log.muted = 0) (ho : Event.finished o true ∈ events) :
    o.IsAligned ∨ o.IsAstray o.diagnostics := by
  have hmem : Event.finished o true ∈ vs.map Visit.event := by
    rw [← hrec.finished]
    exact List.mem_filter.mpr ⟨ho, rfl⟩
  obtain ⟨v, hv, hevent⟩ := List.mem_map.mp hmem
  obtain ⟨hresult, hprocessed⟩ := Event.finished.inj hevent
  obtain ⟨us, ws, rfl⟩ := List.append_of_mem hv
  obtain ⟨hbefore, hline, -⟩ := hvs.split
  rw [hprocessed] at hline
  have hparse := Assembly.Keeps.of_frame (parse_leads v.line v.before).frame
  have hhandled := processed_of_handleLine hline
  subst hresult
  by_cases hstrays : v.outcome.Strays (parse v.line (v.before.atLine v.line.number)).2
  · obtain ⟨hkind, hlabel, hodd, hreported⟩ :=
      hhandled.isAstray (hparse.muted.trans (hbefore.keeps.muted.trans hmuted)) hstrays
    exact .inr ⟨hkind, hlabel, hodd, hreported⟩
  · obtain ⟨heven, hpaired⟩ := hhandled.isAligned_iff.mpr hstrays
    exact .inl ⟨heven, hpaired⟩

/-- **Statements are aligned, strings whose address operand has no value apart.** In any state a
processed statement is aligned unless it strays. So in any run, whether or not it comes to its end or
reports an error, each statement that either pass processed is aligned, or it is a string at the label
zero and the address operand is a lone minus or was reported. -/
theorem alignment_kept (options : Options) (first second : Reading Line) :
    (∀ s a o b, process s a = .ok o b → (o.IsAligned ↔ ¬ o.Strays a)) ∧
    ∀ run, assemble options first second = .ok run →
      ∀ o, Event.finished o true ∈ run.first ++ run.second →
        o.IsAligned ∨ o.IsAstray o.diagnostics := by
  refine ⟨fun s a o b h => (processed_of_process h).isAligned_iff, fun run hrun o ho => ?_⟩
  obtain ⟨a, b, hstart, hpass1, hsecond⟩ := assemble_cases hrun
  obtain ⟨vs, hvs, -, hrec⟩ := visits_of_runPass hpass1
  have hmuted : (a.reset 1).log.muted = 0 := by
    rw [(start_eq hstart).2]
    rfl
  rcases List.mem_append.mp ho with ho | ho
  · exact hvs.aligned hrec hmuted ho
  · rcases hsecond with ⟨_, hnone, -⟩ | ⟨d, hpass2, -⟩
    · rw [hnone] at ho
      cases ho
    · obtain ⟨ws, hws, -, hrec2⟩ := visits_of_runPass hpass2
      exact hws.aligned hrec2 (hvs.keeps.muted.trans hmuted) ho

/-- Strings behind an odd address, at an even one and at a lone minus. -/
def stringsSource : Reading Line where
  items := [
    .line { number := 1, operation := ascii "DS", operands := ascii "1" },
    .line { number := 2, operation := ascii "DAC", operands := ascii "2,AB" },
    .line { number := 3, operation := ascii "DAS", operands := ascii "3,1000" },
    .line { number := 4, operation := ascii "DAS", operands := ascii "3,-" },
    .line { number := 5, operation := ascii "DEND", operands := ascii "402" }]

/-- The kinds of the statements that a pass placed, and where. -/
def placedKinds (events : List Event) : List (Kind × Placement) :=
  (events.filterMap Event.placed?).map fun m => (m.1.kind, m.2)

/-- The even address is put right, and the last of the strings strays. -/
def stringsPlaced : List (Kind × Placement) := [
  (.ds, { labelAddress := 402, address := 402, length := 1 }),
  (.dac, { labelAddress := 405, address := 404, length := 4 }),
  (.das, { labelAddress := 1001, address := 1000, length := 6 }),
  (.das, { labelAddress := 0, address := -1, length := 6 }),
  (.dend, { labelAddress := 402, address := 402 })]

theorem stringsSource_assembles : ∃ run program,
    assemble { memorySize := 20000, tables := false } stringsSource stringsSource = .ok run ∧
      run.result = .ok program ∧ program.pass1.errors = 1 ∧ program.pass2.errors = 1 ∧
      placedKinds run.second = stringsPlaced := by
  exact assemble_of_afterPasses (fun _ events _ => placedKinds events) rfl (by decide) rfl rfl
    (by decide +kernel)

theorem alignment_kept_stringsSource : ∃ run,
    assemble { memorySize := 20000, tables := false } stringsSource stringsSource = .ok run ∧
      placedKinds run.second = stringsPlaced ∧
      ∀ o, Event.finished o true ∈ run.first ++ run.second →
        o.IsAligned ∨ o.IsAstray o.diagnostics := by
  obtain ⟨run, program, hrun, -, -, -, hplaced⟩ := stringsSource_assembles
  exact ⟨run, hrun, hplaced, (alignment_kept _ stringsSource stringsSource).2 run hrun⟩

/-- A string at a lone minus. -/
def loneMinusSource : Reading Line where
  items := [
    .line { number := 1, label := ascii "A", operation := ascii "DAS", operands := ascii "3,-" },
    .line { number := 2, operation := ascii "DEND", operands := ascii "402" }]

/-- A string at a lone minus has the label zero and begins below core, and neither pass reports an
error. -/
theorem loneMinus_strays : ∃ run program,
    assemble { memorySize := 20000, tables := false } loneMinusSource loneMinusSource = .ok run ∧
      run.result = .ok program ∧ program.pass1.errors = 0 ∧ program.pass2.errors = 0 ∧
      placedKinds run.second = [(.das, { labelAddress := 0, address := -1, length := 6 }),
        (.dend, { labelAddress := 402, address := 402 })] := by
  exact assemble_of_afterPasses (fun _ events _ => placedKinds events) rfl (by decide) rfl rfl
    (by decide +kernel)

end SpsAssembler
