import SpsAssembler.Proofs.EncodedFields

/-!
# The numbers that are stored

Where warnings are counted, no statement that the second pass reports nothing about loses a digit of
its operands, as long as a check keeps the operand to the width of its field. The fields of a
variable constant fill its cells, since a total length that is cut is reported.

* `placeFields_of_clean`: the widths of a variable constant;
* `encode_carries`, **`Processed.carries`**: one statement;
* **`digits_kept`**: the statements of a run;
* **`digits_lost`**: operands with more digits than their fields.
-/

namespace SpsAssembler

open Assembly (Keeps Tame)

variable {s : Statement} {a b : Assembly} {o : Outcome} {v : Value}

/-! ## Statements -/

theorem placeFields_of_clean {operands : List Text} (h : Tame operands a)
    (hmem : ∀ j ∈ List.range maxFields, s.operand (1 + 2 * j) ∈ operands) (hmuted : a.log.muted = 0)
    (hcount : (placeFields s a).2.log.errorCount ≤ a.log.errorCount) :
    (∀ w ∈ (placeFields s a).1.widths, 0 ≤ w.toInt) ∧ (placeFields s a).1.length.toInt =
      ((placeFields s a).1.widths.map Int64.toNatClampNeg).sum ∧
      (placeFields s a).1.length.toInt ≤ 50 := by
  have hmeasured := widths_within s a
  obtain ⟨hshort, hlen⟩ := short_widths h hmem
  unfold placeFields at hcount ⊢
  -- Nothing may unfold the row of evaluations.
  generalize List.range maxFields = js at hmeasured hshort hlen hcount ⊢
  rw [Step.bind_apply] at hcount ⊢
  generalize js.mapM (fun j => evaluateLength (s.operand (1 + 2 * j))) a = measured at *
  obtain ⟨widths, b⟩ := measured
  dsimp only at hmeasured hshort hlen hcount ⊢
  have hkeeps := Keeps.of_frame hmeasured.frame
  have hnone := reportIf_bind_of_clean (.bind placeAt_within fun _ => .pure _)
    (hkeeps.muted.trans hmuted) (Nat.le_trans hcount hkeeps.errors)
  have hlong : ¬ maxConstantLength < widths.foldl (· + ·) 0 := by simpa using hnone
  have hsum : (widths.foldl (· + ·) 0).toInt =
      (0 : Word).toInt + (widths.map Int64.toNatClampNeg).sum :=
    toInt_foldl_add hshort (by decide) (by rw [hlen]; decide)
  rw [show (0 : Word).toInt = 0 from rfl, Int.zero_add] at hsum
  simp only [Step.bind_apply, Step.pure_apply, placeAt_length, if_neg hlong]
  rw [Int64.lt_iff_toInt_lt, show maxConstantLength.toInt = 50 from rfl] at hlong
  exact ⟨fun w hw => (hshort w hw).1, hsum, by omega⟩

theorem placement_of_instruction (hkind : s.kind = .instruction) :
    (place s a).1.length = s.descriptor.shape.instructionLength := by
  unfold place
  rw [hkind]
  rfl

theorem placement_of_addresses (hkind : s.kind = .dsa)
    (hs : s.operands.length ≤ maxAddressOperands) :
    (place s a).1.length.toNatClampNeg = 5 * s.operands.length := by
  have hlength := toInt_addressCells hs
  unfold place
  rw [hkind]
  change (5 * Word.ofLength s.operands).toNatClampNeg = _
  rw [Int64.toNatClampNeg, hlength]
  omega

theorem store_of_silent (ha : a.Attentive) {address : Word} (h : store address v a = .ok () b)
    (hsilent : a.Silent b) : b = { a with memory := a.memory.written address v } := by
  rcases store_cases h with ⟨-, rfl⟩ | ⟨-, hb⟩
  · have hnil := ha.nil_of_silent hsilent
    cases hnil
  · exact hb

/-- **The cells of a statement** that is encoded without a report are its fields. -/
theorem encode_carries (ha : a.Attentive) (hkind : s.kind.hasFields = true)
    (hshort : s.descriptor.isShort = true) (hroomy : s.descriptor.isRoomy = true)
    (hs : s.kind = .dsa → s.operands.length ≤ maxAddressOperands) {c : Assembly}
    (hc : c.Checked) (hplace : (place s c).2.log.errorCount ≤ c.log.errorCount)
    (h : encode s (place s c).1 a = .ok v b) (hsilent : a.Silent b) :
    v.Carries (s.numericFields (place s c).1 a) 0 := by
  have htame := tame_of_clean hc.size hc.muted hplace
  unfold encode at h
  cases hk : s.kind with
  | dsa =>
    rw [hk] at h
    have hlength := placement_of_addresses (a := c) hk (hs hk)
    obtain ⟨rfl, rfl⟩ := encodeAddresses_cases h
    exact (putAddresses_carries ha hk (hs hk) hlength).value a .refl hsilent
  | dda =>
    rw [hk] at h
    exact (encodeDisk_carries ha hk).of_lift h hsilent
  | dvlc =>
    rw [hk] at h
    have hfields : place s = placeFields s := by
      unfold place
      rw [hk]
    rw [hfields] at hplace h ⊢
    have hmem : ∀ j ∈ List.range maxFields, s.operand (1 + 2 * j) ∈ s.layoutOperands := by
      intro j hj
      refine s.mem_layoutOperands ?_
      rw [hk]
      exact List.mem_cons_of_mem _ (List.mem_map_of_mem hj)
    obtain ⟨hwidths, hlength, hmax⟩ := placeFields_of_clean htame hmem hc.muted hplace
    exact encodeFields_carries ha hk hwidths hlength hmax h hsilent
  | instruction =>
    rw [hk] at h
    have hlength := placement_of_instruction (a := c) hk
    obtain ⟨rfl, rfl⟩ := encodeInstruction_cases h
    exact (buildInstruction_carries ha hk hshort hroomy hlength).value a .refl hsilent
  | _ =>
    rw [hk] at hkind
    cases hkind

/-- **The cells of a statement that is processed without a report** are its fields, and they are in
core. -/
theorem Processed.carries (h : Processed s a o b) (ha : a.Attentive) (hpass : a.log.pass = 2)
    (hkind : s.kind.hasFields = true) (hshort : s.descriptor.isShort = true)
    (hroomy : s.descriptor.isRoomy = true)
    (hs : s.kind = .dsa → s.operands.length ≤ maxAddressOperands) (hsilent : a.Silent b) :
    b.memory = a.memory.written o.placement.address o.value ∧
      o.value.Carries (s.numericFields o.placement b) 0 := by
  have hlaid := layOut_keeps s a
  rcases h.core with ⟨hemitting, -, -⟩ | ⟨-, c, hencode, hstore⟩
  · rw [Assembly.emitting, hlaid.pass, hpass] at hemitting
    cases hemitting
  · have hattentive := ha.of_keeps hlaid
    have hleads := encode_leads hencode
    have hencoded := Keeps.of_frame hleads.frame
    obtain ⟨-, hrest⟩ := hsilent.split hlaid h.keeps_layOut
    obtain ⟨hfirst, hlast⟩ := hrest.split hencoded (store_keeps hstore)
    have hb := store_of_silent (hattentive.of_keeps hencoded) hstore hlast
    have hplacement : o.placement = (place s a).1 := by rw [h.placement, layOut_apply]
    rw [hplacement] at hencode
    have hcarries := encode_carries hattentive hkind hshort hroomy hs ha.toChecked
      (h.place_clean hsilent.1) hencode hfirst
    have hsame : s.numericFields o.placement b = s.numericFields (place s a).1 (layOut s a).2 := by
      rw [← hleads.numericFields_eq, hplacement, hb]
      rfl
    refine ⟨?_, hsame ▸ hcarries⟩
    rw [hb, hleads.frame.memory, layOut_memory]

theorem cautious_of_beginsSecond {options : Options} {first : Reading Line} {c : Assembly}
    (h : BeginsSecond options first c) : c.log.warnings = options.warnings := by
  obtain ⟨a, events, b, startup, hstart, hpass, -, hload⟩ := h
  obtain ⟨-, ha⟩ := start_eq hstart
  obtain ⟨hc, -⟩ := load_eq hload
  obtain ⟨vs, hvs, -⟩ := visits_of_runPass hpass
  rw [hc]
  exact hvs.keeps.cautious.trans (by rw [ha]; rfl)

/-- **No digit is lost without a message**, with these exceptions. Where warnings are on, the digits
that the second pass stores for an address row, a disk control field, a variable constant or an
instruction about which it reports nothing are its fields one behind the other, and each of them
spells its number. Only the last digit of a bit number is part of that number. The operands are
those behind the statement, whose own disk address may be what an asterisk stands for. -/
theorem digits_kept {options : Options} {first second : Reading Line}
    (hwarnings : options.warnings = true) (hsize : options.memorySize ∈ memorySizes)
    (h : ProcessedInSecond options first second a o b) (hkind : o.statement.kind.hasFields = true)
    (hcounts : b.log.counts = a.log.counts) :
    b.memory = a.memory.written o.placement.address o.value ∧
      ∃ parts, List.Forall₂ NumericField.Holds (o.statement.numericFields o.placement b) parts ∧
        o.value.digits = parts.flatten := by
  obtain ⟨c, before, line, after, events, hbegins, -, hsweep, hline⟩ := h
  obtain ⟨hbuilding, -⟩ := building_of_beginsSecond hsize hbegins
  have hcautious := cautious_of_beginsSecond hbegins
  obtain ⟨vs, hvs, -⟩ := visits_of_sweep hsweep
  have ha : a.Attentive := {
    toChecked := (hvs.building hbuilding).toChecked
    cautious := hvs.keeps.cautious.trans (hcautious.trans hwarnings) }
  have hparse := parse_leads line a
  have hparsed : Keeps a (parse line (a.atLine line.number)).2 :=
    { Keeps.of_frame hparse.frame with }
  have hprocessed := processed_of_handleLine hline
  have hstatement := statement_of_handleLine hline
  have hquiet : a.Silent b := ⟨Nat.le_of_eq (congrArg Counts.errors hcounts),
    Nat.le_of_eq (congrArg Counts.warnings hcounts)⟩
  obtain ⟨-, hsilent⟩ := hquiet.split hparsed hprocessed.keeps
  obtain ⟨hmemory, parts, hparts, hdigits⟩ := hprocessed.carries (ha.of_keeps hparsed)
    (hparsed.pass.trans (hvs.building hbuilding).pass) hkind (hstatement ▸ parse_isShort line _)
    (hstatement ▸ parse_isRoomy line _) (operands_of_handleLine hline) hsilent
  refine ⟨?_, parts, hparts, by simpa using hdigits⟩
  rw [hmemory, hparse.frame.memory]
  rfl

/-- What is read off a line of the second pass and the states around it, if it is processed. -/
def secondLine {γ : Type} (f : Assembly → Outcome → Assembly → γ) (first : Reading Line)
    (before : List (Item Line)) (line : Line) (a : Assembly) : Option γ :=
  match runPass first (a.reset 1) with
  | .error _ _ => none
  | .ok _ b =>
    match sweep 0 before (b.reset 2).loaded with
    | .error _ _ => none
    | .ok _ c =>
      match handleLine line c with
      | .ok (o, true) d => some (f c o d)
      | _ => none

theorem processedInSecond_of_secondLine {γ : Type} (f : Assembly → Outcome → Assembly → γ)
    (before : List (Item Line)) {options : Options} {first second : Reading Line}
    {after : List (Item Line)} {line : Line} {x : γ} (hstart : Assembly.start options = .ok a)
    (hsize : startupLength ≤ options.memorySize.toNatClampNeg)
    (hfailure : first.failure = none) (hitems : second.items = before ++ .line line :: after)
    (h : secondLine f first before line a = some x) :
    ∃ c o d, ProcessedInSecond options first second c o d ∧ f c o d = x := by
  unfold secondLine at h
  split at h
  · cases h
  · rename_i events b hpass
    split at h
    · cases h
    · rename_i swept c hsweep
      split at h
      · rename_i o d hline
        have hload := startup_of_runPass hstart hsize hpass
        have hbegins : BeginsSecond options first (b.reset 2).loaded :=
          ⟨a, events, b, _, hstart, hpass, hfailure, load_of_size hload⟩
        exact ⟨c, o, d, ⟨_, before, line, after, swept, hbegins, hitems, hsweep, hline⟩,
          Option.some.inj h⟩
      · cases h

/-- Operands with more digits than their fields have room for: a bit number, a drive, the value of a
variable constant, and the least word. -/
def wideSource : Reading Line where
  items := [
    .line { number := 1, operation := ascii "BBT", operands := ascii "500,1234,12" },
    .line { number := 2, operation := ascii "DDA", operands := ascii ",12,5,1,402" },
    .line { number := 3, operation := ascii "DVLC", operands := ascii ",2,12345" },
    .line { number := 4, operation := ascii "DSA", operands := ascii "-9223372036854775807-1" },
    .line { number := 5, operation := ascii "DEND", operands := ascii "402" }]

theorem wideSource_processed : ∃ a o b,
    ProcessedInSecond { model := .two, memorySize := 20000, tables := false } wideSource wideSource
      a o b ∧
      (o.statement.kind, o.value.digits, o.statement.numericFields o.placement b,
        b.log.counts == a.log.counts) =
      (.instruction, [9, 0, 0, 0, 5, 0, 0, 2, 1, 2, 3, 4], [
        { width := 2, operand := 90, number := 90, checked := true },
        { width := 5, operand := 500, number := 500, checked := true },
        { width := 5, operand := 1234, number := 21234, checked := true }], true) := by
  exact processedInSecond_of_secondLine _ [] rfl (by decide) rfl rfl (by decide +kernel)

theorem digits_kept_wideSource : ∃ a o b,
    ProcessedInSecond { model := .two, memorySize := 20000, tables := false } wideSource wideSource
      a o b ∧
      o.statement.kind.hasFields = true ∧ b.log.counts = a.log.counts ∧
      o.value.digits = [9, 0, 0, 0, 5, 0, 0, 2, 1, 2, 3, 4] ∧
      o.statement.numericFields o.placement b = [
        { width := 2, operand := 90, number := 90, checked := true },
        { width := 5, operand := 500, number := 500, checked := true },
        { width := 5, operand := 1234, number := 21234, checked := true }] ∧
      b.memory = a.memory.written o.placement.address o.value ∧
      ∃ parts, List.Forall₂ NumericField.Holds (o.statement.numericFields o.placement b) parts ∧
        o.value.digits = parts.flatten := by
  obtain ⟨a, o, b, h, hread⟩ := wideSource_processed
  simp only [Prod.mk.injEq, beq_iff_eq] at hread
  obtain ⟨hkind, hdigits, hfields, hcounts⟩ := hread
  have hhas : o.statement.kind.hasFields = true := by rw [hkind]; rfl
  exact ⟨a, o, b, h, hhas, hcounts, hdigits, hfields, digits_kept rfl (by decide) h hhas hcounts⟩

/-- How many messages there are about a statement, and its digits. -/
def Outcome.told (o : Outcome) : Nat × List Nat := (o.diagnostics.length, o.value.digits)

theorem wideSource_assembles : ∃ run program,
    assemble { model := .two, memorySize := 20000, tables := false } wideSource wideSource =
      .ok run ∧ run.result = .ok program ∧ program.pass1.errors = 0 ∧ program.pass2.errors = 0 ∧
      (run.second.filterMap Event.outcome?).map Outcome.told = [
        (0, [9, 0, 0, 0, 5, 0, 0] ++ [2, 1, 2, 3, 4]),
        (0, [2] ++ [0, 0, 0, 0, 5, 0, 0, 1, 0, 0, 4, 0, 2]),
        (0, [4, 5]), (0, [9, 11, 8, 0, 8]), (0, [])] := by
  exact assemble_of_afterPasses
    (fun _ events _ => (events.filterMap Event.outcome?).map Outcome.told) rfl (by decide) rfl rfl
    (by decide +kernel)

/-- **Operands that are stored with fewer digits and not reported.** -/
theorem digits_lost : ∃ run program,
    assemble { model := .two, memorySize := 20000, tables := false } wideSource wideSource =
      .ok run ∧ run.result = .ok program ∧ program.ok = true ∧
      program.outcomes.map Outcome.told = [
        (0, [9, 0, 0, 0, 5, 0, 0] ++ [2, 1, 2, 3, 4]),
        (0, [2] ++ [0, 0, 0, 0, 5, 0, 0, 1, 0, 0, 4, 0, 2]),
        (0, [4, 5]), (0, [9, 11, 8, 0, 8]), (0, [])] ∧
      ¬ Spells [2, 1, 2, 3, 4] (10000 * 12 + 1234) ∧ ¬ Spells [2] 12 ∧ ¬ Spells [4, 5] 12345 ∧
      ¬ Spells [9, 11, 8, 0, 8] (2 ^ 63) := by
  obtain ⟨run, program, hrun, hprogram, h1, h2, hvalues⟩ := wideSource_assembles
  obtain ⟨_, _, _, _, htwo⟩ := twoPasses_of_assemble hrun hprogram
  refine ⟨run, program, hrun, hprogram, by rw [Program.ok, h1, h2]; rfl, ?_, ?_⟩
  · rw [htwo.program_eq]
    exact hvalues
  · decide

end SpsAssembler
