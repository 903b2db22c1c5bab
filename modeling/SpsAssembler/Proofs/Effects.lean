import SpsAssembler.Proofs.OperandReports
import SpsAssembler.Proofs.StatementPositions

/-!
# What parsing, placing and encoding can do

None of them does more than report, evaluate operands and, in the case of placing, move the counter,
the head and the end of the program. So core stays, symbols only get references, and no message is
about a label.

* `Kind.reach`, `parse_within`, `place_within`, `encode_within`: what is done are acts;
* `Assembly.Appends`, `Assembly.Frame`, **`Leads.frame`**: what acts leave alone and what they only
  add to;
* `Leads.counter_eq`, `Leads.head_eq`, `Leads.entry_eq`: what acts leave alone that do not reach it.
-/

namespace SpsAssembler

/-- What placing the statements of a kind may change. -/
def Kind.reach : Kind → Reach
  | dend => .ending
  | head => .turning
  | _ => .counting

variable {reach : Reach}

/-! ## Parts of statements -/

theorem report_within {reports : List (Report Cause)} (h : Unlabelled reports) :
    Step.Within reach (report reports) := fun a => .single (.report a reports h)

theorem reportIf_within (c : Bool) {r : Report Cause} (h : r.cause.concernsLabel = false) :
    Step.Within reach (reportIf c r) := by
  unfold reportIf
  cases c with
  | false => exact report_within .nil
  | true => exact report_within (.one h)

theorem evaluate_within {operand : Text} {usage : Usage} :
    Step.Within reach (evaluate operand usage) := by
  intro a
  rw [evaluate_eq]
  exact .tail (.single (.evaluate a operand usage))
    (.report _ _ (evaluateIn_unlabelled a.scope usage a.symbols operand))

theorem evaluateQuietly_within {operand : Text} {usage : Usage} :
    Step.Within reach (evaluateQuietly operand usage) := by
  intro a
  rw [evaluateQuietly_eq]
  exact .single (.evaluate a operand usage)

theorem evaluateLayout_within {operand : Text} {check : Check} :
    Step.Within reach (evaluateLayout operand check) :=
  .get_bind fun _ => .bind evaluate_within fun _ => .pure _

theorem evaluateLength_within {operand : Text} : Step.Within reach (evaluateLength operand) :=
  evaluateLayout_within

/-! ## Parsing -/

theorem splitText_within (text : Text) : Step.Within reach (splitText text) := by
  rw [splitText_eq]
  cases text.dropWhile (· != Byte.comma) with
  | nil => exact .pure _
  | cons b rest =>
    refine .get_bind fun a => .bind evaluateQuietly_within fun n => .ite ?_ (.pure _)
    exact .bind (reportIf_within _ rfl) fun _ => .pure _

theorem splitOperands_within (d : Descriptor) (text : Text) :
    Step.Within reach (splitOperands d text) := by
  unfold splitOperands
  split
  · exact splitText_within text
  · exact splitText_within text
  · rw [splitAddresses_eq]
    exact .bind (reportIf_within _ rfl) fun _ => .pure _
  · exact .pure _

theorem unknownOperation_concernsLabel (first : Byte) (operation : Text) :
    (unknownOperation first operation).concernsLabel = false := by
  unfold unknownOperation
  split <;> rfl

theorem parse_within (line : Line) : Step.Within reach (parse line) := by
  rw [parse_eq]
  refine .get_bind fun a => .ite ?_ (.ite (.pure _) (.ite (.pure _) (.ite ?_ ?_)))
  · exact .bind (report_within (.one rfl)) fun _ => .pure _
  · exact .bind (report_within (.one rfl)) fun _ => .pure _
  · cases Descriptor.find? line.operation with
    | none =>
      exact .bind (report_within (.one (unknownOperation_concernsLabel ..))) fun _ => .pure _
    | some d =>
      exact .bind (reportIf_within _ rfl) fun _ =>
        .bind (splitOperands_within d line.operands) fun _ => .pure _

/-! ## Placing -/

theorem takeCells_within {n : Word} : Step.Within .counting (takeCells n) :=
  fun a => .single (.count rfl a _ _)

theorem alignEven_within : Step.Within .counting alignEven := by
  intro a
  change Leads .counting a (if _ then _ else _)
  split
  · exact .single (.count rfl a _ a.last)
  · exact .refl

theorem placeAt_within {aligned : Bool} {check : Check} {length offset : Word} {address : Text} :
    Step.Within .counting (placeAt aligned check length offset address) := by
  refine .ite ?_ ?_
  · cases aligned with
    | false => exact .bind takeCells_within fun _ => .pure _
    | true => exact .bind alignEven_within fun _ => .bind takeCells_within fun _ => .pure _
  · exact .bind evaluateLayout_within fun _ => .pure _

theorem constantLength_within {operand : Text} : Step.Within reach (constantLength operand) :=
  .bind evaluateLength_within fun _ => .bind (reportIf_within _ rfl) fun _ => .pure _

theorem octalPower_within {operand : Text} : Step.Within reach (octalPower operand) := by
  refine .bind evaluateLength_within fun power => .ite ?_ (.ite ?_ (.pure _))
  · exact .bind (report_within (.one rfl)) fun _ => .pure _
  · exact .bind (report_within (.one rfl)) fun _ => .pure _

theorem octalLength_within {operand : Text} : Step.Within reach (octalLength operand) := by
  rw [octalLength_eq]
  exact .bind octalPower_within fun _ => .pure _

theorem unexpectedLabel_within (s : Statement) : Step.Within reach (unexpectedLabel s) :=
  reportIf_within _ rfl

theorem changeHead_within {operand : Text} : Step.Within .turning (changeHead operand) := by
  have hmove : ∀ h : Byte, Step.Within .turning (modify ({ · with head := h })) :=
    fun h a => .single (.turn rfl a h)
  have hreport : Step.Within .turning (report [error (.invalidHead operand)]) :=
    report_within (.one rfl)
  refine .ite (hmove _) ?_
  split
  · exact .ite (hmove _) hreport
  · exact hreport

theorem placeEnd_within (s : Statement) : Step.Within .ending (placeEnd s) := by
  refine .bind (fun a => .single (.finish rfl a .ended a.entry)) fun _ => ?_
  refine .bind (unexpectedLabel_within s) fun _ => .bind evaluateLayout_within fun entry => ?_
  exact .bind (fun a => .single (.finish rfl a a.ending entry)) fun _ => .pure _

theorem placeOrigin_within (s : Statement) : Step.Within .counting (placeOrigin s) := by
  refine .bind evaluateLayout_within fun address => ?_
  exact .bind (fun a => .single (.count rfl a address (address - 1)))
    fun _ => .pure _

theorem placeBlock_within (s : Statement) : Step.Within .counting (placeBlock s) := by
  refine .bind evaluateLength_within fun size => .bind evaluateLength_within fun count => ?_
  refine .ite ?_ ?_
  · exact .bind takeCells_within fun _ => .pure _
  · exact .get_bind fun _ => .bind evaluateLayout_within fun _ => .pure _

theorem placeFields_within (s : Statement) : Step.Within .counting (placeFields s) := by
  refine .bind (.mapM (fun _ => evaluateLength_within) _) fun widths => ?_
  exact .bind (reportIf_within _ rfl) fun _ => .bind placeAt_within fun _ => .pure _

theorem place_within (s : Statement) : Step.Within s.kind.reach (place s) := by
  have hcontrol : ∀ {reach},
      Step.Within reach (report [warning (.unsupportedControl s.descriptor.mnemonic)]) :=
    report_within (.one rfl)
  unfold place
  cases s.kind with
  | unknown => exact .pure _
  | comment => exact .pure _
  | unlisted => exact .pure _
  | dend => exact placeEnd_within s
  | dorg => exact placeOrigin_within s
  | head => exact .bind (unexpectedLabel_within s) fun _ => .bind changeHead_within fun _ => .pure _
  | send => exact .bind (unexpectedLabel_within s) fun _ => .bind hcontrol fun _ => .pure _
  | tcd => exact .bind (unexpectedLabel_within s) fun _ => .bind hcontrol fun _ => .pure _
  | tra => exact .bind hcontrol fun _ => .pure _
  | dac => exact .bind constantLength_within fun _ => placeAt_within
  | dsac => exact .bind constantLength_within fun _ => placeAt_within
  | das => exact .bind evaluateLength_within fun _ => placeAt_within
  | dc => exact .bind constantLength_within fun _ => placeAt_within
  | dsc => exact .bind constantLength_within fun _ => placeAt_within
  | dnb => exact .bind constantLength_within fun _ => placeAt_within
  | dgm => exact placeAt_within
  | dot => exact .bind octalLength_within fun _ => placeAt_within
  | ds => exact .bind evaluateLength_within fun _ => placeAt_within
  | dss => exact .bind evaluateLength_within fun _ => placeAt_within
  | dsb => exact placeBlock_within s
  | dsa => exact .get_bind fun _ => .bind takeCells_within fun _ => .pure _
  | dda => exact placeAt_within
  | dvlc => exact placeFields_within s
  | instruction => exact .bind alignEven_within fun _ => .bind takeCells_within fun _ => .pure _

theorem checkBounds_within (p : Placement) : Step.Within reach (checkBounds p) :=
  .get_bind fun _ => reportIf_within _ rfl

/-! ## Encoding -/

theorem constantCells_within (c : Except Fault Constant) :
    Build.Within reach (constantCells c) := by
  refine .bind (.ofExcept c) fun c => .bind (.lift (report_within ?_)) fun _ => .pure _
  cases c.error with
  | none => exact .nil
  | some e => cases e <;> exact .one rfl

theorem putAddresses_within (s : Statement) (p : Placement) (cells : Value) :
    Step.Within reach (putAddresses s p cells) :=
  .get_bind fun _ => .foldlM (fun _ _ => .bind evaluate_within fun _ => .pure _) _ _

theorem sectorOperand_within {operand : Text} : Step.Within reach (sectorOperand operand) := by
  refine .bind evaluate_within fun _ => .ite ?_ (.pure _)
  exact .bind (report_within (.one rfl)) fun _ => .pure _

theorem sectorCountOperand_within {operand : Text} :
    Step.Within reach (sectorCountOperand operand) := by
  refine .bind evaluate_within fun _ => .ite ?_ (.ite ?_ (.pure _))
  · exact .bind (report_within (.one rfl)) fun _ => .pure _
  · exact .bind (report_within (.one rfl)) fun _ => .pure _

theorem encodeDisk_within (s : Statement) : Step.Within reach (encodeDisk s) :=
  .bind evaluate_within fun _ => .bind sectorOperand_within fun _ =>
    .bind sectorCountOperand_within fun _ => .bind evaluateLayout_within fun _ => .pure _

theorem encodeFieldsFrom_within (s : Statement) (fields : List (Word × Nat)) (stop : Word)
    (v : Value) : Step.Within reach (encodeFieldsFrom s fields stop v) := by
  induction fields generalizing stop v with
  | nil => exact .pure v
  | cons field rest ih => exact .bind evaluate_within fun _ => ih _ _

theorem encodeP_within (s : Statement) (star : Word) : Step.Within reach (encodeP s star) := by
  refine .get_bind fun _ => ?_
  cases s.descriptor.p with
  | none => exact .bind (reportIf_within _ rfl) fun _ => .pure _
  | reference => exact evaluate_within
  | referenceEven => exact evaluate_within
  | referenceOdd => exact evaluate_within
  | value => exact evaluate_within

theorem selectCode_within {codes : List Word} {outOfRange : Nat → Word → Cause} {operand : Text}
    {star : Word} (h : ∀ n w, (outOfRange n w).concernsLabel = false) :
    Step.Within reach (selectCode codes outOfRange operand star) := by
  rw [selectCode_eq]
  refine .bind evaluate_within fun _ => .ite (.pure _) ?_
  exact .bind (report_within (.one (h _ _))) fun _ => .pure _

theorem bitAddress_within (s : Statement) (star : Word) :
    Step.Within reach (bitAddress s star) := by
  refine .bind evaluate_within fun _ => .bind evaluate_within fun _ => .ite ?_ (.ite ?_ ?_)
  · exact .bind (report_within (.one rfl)) fun _ => .pure _
  · exact .pure _
  · exact .pure _

theorem encodeQ_within (s : Statement) (star : Word) : Step.Within reach (encodeQ s star) := by
  refine .get_bind fun _ => ?_
  cases s.descriptor.q with
  | none => exact .bind (reportIf_within _ rfl) fun _ => .pure _
  | reference => exact evaluate_within
  | referenceBit => exact bitAddress_within s star
  | immediate => exact evaluate_within
  | immediateIndex => exact evaluate_within
  | value => exact evaluate_within
  | skip => exact selectCode_within fun _ _ => rfl
  | skipAfter => exact selectCode_within fun _ _ => rfl
  | space => exact selectCode_within fun _ _ => rfl
  | spaceAfter => exact selectCode_within fun _ _ => rfl
  | literal => exact .ite (.pure _) (.bind (report_within (.one rfl)) fun _ => evaluate_within)

theorem buildInstruction_within (s : Statement) (p : Placement) :
    Step.Within reach (buildInstruction s p) := by
  refine .bind (encodeP_within s p.star) fun _ => .bind (encodeQ_within s p.star) fun _ => ?_
  dsimp only
  split
  · exact .pure _
  · exact .bind (report_within (.one rfl)) fun _ => .pure _

theorem encode_within (s : Statement) (p : Placement) : Build.Within reach (encode s p) := by
  have halpha : Build.Within reach (encodeAlpha s p) :=
    .ite (.bind (constantCells_within _) fun _ => .pure _) (.pure _)
  unfold encode
  cases s.kind with
  | dac => exact halpha
  | dsac => exact halpha
  | dc =>
    exact .ite (.pure _) (.bind (constantCells_within _) fun _ => .bind (.ofExcept _) fun _ => .pure _)
  | dsc => exact .ite (.pure _) (constantCells_within _)
  | dnb => exact .ite (.bind (.ofExcept _) fun _ => .pure _) (.pure _)
  | dot => exact .bind (.ofExcept _) fun _ => .pure _
  | dsa => exact .bind (.ofExcept _) fun _ => .lift (putAddresses_within s p _)
  | dda => exact .lift (encodeDisk_within s)
  | dvlc =>
    exact .ite (.pure _) (.bind (.ofExcept _) fun _ => .lift (encodeFieldsFrom_within s _ _ _))
  | instruction =>
    exact .bind (.lift (buildInstruction_within s p)) fun _ => .bind (.ofExcept _) fun _ => .pure _
  | _ => exact .pure _

/-! ## What acts leave alone -/

namespace Assembly

variable {a b c : Assembly}

/-- The messages of `b` are those of `a` and behind them others, none of which is about a label. -/
def Appends (a b : Assembly) : Prop :=
  ∃ ds, b.log.pending = a.log.pending ++ ds ∧ ∀ d ∈ ds, d.cause.concernsLabel = false

theorem Appends.refl (a : Assembly) : Appends a a := ⟨[], by simp⟩

theorem Appends.trans (h : Appends a b) (g : Appends b c) : Appends a c := by
  obtain ⟨ds, hds, hd⟩ := h
  obtain ⟨es, hes, he⟩ := g
  refine ⟨ds ++ es, by rw [hes, hds, List.append_assoc], fun d hmem => ?_⟩
  exact (List.mem_append.mp hmem).elim (hd d) (he d)

theorem appends_raise (a : Assembly) {reports : List (Report Cause)} (h : Unlabelled reports) :
    Appends a (a.raise reports) := by
  obtain ⟨ds, hds, hd⟩ := a.log.pending_raiseAll reports
  refine ⟨ds, hds, fun d hmem => ?_⟩
  obtain ⟨r, hr, hcause⟩ := hd d hmem
  rw [hcause, h r hr]

/-- What a row of acts leaves alone, and what it only adds to. -/
structure Frame (a b : Assembly) : Prop where
  options : b.options = a.options
  memory : b.memory = a.memory
  fault : b.fault = a.fault
  place : b.log.place = a.log.place
  noted : SymbolTable.Noted a.emitting a.symbols b.symbols
  errors : a.log.errorCount ≤ b.log.errorCount
  warnings : a.log.warningCount ≤ b.log.warningCount
  pending : Appends a b

theorem emitting_eq_of_place (h : b.log.place = a.log.place) : b.emitting = a.emitting := by
  have hpass : b.log.pass = a.log.pass := congrArg (·.2.2.1) h
  unfold emitting
  rw [hpass]

theorem Frame.line_eq (h : Frame a b) : b.log.line = a.log.line := congrArg (·.2.2.2) h.place

theorem Frame.refl (a : Assembly) : Frame a a where
  options := rfl
  memory := rfl
  fault := rfl
  place := rfl
  noted := .refl ..
  errors := Nat.le_refl _
  warnings := Nat.le_refl _
  pending := .refl a

theorem Frame.trans (h : Frame a b) (g : Frame b c) : Frame a c where
  options := g.options.trans h.options
  memory := g.memory.trans h.memory
  fault := g.fault.trans h.fault
  place := g.place.trans h.place
  noted := h.noted.trans (emitting_eq_of_place h.place ▸ g.noted)
  errors := Nat.le_trans h.errors g.errors
  warnings := Nat.le_trans h.warnings g.warnings
  pending := h.pending.trans g.pending

theorem raise_frame (a : Assembly) {reports : List (Report Cause)} (h : Unlabelled reports) :
    Frame a (a.raise reports) where
  options := rfl
  memory := rfl
  fault := rfl
  place := a.log.raiseAll_place reports
  noted := .refl ..
  errors := a.log.errorCount_le_raiseAll reports
  warnings := a.log.warningCount_le_raiseAll reports
  pending := a.appends_raise h

end Assembly

theorem Act.frame {a b : Assembly} (h : Act reach a b) : a.Frame b := by
  cases h with
  | report _ reports h => exact a.raise_frame h
  | evaluate _ operand usage =>
    exact { Assembly.Frame.refl a with noted := evaluateIn_noted a.scope usage a.symbols operand }
  | count => exact { Assembly.Frame.refl a with }
  | turn => exact { Assembly.Frame.refl a with }
  | finish => exact { Assembly.Frame.refl a with }

/-- **Acts** leave core, options and the place alone, only note references in the table, never lower
the number of errors or of warnings, and say nothing about labels. -/
theorem Leads.frame {a b : Assembly} (h : Leads reach a b) : a.Frame b := by
  induction h with
  | refl => exact .refl a
  | tail _ hbc ih => exact ih.trans hbc.frame

theorem Leads.counter_eq {a b : Assembly} (h : Leads reach a b) (hreach : reach.counts = false) :
    b.counter = a.counter ∧ b.last = a.last := by
  have hsame : (b.counter, b.last) = (a.counter, a.last) := by
    refine h.same (fun c => (c.counter, c.last)) fun a b hab => ?_
    cases hab with
    | count h => rw [hreach] at h; cases h
    | _ => rfl
  exact ⟨congrArg Prod.fst hsame, congrArg Prod.snd hsame⟩

theorem Leads.head_eq {a b : Assembly} (h : Leads reach a b) (hreach : reach.turns = false) :
    b.head = a.head := by
  refine h.same Assembly.head fun a b hab => ?_
  cases hab with
  | turn h => rw [hreach] at h; cases h
  | _ => rfl

theorem Leads.entry_eq {a b : Assembly} (h : Leads reach a b) (hreach : reach.ends = false) :
    b.ending = a.ending ∧ b.entry = a.entry := by
  have hsame : (b.ending, b.entry) = (a.ending, a.entry) := by
    refine h.same (fun c => (c.ending, c.entry)) fun a b hab => ?_
    cases hab with
    | finish h => rw [hreach] at h; cases h
    | _ => rfl
  exact ⟨congrArg Prod.fst hsame, congrArg Prod.snd hsame⟩

theorem Leads.scope_eq {a b : Assembly} (h : Leads reach a b) (hreach : reach.turns = false) :
    b.scope = a.scope := by
  have hline : b.log.line = a.log.line := h.frame.line_eq
  unfold Assembly.scope
  rw [h.head_eq hreach, hline, h.frame.options, Assembly.emitting_eq_of_place h.frame.place]

end SpsAssembler
