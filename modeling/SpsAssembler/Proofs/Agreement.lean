import SpsAssembler.Proofs.Lockstep

/-!
# The two passes agree

If the first pass raises no error, every layout operand had its value then, and the second pass
gives it the same one. So all statements get the places they had, all labels have the addresses
that their symbols were given, and the program starts where the first pass said.

* `Event.placed?`: the place of a statement;
* `Matched`: a line in the first and in the second pass;
* **`matched_of_visits`**: two passes over the same lines, the first without an error.
-/

namespace SpsAssembler

open Assembly (Agrees Aligned Keeps)

/-- The statement of a line that was processed, and its place. -/
def Event.placed? : Event → Option (Statement × Placement)
  | finished o true => some (o.statement, o.placement)
  | _ => none

variable {a a' b b' : Assembly}

/-! ## One line -/

/-- A line in the first pass and the same line in the second, with the symbols that the first pass
ends with. -/
structure Matched (symbols : SymbolTable) (v w : Visit) : Prop extends Alike v w where
  line : w.line = v.line
  head : w.before.head = v.before.head
  label : w.outcome.statement.kind.definesLabel = true →
    w.outcome.statement.label.isBlank = false →
    symbols.bare? (headKey w.before.head w.outcome.statement.label) =
      some (labelSymbol w.outcome.statement w.outcome.placement w.before.head w.line.number)
  silent : ∀ d ∈ w.raised, d.cause.concernsLabel = false

/-- A state agrees with every aligned one that has its symbols, on operands whose symbols are
settled. -/
theorem Assembly.Aligned.agrees_of_settled {operands : List Text} (h : Aligned a b)
    (hline : b.log.line = a.log.line) (hembeds : a.symbols.Embeds b.symbols)
    (hsettled : ∀ operand ∈ operands, ∀ key ∈ operandKeys a.symbols.divide a.head operand,
      a.symbols.Settled key a.log.line true) : Agrees operands a b where
  toAligned := h
  line := hline
  values operand hmem usage hord := by
    refine rawValue_congr hembeds.divide h.head hline fun key hkey => ?_
    rw [hord]
    exact (hsettled operand hmem key hkey).embeds hembeds

theorem settled_of_handleLine {line : Line} {o : Outcome} {processed : Bool}
    (h : handleLine line a = .ok (o, processed) b) (hmuted : a.log.muted = 0)
    (hcount : b.log.errorCount ≤ a.log.errorCount) :
    ∀ operand ∈ o.statement.layoutOperands, ∀ key ∈ operandKeys a.symbols.divide a.head operand,
      a.symbols.Settled key line.number true := by
  intro operand hmem key hkey
  cases processed with
  | false =>
    unfold Statement.layoutOperands at hmem
    rcases kind_of_unprocessed h with hk | hk <;> rw [hk] at hmem <;> cases hmem
  | true =>
    have hparse := parse_leads line a
    have hkeeps := Keeps.of_frame hparse.frame
    have hline : (parse line (a.atLine line.number)).2.log.line = line.number :=
      hparse.frame.line_eq
    rw [statement_of_handleLine h] at hmem
    have hsettled := (handles_of_handleLine h).settled (hkeeps.muted.trans hmuted)
      (Nat.le_trans hcount hkeeps.errors) hmem key
      (by rwa [hparse.frame.noted.divide, hparse.head_eq rfl])
    rw [hline] at hsettled
    exact hsettled.of_noted hparse.frame.noted

theorem label_of_handleLine {line : Line} {o : Outcome} {processed : Bool}
    (h : handleLine line a = .ok (o, processed) b) (hpass : a.log.pass = 1)
    (hmuted : a.log.muted = 0) (hcount : b.log.errorCount ≤ a.log.errorCount)
    (hkind : o.statement.kind.definesLabel = true) (hblank : o.statement.label.isBlank = false) :
    isLabel a.symbols.divide o.statement.label = true ∧
      b.symbols.bare? (headKey a.head o.statement.label) =
        some (labelSymbol o.statement o.placement a.head line.number) := by
  have hparse := parse_leads line a
  have hkeeps := Keeps.of_frame hparse.frame
  have hline : (parse line (a.atLine line.number)).2.log.line = line.number :=
    hparse.frame.line_eq
  have hprocessed := processed_of_definesLabel h hkind
  subst hprocessed
  rw [statement_of_handleLine h] at hkind hblank ⊢
  have hlabel := (handles_of_handleLine h).label (hkeeps.pass.trans hpass) (hkeeps.muted.trans hmuted)
    (Nat.le_trans hcount hkeeps.errors) hkind hblank
  rwa [hparse.frame.noted.divide, hparse.head_eq rfl, hline] at hlabel

/-- What the second pass raises on a line is not about its label, if that is the one defined on the
line. -/
theorem silent_of_handleLine {w : Visit}
    (h : handleLine w.line w.before = .ok (w.outcome, w.processed) w.after)
    (hpass : w.before.log.pass = 2)
    (hlabel : w.processed = true →
      OwnLabel w.outcome.statement (w.before.atLine w.line.number)) :
    ∀ d ∈ w.raised, d.cause.concernsLabel = false := by
  have hparse := parse_leads w.line w.before
  have hframe := hparse.frame
  have hline : (parse w.line (w.before.atLine w.line.number)).2.log.line = w.line.number :=
    hframe.line_eq
  have hown : w.processed = true → OwnLabel (parse w.line (w.before.atLine w.line.number)).1
      (parse w.line (w.before.atLine w.line.number)).2 := by
    intro hp hkind hblank
    rw [← statement_of_handleLine h] at hkind hblank ⊢
    obtain ⟨hvalid, t, ht, hdefined⟩ := hlabel hp hkind hblank
    rw [hframe.noted.divide, hparse.head_eq rfl, hline]
    exact ⟨hvalid, t, hframe.noted.embeds.bare _ _ ht, hdefined⟩
  obtain ⟨ds, hds, hunlabelled⟩ := hframe.pending.trans
    ((handles_of_handleLine h).unlabelled ((Keeps.of_frame hframe).pass.trans hpass) hown)
  intro d hd
  refine hunlabelled d ?_
  unfold Visit.raised at hd
  rw [hds] at hd
  change d ∈ List.drop w.before.log.pending.length (w.before.log.pending ++ ds) at hd
  rwa [List.drop_left] at hd

/-- **A line that raises no error in the first pass** is matched by the same line in the second. -/
theorem matched_of_handleLine {v w : Visit} {symbols : SymbolTable}
    (hv : handleLine v.line v.before = .ok (v.outcome, v.processed) v.after)
    (hw : handleLine w.line w.before = .ok (w.outcome, w.processed) w.after)
    (hline : w.line = v.line) (hpass1 : v.before.log.pass = 1) (hpass2 : w.before.log.pass = 2)
    (hmuted : v.before.log.muted = 0) (hcount : v.after.log.errorCount ≤ v.before.log.errorCount)
    (haligned : Aligned v.before w.before) (hentry : SameEntry v.before w.before)
    (hafter : v.after.symbols.Embeds symbols) (hbefore : symbols.Embeds w.before.symbols) :
    Matched symbols v w ∧ Aligned v.after w.after ∧ SameEntry v.after w.after := by
  have hembeds : v.before.symbols.Embeds w.before.symbols :=
    ((enters_of_handleLine hv hpass1).embeds.trans hafter).trans hbefore
  have hagrees : Agrees v.outcome.statement.layoutOperands (v.before.atLine v.line.number)
      (w.before.atLine v.line.number) :=
    Assembly.Aligned.agrees_of_settled { haligned with } rfl hembeds
      (settled_of_handleLine hv hmuted hcount)
  obtain ⟨hstatement, hplacement, hprocessed, hnext, hentry'⟩ :=
    handleLine_agree hv (hline ▸ hw) hagrees hentry
  have hlabel := label_of_handleLine hv hpass1 hmuted hcount
  refine ⟨⟨⟨hstatement, hplacement, hprocessed⟩, hline, haligned.head, fun hkind hblank => ?_, ?_⟩,
    hnext, hentry'⟩
  · rw [hstatement] at hkind hblank ⊢
    rw [hplacement, haligned.head, hline]
    exact hafter.bare _ _ (hlabel hkind hblank).2
  · refine silent_of_handleLine hw hpass2 fun _ hkind hblank => ?_
    rw [hstatement] at hkind hblank ⊢
    obtain ⟨hvalid, hsymbol⟩ := hlabel hkind hblank
    have hin := hbefore.bare _ _ (hafter.bare _ _ hsymbol)
    refine ⟨hembeds.divide ▸ hvalid, _, haligned.head.symm ▸ hin, ?_⟩
    rw [hline]
    rfl

/-! ## Whole passes -/

/-- **Two passes over the same lines**, of which the first raises no error, match line by line. -/
theorem matched_of_visits {vs ws : List Visit} (hvs : Visits a vs a') (hws : Visits b ws b')
    (hlines : ws.map Visit.line = vs.map Visit.line) (hpass1 : a.log.pass = 1)
    (hpass2 : b.log.pass = 2) (hmuted : a.log.muted = 0)
    (hcount : a'.log.errorCount ≤ a.log.errorCount) (haligned : Aligned a b)
    (hentry : SameEntry a b) (hembeds : a'.symbols.Embeds b.symbols) :
    List.Forall₂ (Matched a'.symbols) vs ws ∧ SameEntry a' b' := by
  induction hvs generalizing b ws with
  | nil hrests =>
    cases hws with
    | nil hrests' => exact ⟨.nil, hentry.of_registers hrests.registers_eq hrests'.registers_eq⟩
    | cons => cases hlines
  | @cons a a' v vs hrests hv hvs ih =>
    cases hws with
    | nil => cases hlines
    | @cons _ _ w ws hrests' hw hws =>
      obtain ⟨hline, hlines⟩ := List.cons.inj hlines
      have hv1 := hrests.pass.trans hpass1
      have hw2 := hrests'.pass.trans hpass2
      have hvmuted := hrests.muted.trans hmuted
      have hvkeeps := keeps_of_handleLine hv
      have hwkeeps := keeps_of_handleLine hw
      obtain ⟨-, hthis, hrest⟩ := hrests.toKeeps.clean_parts hvkeeps hvs.keeps hcount
      have hbefore : a'.symbols.Embeds w.before.symbols := by rwa [hrests'.symbols_eq]
      obtain ⟨hmatched, hnext, hentry'⟩ := matched_of_handleLine hv hw hline hv1 hw2 hvmuted
        hthis
        (haligned.of_registers hrests.options hrests'.options hrests.registers_eq
          hrests'.registers_eq)
        (hentry.of_registers hrests.registers_eq hrests'.registers_eq)
        (hvs.embeds (hvkeeps.pass.trans hv1)) hbefore
      obtain ⟨hall, hend⟩ := ih hws hlines (hvkeeps.pass.trans hv1) (hwkeeps.pass.trans hw2)
        (hvkeeps.muted.trans hvmuted) hrest hnext hentry'
        (hbefore.trans (noted_of_handleLine hw hw2).embeds)
      exact ⟨.cons hmatched hall, hend⟩

/-! ## The entry -/

theorem Check.correct_of_clean {faulty : Word → Bool} {cause : Word → Cause} {mend : Word → Word}
    {v : Verdict} (h : ∀ r ∈ (correct faulty cause mend v).2, r.isError = false) :
    correct faulty cause mend v = v ∧ faulty v.1 = false := by
  unfold correct at h ⊢
  by_cases hv : faulty v.1 = true
  · rw [if_pos hv] at h
    have hlast := h (error (cause v.1)) (by simp)
    simp [Report.isError, error] at hlast
  · exact ⟨if_neg hv, by simpa using hv⟩

theorem Check.clean_of_correct {faulty : Word → Bool} {cause : Word → Cause} {mend : Word → Word}
    {v : Verdict} (h : ∀ r ∈ (correct faulty cause mend v).2, r.isError = false) :
    ∀ r ∈ v.2, r.isError = false := by
  have heq := (correct_of_clean h).1
  rwa [heq] at h

theorem Check.addressEven_of_clean {size v : Word}
    (h : ∀ r ∈ (Check.addressEven.apply size v).2, r.isError = false) :
    0 ≤ (Check.addressEven.apply size v).1 ∧ (Check.addressEven.apply size v).1 < size := by
  unfold apply inCore at h ⊢
  obtain ⟨heq, hcore⟩ := correct_of_clean h
  rw [heq] at h ⊢
  obtain ⟨heq, -⟩ := correct_of_clean h
  rw [heq] at h hcore ⊢
  obtain ⟨heq, hsign⟩ := correct_of_clean h
  rw [notNegative, heq] at hcore ⊢
  exact ⟨by simpa using hsign, by simpa using hcore⟩

/-- Where the program starts lies in core. -/
def EntryInCore (a : Assembly) : Prop :=
  a.ending ≠ .running → 0 ≤ a.entry ∧ a.entry < a.options.memorySize

theorem EntryInCore.of_registers (h : EntryInCore a) (hregisters : b.registers = a.registers)
    (hoptions : b.options = a.options) : EntryInCore b := by
  simp only [Assembly.registers, Prod.mk.injEq] at hregisters
  intro hrun
  rw [hregisters.2.2.2.1] at hrun
  rw [hregisters.2.2.2.2, hoptions]
  exact h hrun

theorem placeEnd_entryInCore (s : Statement) (hmuted : a.log.muted = 0)
    (hcount : (placeEnd s a).2.log.errorCount ≤ a.log.errorCount)
    (hsize : 0 < a.options.memorySize) : EntryInCore (placeEnd s a).2 := by
  intro _
  have hlabel : Leads .still { a with ending := .ended }
      (unexpectedLabel s { a with ending := .ended }).2 := unexpectedLabel_within s _
  have hoptions : (placeEnd s a).2.options = a.options := (placeEnd_within s a).frame.options
  have hkeeps := Keeps.of_frame hlabel.frame
  rw [hoptions]
  generalize hb : (unexpectedLabel s { a with ending := .ended }).2 = b at hkeeps
  have hentry : (placeEnd s a).2.entry = (evaluateIn b.scope
      { star := b.last, ordered := true, check := .addressEven } b.symbols (s.operand 0)).value := by
    rw [← hb]
    rfl
  have hlog : (placeEnd s a).2.log = b.log.raiseAll (evaluateIn b.scope
      { star := b.last, ordered := true, check := .addressEven } b.symbols (s.operand 0)).reports := by
    rw [← hb]
    simp only [placeEnd, Step.bind_apply, evaluateLayout_apply]
    rfl
  have hclean := b.log.not_isError_of_errorCount (hkeeps.muted.trans hmuted)
    (hlog ▸ Nat.le_trans hcount hkeeps.errors)
  rw [hentry]
  rcases evaluateIn_value_of_clean _ _ _ _ hclean with hzero | ⟨v, hvalue, hv⟩
  · rw [hzero]
    exact ⟨by decide, hsize⟩
  · rw [hvalue]
    have hsame : b.scope.memorySize = a.options.memorySize := by
      change b.options.memorySize = _
      rw [hkeeps.options]
    rw [← hsame]
    exact Check.addressEven_of_clean hv

theorem entryInCore_of_handleLine {line : Line} {o : Outcome} {processed : Bool}
    (h : handleLine line a = .ok (o, processed) b) (hmuted : a.log.muted = 0)
    (hcount : b.log.errorCount ≤ a.log.errorCount) (hsize : 0 < a.options.memorySize)
    (hentry : EntryInCore a) : EntryInCore b := by
  have hparse := parse_leads line a
  have hkeeps := Keeps.of_frame hparse.frame
  have hparsed : EntryInCore (parse line (a.atLine line.number)).2 :=
    hentry.of_registers hparse.registers_eq hkeeps.options
  cases handles_of_handleLine h with
  | comment => exact hparsed
  | overrun => exact hparsed
  | beyond _ he => exact fun _ => hparsed (by rw [he]; decide)
  | processed _ he hp =>
    have hprocessed := processed_of_process hp
    refine EntryInCore.of_registers ?_ hprocessed.registers_eq hprocessed.options_eq
    generalize (parse line (a.atLine line.number)).1 = s at hp hprocessed
    generalize (parse line (a.atLine line.number)).2 = c at *
    by_cases hkind : s.kind = .dend
    · have hplace : place s c = placeEnd s c := by rw [place, hkind]
      have hplaced := (beforeLabel_of_place s c).frame.errors
      have hlabelled := (beforeLabel_keeps s c).errors
      have hencoded := hprocessed.keeps_layOut.errors
      have herrors : a.log.errorCount ≤ c.log.errorCount := hkeeps.errors
      have hoptions : c.options = a.options := hkeeps.options
      rw [hplace] at hplaced ⊢
      exact placeEnd_entryInCore s (hkeeps.muted.trans hmuted) (by omega) (by rwa [hoptions])
    · have hreach : s.kind.reach.ends = false := by
        cases hk : s.kind <;> first | rfl | exact absurd hk hkind
      intro hrun
      rw [((place_within s c).entry_eq hreach).1, he] at hrun
      exact absurd rfl hrun

/-- **The entry lies in core** behind a pass that raises no error. -/
theorem entryInCore_of_visits {vs : List Visit} (hvs : Visits a vs a') (hmuted : a.log.muted = 0)
    (hcount : a'.log.errorCount ≤ a.log.errorCount) (hsize : 0 < a.options.memorySize)
    (hentry : EntryInCore a) : EntryInCore a' := by
  induction hvs with
  | nil hrests => exact hentry.of_registers hrests.registers_eq hrests.options
  | @cons a a' v vs hrests hv hvs ih =>
    have hvkeeps := keeps_of_handleLine hv
    obtain ⟨-, hthis, hrest⟩ := hrests.toKeeps.clean_parts hvkeeps hvs.keeps hcount
    have hvmuted := hrests.muted.trans hmuted
    have hvsize : 0 < v.before.options.memorySize := hrests.options.symm ▸ hsize
    refine ih (hvkeeps.muted.trans hvmuted) hrest (hvkeeps.options ▸ hvsize) ?_
    exact entryInCore_of_handleLine hv hvmuted hthis hvsize
      (hentry.of_registers hrests.registers_eq hrests.options)

/-! ## Programs -/

theorem memorySizes_pos {size : Word} (h : size ∈ memorySizes) : 0 < size ∧ size ≤ 100000 := by
  obtain ⟨hmin, hmax⟩ := toInt_of_mem_memorySizes h
  rw [Int64.lt_iff_toInt_lt, Int64.le_iff_toInt_le, show (0 : Word).toInt = 0 from rfl,
    show (100000 : Word).toInt = 100000 from rfl]
  omega

theorem exists_of_mem_forall₂ {α β : Type} {R : α → β → Prop} {xs : List α} {ys : List β}
    (h : List.Forall₂ R xs ys) {y : β} (hy : y ∈ ys) : ∃ x ∈ xs, R x y := by
  induction h with
  | nil => cases hy
  | cons hxy _ ih =>
    rcases List.mem_cons.mp hy with rfl | hy
    · exact ⟨_, List.mem_cons_self, hxy⟩
    · obtain ⟨x, hx, hxy⟩ := ih hy
      exact ⟨x, List.mem_cons_of_mem _ hx, hxy⟩

theorem TwoPasses.matched {options : Options} {first second : Reading Line} {run : Run}
    {program : Program} {a b c d : Assembly} {vs ws : List Visit}
    (h : TwoPasses options first second run program a b c d) (hclean : b.log.errorCount = 0)
    (hvs : Visits (a.reset 1) vs b) (hws : Visits c ws d)
    (hlines : ws.map Visit.line = vs.map Visit.line) :
    List.Forall₂ (Matched b.symbols) vs ws ∧ SameEntry b d := by
  obtain ⟨haligned, hpass, hsymbols⟩ := h.aligned
  have hembeds : b.symbols.Embeds c.symbols := by
    rw [hsymbols]
    exact .refl _
  exact matched_of_visits hvs hws hlines rfl hpass h.audible.1 (by omega) haligned
    (fun hrun => absurd rfl hrun) hembeds

/-- **The passes that make a program** over the same lines, the first without an error, match. -/
theorem matched_of_assemble {options : Options} {first second : Reading Line} {run : Run}
    {program : Program} {a b c d : Assembly} (hlines : first.lines = second.lines)
    (h : TwoPasses options first second run program a b c d) (hclean : b.log.errorCount = 0) :
    ∃ vs ws, Visits (a.reset 1) vs b ∧ Visits c ws d ∧ Recorded run.first vs ∧
      Recorded run.second ws ∧ List.Forall₂ (Matched b.symbols) vs ws ∧ b.ending ≠ .running ∧
      d.entry = b.entry := by
  obtain ⟨vs, ws, hvs, hws, hvlines, hwlines, hvrec, hwrec, hvend⟩ := h.visits
  obtain ⟨hmatched, hentry⟩ := h.matched hclean hvs hws (by rw [hvlines, hwlines, hlines])
  exact ⟨vs, ws, hvs, hws, hvrec, hwrec, hmatched, hvend hclean, hentry (hvend hclean)⟩

theorem silent_of_matched {symbols : SymbolTable} {events : List Event} {vs ws : List Visit}
    (hws : Recorded events ws) (h : List.Forall₂ (Matched symbols) vs ws) :
    ∀ d ∈ events.filterMap Event.diagnostic?, d.cause.concernsLabel = false := by
  intro d hd
  obtain ⟨e, he, hed⟩ := List.mem_filterMap.mp hd
  have hraised : e = .raised d := by
    cases e <;> cases hed
    rfl
  subst hraised
  by_contra hlabel
  obtain ⟨w, hw, hmem⟩ := hws.raised d he (by simpa using hlabel)
  obtain ⟨v, -, hmatched⟩ := exists_of_mem_forall₂ h hw
  exact hlabel (hmatched.silent d hmem)

theorem places_of_alike {es fs : List Event} {vs ws : List Visit} (hvs : Recorded es vs)
    (hws : Recorded fs ws) (h : List.Forall₂ Alike vs ws) :
    es.filterMap Event.placed? = fs.filterMap Event.placed? := by
  refine filterMap_of_alike hvs hws h (fun e he => ?_) fun v w hvw => ?_
  · cases e <;> first | rfl | cases he
  · unfold Visit.event
    rw [hvw.processed]
    cases v.processed
    · rfl
    · exact congrArg some (Prod.ext hvw.statement.symm hvw.placement.symm)

theorem symbol_of_matched {symbols table : SymbolTable} {v w : Visit}
    (h : Matched symbols v w) (hembeds : symbols.Embeds table)
    (hw : handleLine w.line w.before = .ok (w.outcome, w.processed) w.after)
    (hkind : w.outcome.statement.kind.definesLabel = true)
    (hblank : w.outcome.statement.label.isBlank = false) :
    ∃ s, table.get? (headKey w.before.head w.outcome.statement.label) = some s ∧
      s.address = w.outcome.placement.labelAddress ∧
      s.defined = w.outcome.statement.line.number := by
  have hbare := hembeds.bare _ _ (h.label hkind hblank)
  obtain ⟨s, hs, heq⟩ := Option.map_eq_some_iff.mp hbare
  have hline : w.outcome.statement.line = w.line := by
    rw [statement_of_handleLine hw, parse_line]
  refine ⟨s, hs, ?_, ?_⟩
  · exact congrArg Symbol.address heq
  · rw [hline]
    exact congrArg Symbol.defined heq

/-- Every label of the second pass has its symbol, under the head that the statements before it
leave in force. -/
theorem labels_of_matched {symbols : SymbolTable} {vs ws : List Visit} {c d : Assembly}
    (hws : Visits c ws d) (h : List.Forall₂ (Matched symbols) vs ws)
    (hembeds : symbols.Embeds d.symbols) (hhead : c.head = Byte.blank) :
    ∀ before o after, ws.map Visit.result = before ++ o :: after →
      o.statement.kind.definesLabel = true → o.statement.label.isBlank = false →
      ∃ s, d.symbols.get? (headKey (headBehind (before.map Outcome.statement)) o.statement.label) =
          some s ∧
        s.address = o.placement.labelAddress ∧ s.defined = o.statement.line.number := by
  intro before o after hsplit hkind hblank
  obtain ⟨earlier, rest, rfl, rfl, hrest⟩ := List.map_eq_append_iff.mp hsplit
  obtain ⟨w, later, rfl, rfl, -⟩ := List.map_eq_cons_iff.mp hrest
  obtain ⟨hearlier, hw, -⟩ := hws.split
  obtain ⟨v, -, hmatched⟩ := exists_of_mem_forall₂ h (by simp : w ∈ earlier ++ w :: later)
  have hforce : w.before.head = headBehind ((earlier.map Visit.result).map Outcome.statement) := by
    rw [hearlier.head_eq, hhead, List.map_map]
    rfl
  rw [← hforce]
  exact symbol_of_matched hmatched hembeds hw hkind hblank

theorem concernsLabel_eq_false {c : Cause} (h : c.concernsLabel = false) (label : Text) :
    c ≠ .duplicateLabel label ∧ c ≠ .invalidLabel label := by
  constructor
  · rintro rfl
    cases h
  · rintro rfl
    cases h

theorem startup_of_entryInCore {startup : Value} (h : (b.reset 2).load = .ok (a, startup))
    (hentry : EntryInCore b) (hending : b.ending ≠ .running)
    (hsize : b.options.memorySize ≤ 100000) : startup.field 30 5 = .ok b.entry := by
  obtain ⟨-, hstartup⟩ := load_eq h
  obtain ⟨hlo, hhi⟩ := hentry hending
  rw [Int64.le_iff_toInt_le] at hlo hsize
  rw [Int64.lt_iff_toInt_lt] at hhi
  rw [hstartup]
  exact Memory.field_startup hlo (Int.lt_of_lt_of_le hhi hsize) _

/-- **The two passes agree.** If the first pass over the lines of a source raises no error, the
layouts of the passes are the same, and so is the place of every processed statement; every label
that is defined has the symbol with its address and its line; the second pass finds nothing wrong
with a label; and the start instructions branch to the entry of the program. -/
theorem passes_agree {options : Options} {first second : Reading Line} {run : Run}
    {program : Program} (hsize : options.memorySize ∈ memorySizes)
    (hlines : first.lines = second.lines) (hrun : assemble options first second = .ok run)
    (hprogram : run.result = .ok program) (hclean : program.pass1.errors = 0) :
    program.layout1 = program.layout2 ∧
    run.first.filterMap Event.placed? = run.second.filterMap Event.placed? ∧
    (∀ before o after, program.outcomes = before ++ o :: after →
      o.statement.kind.definesLabel = true → o.statement.label.isBlank = false →
      ∃ s, program.symbols.get?
          (headKey (headBehind (before.map Outcome.statement)) o.statement.label) = some s ∧
        s.address = o.placement.labelAddress ∧ s.defined = o.statement.line.number) ∧
    (∀ d ∈ run.second.filterMap Event.diagnostic?, ∀ label,
      d.cause ≠ .duplicateLabel label ∧ d.cause ≠ .invalidLabel label) ∧
    program.startup.field 30 5 = .ok program.entry := by
  obtain ⟨a, b, c, d, h⟩ := twoPasses_of_assemble hrun hprogram
  have hprog := h.program_eq
  have hcount : b.log.errorCount = 0 := by rw [hprog] at hclean; exact hclean
  obtain ⟨vs, ws, hvs, hws, hvrec, hwrec, hmatched, hrunning, hentry⟩ :=
    matched_of_assemble hlines h hcount
  obtain ⟨hload, -⟩ := load_eq h.load
  obtain ⟨-, hstart⟩ := start_eq h.start
  have hoptions : a.options = options := by rw [hstart]
  obtain ⟨hpos, hmax⟩ := memorySizes_pos hsize
  have hembeds : b.symbols.Embeds d.symbols := by
    have hnoted := hws.noted (by rw [hload]; rfl)
    rw [hload] at hnoted
    exact hnoted.embeds
  have hcore : EntryInCore b := entryInCore_of_visits hvs (by rw [hstart]; rfl) (by omega)
    (by rw [← hoptions] at hpos; exact hpos) (fun hrun => absurd rfl hrun)
  have halike : List.Forall₂ Alike vs ws := hmatched.imp fun _ _ => Matched.toAlike
  refine ⟨?_, places_of_alike hvrec hwrec halike, ?_, ?_, ?_⟩
  · rw [hprog]
    exact layout_of_alike hvrec hwrec halike
  · rw [hprog]
    dsimp only
    rw [hwrec.outcomes]
    exact labels_of_matched hws hmatched hembeds (by rw [hload]; rfl)
  · intro x hx
    exact concernsLabel_eq_false (silent_of_matched hwrec hmatched x hx)
  · rw [hprog]
    dsimp only
    rw [hentry]
    exact startup_of_entryInCore h.load hcore hrunning
      (by rw [hvs.keeps.options]; exact hoptions ▸ hmax)

/-- A source with a head, and with a label in an operand that sets a length. -/
def headedSource : Reading Line where
  items := [
    .line { number := 1, label := ascii "A", operation := ascii "DS", operands := ascii "5" },
    .line { number := 2, operation := ascii "HEAD", operands := ascii "X" },
    .line { number := 3, label := ascii "A", operation := ascii "DS", operands := ascii "3" },
    .line { number := 4, label := ascii "B", operation := ascii "DS", operands := ascii "A-400" },
    .line { number := 5, operation := ascii "DEND", operands := ascii "B" }]

theorem headedSource_assembles : ∃ run program,
    assemble { memorySize := 20000 } headedSource headedSource = .ok run ∧
      run.result = .ok program ∧ program.pass1.errors = 0 ∧ program.pass2.errors = 0 := by
  exact assemble_of_errorCounts rfl (by decide) rfl rfl (by decide +kernel)

theorem passes_agree_headedSource : ∃ run program,
    assemble { memorySize := 20000 } headedSource headedSource = .ok run ∧
      run.result = .ok program ∧ program.pass1.errors = 0 ∧ program.layout1 = program.layout2 ∧
      program.startup.field 30 5 = .ok program.entry := by
  obtain ⟨run, program, hrun, hprogram, hclean, -⟩ := headedSource_assembles
  obtain ⟨hlayout, -, -, -, hentry⟩ := passes_agree (by decide) rfl hrun hprogram hclean
  exact ⟨run, program, hrun, hprogram, hclean, hlayout, hentry⟩

end SpsAssembler
