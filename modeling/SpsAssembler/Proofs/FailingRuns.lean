import SpsAssembler.Proofs.Echo
import SpsAssembler.Proofs.Stability

/-!
# Failing runs show why

The second pass is the one whose messages are listed. It raises an error wherever the first pass did,
with two exceptions: a label with a head of its own may be referred to but not defined, which only
the first pass reports; and a label in a layout operand of its own statement is not yet defined in the
first pass.

* `Statement.HidesLabel`: a label that only the first pass refuses;
* `SymbolTable.define_eq_nil`: a label that the second pass accepts was accepted by the first;
* **`handleLine_echo`**: one line in both passes; **`errors_of_unbroken`**: all lines;
* **`no_hidden_errors`**: the passes of a run.
-/

namespace SpsAssembler

open Assembly (Agrees Aligned Keeps)

variable {s : Statement} {a b a' b' : Assembly} {o o' : Outcome} {processed processed' : Bool}
  {vs ws : List Visit} {m n : Nat}

/-- A statement that defines its label, which may be referred to but not defined. -/
def Statement.HidesLabel (divide : Bool) (s : Statement) : Prop :=
  s.kind.definesLabel = true ∧ isSymbol divide s.label = true ∧ isLabel divide s.label = false

/-! ## Labels -/

/-- A label that is found in order in a table is accepted by one that it extends, if all symbols of
that one were defined on other lines. -/
theorem SymbolTable.define_eq_nil {t u : SymbolTable} {name : Text} {address line : Word} {kind : Kind}
    {head : Byte} (hembeds : Embeds t u)
    (hlabel : isSymbol t.divide name = true → isLabel t.divide name = true)
    (hother : ∀ key s, t.bare? key = some s → s.isResolved = true ∧ s.defined ≠ line)
    (h : ∀ r ∈ u.verify name line head, r.isError = false) :
    (t.define name address kind line head).2 = [] := by
  have herror : ∀ c, ¬ ∀ r ∈ [error c], r.isError = false := fun c hc => by
    simpa [Report.isError, error] using hc (error c) List.mem_cons_self
  unfold verify at h
  unfold define
  by_cases hblank : name.isBlank = true
  · rw [if_pos hblank]
  · rw [if_neg hblank] at h ⊢
    rw [hembeds.divide] at h
    by_cases hsymbol : isSymbol t.divide name = true
    · rw [if_neg (by simp [hlabel hsymbol])]
      rw [if_neg (by simp [hsymbol])] at h
      cases hkey : t.get? (headKey head name) with
      | none => simp [hkey]
      | some s =>
        obtain ⟨hresolved, hline⟩ := hother _ _ (bare?_of_get? hkey)
        obtain ⟨r, hr, hbare⟩ := Option.map_eq_some_iff.mp (hembeds.bare _ _ (bare?_of_get? hkey))
        have hresolved' : r.isResolved = true := by rw [← Symbol.bare_isResolved, hbare, hresolved]
        have hline' : r.defined ≠ line := by
          rw [← Symbol.bare_defined, hbare]
          exact hline
        simp only [hr, hresolved', Bool.true_and, bne_iff_ne, ne_eq, hline', not_false_eq_true,
          if_true] at h
        exact absurd h (herror _)
    · rw [if_pos (by simpa using hsymbol)] at h
      exact absurd h (herror _)

/-! ## One line -/

theorem beforeLabel_echo (h : Echo s.layoutOperands m n a b) :
    Echo s.layoutOperands m n (beforeLabel s a) (beforeLabel s b) := by
  have htracks := echo_tracks s.layoutOperands m n
  obtain ⟨hp, hplaced⟩ := place_relates htracks a b h
  unfold beforeLabel
  split
  · rw [hp]
    exact (checkBounds_relates htracks _ _ _ hplaced).2
  · exact hplaced

theorem layOut_echo (hpass1 : a.log.pass = 1) (hpass2 : b.log.pass = 2)
    (h : Echo s.layoutOperands m n a b) (hembeds : a.symbols.Embeds b.symbols)
    (hother : ∀ key t, a.symbols.bare? key = some t → t.isResolved = true ∧ t.defined ≠ a.log.line)
    (hlabel : ¬ s.HidesLabel a.symbols.divide) (hclean : (layOut s b).2.log.errorCount ≤ n) :
    (layOut s a).2.log.errorCount ≤ m := by
  have hecho := beforeLabel_echo h
  have hframe := place_frame s a
  have hline : (beforeLabel s a).log.line = a.log.line := hframe.line_eq
  have hline' : (beforeLabel s b).log.line = b.log.line := (place_frame s b).line_eq
  have hnoted := noted_of_first hpass1 hframe
  rw [layOut_second s b (by rw [hpass2]; decide)] at hclean
  have hlabelled := Nat.le_trans ((beforeLabel s b).log.errorCount_le_raiseAll _) hclean
  rw [layOut_apply]
  dsimp only
  split
  · rename_i hkind
    rcases defineLabel_apply s (place s a).1 (beforeLabel s a) with ⟨-, hdefine⟩ | ⟨hne, -⟩
    · rw [if_pos hkind] at hclean
      have hverified := (beforeLabel s b).log.not_isError_of_errorCount hecho.audible.2
        (Nat.le_trans hclean hecho.since)
      have hnil : ((beforeLabel s a).symbols.define s.label (place s a).1.labelAddress s.kind
          (beforeLabel s a).log.line (beforeLabel s a).head).2 = [] := by
        refine SymbolTable.define_eq_nil (u := (beforeLabel s b).symbols) ⟨hecho.divide, ?_⟩ ?_ ?_ ?_
        · intro key t ht
          rw [hnoted.bare_eq] at ht
          exact (place_frame s b).noted.embeds.bare key t (hembeds.bare key t ht)
        · rw [hnoted.divide]
          intro hsymbol
          by_contra hinvalid
          exact hlabel ⟨hkind, hsymbol, by simpa using hinvalid⟩
        · intro key t ht
          rw [hnoted.bare_eq] at ht
          rw [hline]
          exact hother key t ht
        · rwa [← hecho.line, ← hecho.head, beforeLabel_head hkind b, hline']
      rw [hdefine, hnil]
      exact hecho.errors hlabelled
    · exact absurd ((Keeps.of_frame hframe).pass.trans hpass1) hne
  · exact hecho.errors hlabelled

theorem handles_echo (ha : Handles s a o processed a') (hb : Handles s b o' processed' b')
    (hpass1 : a.log.pass = 1) (hpass2 : b.log.pass = 2) (h : Echo s.layoutOperands m n a b)
    (hembeds : a.symbols.Embeds b.symbols)
    (hother : ∀ key t, a.symbols.bare? key = some t → t.isResolved = true ∧ t.defined ≠ a.log.line)
    (hlabel : ¬ s.HidesLabel a.symbols.divide) (hclean : b'.log.errorCount ≤ n) :
    a'.log.errorCount ≤ m := by
  have hsame := h.errors (Nat.le_trans hb.keeps.errors hclean)
  cases ha.alike hb h.ending with
  | comment => exact hsame
  | overrun => exact hsame
  | processed _ _ hp hq =>
    rw [(processed_of_process hp).first hpass1]
    refine layOut_echo hpass1 hpass2 h hembeds hother hlabel ?_
    exact Nat.le_trans (processed_of_process hq).keeps_layOut.errors hclean
  | beyond => exact (h.raise (.one rfl : Unlabelled [error .beyondEnd])).errors hclean

/-- **One line in both passes**: without an error in the second, it has none in the first. -/
theorem handleLine_echo {line : Line} (ha : handleLine line a = .ok (o, processed) a')
    (hb : handleLine line b = .ok (o', processed') b') (hpass1 : a.log.pass = 1)
    (hpass2 : b.log.pass = 2)
    (h : Echo o.statement.layoutOperands m n (a.atLine line.number) (b.atLine line.number))
    (hembeds : a.symbols.Embeds b.symbols)
    (hother : ∀ key t, a.symbols.bare? key = some t → t.isResolved = true ∧ t.defined ≠ line.number)
    (hlabel : ¬ o.statement.HidesLabel a.symbols.divide) (hclean : b'.log.errorCount ≤ n) :
    a'.log.errorCount ≤ m := by
  have hframe := (parse_leads line a).frame
  have hframe' := (parse_leads line b).frame
  have hnoted := noted_of_first (a := a.atLine line.number) hpass1 hframe
  have hline : (parse line (a.atLine line.number)).2.log.line = line.number :=
    hframe.line_eq
  rw [statement_of_handleLine ha] at h hlabel
  obtain ⟨hparse, hparsed⟩ := parse_relates (echo_tracks _ m n) h
  have hhb := handles_of_handleLine hb
  rw [hparse] at hhb
  refine handles_echo (handles_of_handleLine ha) hhb ((Keeps.of_frame hframe).pass.trans hpass1)
    ((Keeps.of_frame hframe').pass.trans hpass2) hparsed ?_ ?_ ?_ hclean
  · refine ⟨hparsed.divide, fun key t ht => ?_⟩
    rw [hnoted.bare_eq] at ht
    exact hframe'.noted.embeds.bare key t (hembeds.bare key t ht)
  · intro key t ht
    rw [hnoted.bare_eq] at ht
    rw [hline]
    exact hother key t ht
  · rwa [hnoted.divide]

/-! ## All lines -/

/-- On a line of the first pass, a symbol other than the label of that line that is settled in the end
is settled already. -/
theorem settled_of_later {v : Visit} (h : Visits a (v :: vs) b) (hpass : a.log.pass = 1)
    (hlater : ∀ u ∈ vs, v.line.number < u.line.number) {key : Text}
    (hkey : v.outcome.statement.kind.definesLabel = true →
      key ≠ headKey v.before.head v.outcome.statement.label)
    (hsettled : b.symbols.Settled key v.line.number true) :
    a.symbols.Settled key v.line.number true := by
  obtain ⟨s, hs, hresolved, hdefined⟩ := hsettled
  rcases h.entered hpass key with hsame | ⟨-, u, hu, hs', hkind, hown, -⟩
  · exact ⟨s, hsame ▸ hs, hresolved, hdefined⟩
  · rcases List.mem_cons.mp hu with rfl | hu
    · exact absurd hown (hkey hkind)
    · obtain rfl := Option.some.inj (hs.symm.trans hs')
      exact absurd (hlater u hu) (Int64.not_lt.mpr (hdefined rfl))

theorem echo_of_later {v : Visit} {w : Assembly} (h : Visits a (v :: vs) b)
    (hpass : a.log.pass = 1) (hlater : ∀ u ∈ vs, v.line.number < u.line.number)
    (hnoted : SymbolTable.Noted true b.symbols w.symbols) (haligned : Aligned v.before w)
    (haudible : v.before.log.muted = 0 ∧ w.log.muted = 0)
    (hself : ¬ v.outcome.statement.PlacesItself v.before.symbols.divide v.before.head) :
    Echo v.outcome.statement.layoutOperands v.before.log.errorCount w.log.errorCount
      (v.before.atLine v.line.number) (w.atLine v.line.number) where
  toAligned := { haligned with }
  line := rfl
  audible := haudible
  divide := by
    have hbefore : v.before.symbols = a.symbols := by
      cases h with
      | cons hrests => exact hrests.symbols_eq
    change w.symbols.divide = v.before.symbols.divide
    rw [hnoted.divide, (h.embeds hpass).divide, hbefore]
  keys operand hmem key hkey := by
    have hbefore : v.before.symbols = a.symbols := by
      cases h with
      | cons hrests => exact hrests.symbols_eq
    have hown : v.outcome.statement.kind.definesLabel = true →
        key ≠ headKey v.before.head v.outcome.statement.label := by
      rintro hkind rfl
      exact hself ⟨hkind, operand, hmem, hkey⟩
    change w.symbols.valueAt key v.line.number true = v.before.symbols.valueAt key v.line.number true ∧
      (w.symbols.Settled key v.line.number true → v.before.symbols.Settled key v.line.number true)
    rw [hnoted.valueAt_eq, hbefore]
    exact ⟨valueAt_of_later h hpass hlater hown,
      fun hs => settled_of_later h hpass hlater hown (hs.of_noted hnoted)⟩
  since := Nat.le_refl _
  errors _ := Nat.le_refl _

/-- Every symbol is defined, and on a line before the given ones. -/
def DefinedBefore (vs : List Visit) (a : Assembly) : Prop :=
  ∀ key t, a.symbols.bare? key = some t →
    t.isResolved = true ∧ ∀ v ∈ vs, t.defined < v.line.number

theorem DefinedBefore.handleLine {v : Visit} (h : DefinedBefore (v :: vs) v.before)
    (hv : handleLine v.line v.before = .ok (v.outcome, v.processed) v.after)
    (hpass : v.before.log.pass = 1) (hpositive : 0 < v.line.number)
    (hlater : ∀ u ∈ vs, v.line.number < u.line.number) : DefinedBefore vs v.after := by
  intro key t ht
  rcases (enters_of_handleLine hv hpass).bare key with hsame | ⟨-, -, -, hnew, -⟩
  · obtain ⟨hresolved, hlt⟩ := h key t (hsame ▸ ht)
    exact ⟨hresolved, fun u hu => hlt u (List.mem_cons_of_mem _ hu)⟩
  · obtain rfl := Option.some.inj (ht.symm.trans hnew)
    exact ⟨decide_eq_true hpositive, hlater⟩

/-- **A second pass without an error** follows a first one without, over lines with ascending numbers,
unless a label stands where only the first pass refuses it. -/
theorem errors_of_unbroken (hvs : Unbroken a vs a') (hws : Unbroken b ws b')
    (hlines : ws.map Visit.line = vs.map Visit.line)
    (hascending : (vs.map Visit.line).Pairwise fun l m => l.number < m.number)
    (hpositive : ∀ v ∈ vs, 0 < v.line.number) (hpass1 : a.log.pass = 1) (hpass2 : b.log.pass = 2)
    (haudible : a.log.muted = 0 ∧ b.log.muted = 0) (haligned : Aligned a b) (hentry : SameEntry a b)
    (hnoted : SymbolTable.Noted true a'.symbols b.symbols)
    (hearlier : DefinedBefore vs a)
    (hself : ∀ v ∈ vs,
      ¬ v.outcome.statement.PlacesItself v.before.symbols.divide v.before.head ∧
        ¬ v.outcome.statement.HidesLabel v.before.symbols.divide)
    (hclean : b'.log.errorCount ≤ b.log.errorCount) :
    a'.log.errorCount ≤ a.log.errorCount ∧ Aligned a' b' := by
  induction hvs generalizing b ws with
  | nil h =>
    cases hws with
    | nil g =>
      exact ⟨Nat.le_of_eq h.errors_eq, haligned.of_registers h.options g.options h.registers_eq
        g.registers_eq⟩
    | cons => cases hlines
  | @cons a a' v vs h hv hvs ih =>
    cases hws with
    | nil => cases hlines
    | @cons _ _ w ws g hw hws =>
      obtain ⟨hline, hlines⟩ := List.cons.inj hlines
      obtain ⟨hlater, hascending⟩ := List.pairwise_cons.mp hascending
      have hlater' : ∀ u ∈ vs, v.line.number < u.line.number :=
        fun u hu => hlater _ (List.mem_map_of_mem hu)
      have hrow : Visits a (v :: vs) a' := .cons h.toRests hv hvs.visits
      have hv1 := h.pass.trans hpass1
      have hw2 := g.pass.trans hpass2
      have hmuted : v.before.log.muted = 0 ∧ w.before.log.muted = 0 := by
        rw [h.muted, g.muted]
        exact haudible
      have hbefore := haligned.of_registers h.options g.options h.registers_eq g.registers_eq
      have hentry' := hentry.of_registers h.registers_eq g.registers_eq
      have hnoted' : SymbolTable.Noted true a'.symbols w.before.symbols := by rwa [g.symbols_eq]
      obtain ⟨hplaces, hhides⟩ := hself v List.mem_cons_self
      have hearlier' : DefinedBefore (v :: vs) v.before := by
        unfold DefinedBefore
        rwa [h.symbols_eq]
      have hkept := hws.visits.keeps.errors
      have hwclean : w.after.log.errorCount ≤ w.before.log.errorCount := by
        rw [g.errors_eq]
        omega
      -- this line
      have hvclean : v.after.log.errorCount ≤ v.before.log.errorCount := by
        refine handleLine_echo hv (hline ▸ hw) hv1 hw2
          (echo_of_later hrow hpass1 hlater' hnoted' hbefore hmuted hplaces) ?_ ?_ hhides hwclean
        · rw [h.symbols_eq]
          exact (hrow.embeds hpass1).trans hnoted'.embeds
        · intro key t ht
          obtain ⟨hresolved, hlt⟩ := hearlier' key t ht
          exact ⟨hresolved, Int64.ne_of_lt (hlt v List.mem_cons_self)⟩
      have hagrees := agrees_of_later hrow hpass1 hlater' hnoted' hbefore hplaces
      obtain ⟨-, -, -, hnext, hentryNext⟩ := handleLine_agree hv (hline ▸ hw) hagrees hentry'
      -- the lines behind it
      have haudible' : v.after.log.muted = 0 ∧ w.after.log.muted = 0 := by
        rw [(keeps_of_handleLine hv).muted, (keeps_of_handleLine hw).muted]
        exact hmuted
      have hcleanNext : b'.log.errorCount ≤ w.after.log.errorCount := by
        have hgrown := (keeps_of_handleLine hw).errors
        rw [← g.errors_eq] at hclean
        omega
      obtain ⟨hrest, hend⟩ := ih hws hlines hascending
        (fun u hu => hpositive u (List.mem_cons_of_mem _ hu)) ((keeps_of_handleLine hv).pass.trans hv1)
        ((keeps_of_handleLine hw).pass.trans hw2) haudible' hnext hentryNext
        (hnoted'.trans (noted_of_handleLine hw hw2))
        (hearlier'.handleLine hv hv1 (hpositive v List.mem_cons_self) hlater')
        (fun u hu => hself u (List.mem_cons_of_mem _ hu)) hcleanNext
      refine ⟨?_, hend⟩
      rw [← h.errors_eq]
      omega

/-! ## Programs -/

/-- A statement of the first pass whose label only the first pass refuses, or that has its own label in
a layout operand. -/
def Run.Obscure (run : Run) (divide : Bool) : Prop :=
  ∃ before o after, run.first.filterMap Event.outcome? = before ++ o :: after ∧
    (o.statement.HidesLabel divide ∨
      o.statement.PlacesItself divide (headBehind (before.map Outcome.statement)))

theorem Visits.outcome_of_mem (hvs : Visits a vs b) (hpass : a.log.pass = 1)
    (hhead : a.head = Byte.blank) {events : List Event} (hrec : Recorded events vs) {v : Visit}
    (hv : v ∈ vs) :
    ∃ before o after, events.filterMap Event.outcome? = before ++ o :: after ∧
      o.statement = v.outcome.statement ∧ v.before.symbols.divide = a.symbols.divide ∧
      v.before.head = headBehind (before.map Outcome.statement) := by
  obtain ⟨before, after, rfl⟩ := List.append_of_mem hv
  obtain ⟨hbefore, -⟩ := hvs.split
  refine ⟨before.map Visit.result, v.result, after.map Visit.result, ?_, rfl,
    (hbefore.embeds hpass).divide, ?_⟩
  · rw [hrec.outcomes, List.map_append, List.map_cons]
  · rw [hbefore.head_eq, hhead, List.map_map]
    rfl

/-- A run without obscure labels whose second pass raises no error raised none in the first. -/
theorem TwoPasses.errors_eq_zero {options : Options} {source : Reading Line} {run : Run}
    {program : Program} {c d : Assembly} (h : TwoPasses options source source run program a b c d)
    (hpositive : ∀ l ∈ source.lines, 0 < l.number)
    (hascending : source.lines.Pairwise fun l m => l.number < m.number)
    (hobscure : ¬ run.Obscure options.divide) (hclean : d.log.errorCount = 0) :
    b.log.errorCount = 0 := by
  obtain ⟨haligned, hpass, hsymbols⟩ := h.aligned
  have hstart := (start_eq h.start).2
  have hmuted : (a.reset 1).log.muted = 0 := by rw [hstart]; rfl
  obtain ⟨swept, b', hsweep, houtcomes, hrests, hend⟩ := sweep_of_runPass h.pass1 h.failure1
  obtain ⟨swept', d', hsweep', -, -, hend'⟩ := sweep_of_runPass h.pass2 h.failure2
  obtain ⟨vs, hvs, hvlines, hvrec, hunbroken⟩ := rows_of_sweep hsweep
  obtain ⟨ws, hws, hwlines, -, hunbroken'⟩ := rows_of_sweep hsweep'
  have hmuted' : c.log.muted = 0 := by
    rw [(load_eq h.load).1]
    exact (hvs.keeps.trans hrests.toKeeps).muted.trans hmuted
  -- the second pass has read all of the source, and has met the end of the program
  obtain ⟨hended, rfl⟩ : d'.ending ≠ .running ∧ d = d' :=
    hend'.resolve_right fun hrunning => hrunning.2 hmuted' hclean
  have hreadable := readable_of_sweep hsweep' hmuted' hclean
  have hlines : vs.map Visit.line = source.lines := hvlines
  have hpositive' : ∀ v ∈ vs, 0 < v.line.number := fun v hv =>
    hpositive v.line (hlines ▸ List.mem_map_of_mem hv)
  have hself : ∀ v ∈ vs,
      ¬ v.outcome.statement.PlacesItself v.before.symbols.divide v.before.head ∧
        ¬ v.outcome.statement.HidesLabel v.before.symbols.divide := by
    intro v hv
    obtain ⟨before, o, after, hsplit, hstatement, hdivide, hhead⟩ :=
      hvs.outcome_of_mem rfl rfl hvrec hv
    have hoptions : (a.reset 1).symbols.divide = options.divide := by rw [hstart]; rfl
    rw [hdivide, hoptions, hhead, ← hstatement]
    refine ⟨fun hplaces => ?_, fun hhides => ?_⟩
    · exact hobscure ⟨before, o, after, houtcomes.trans hsplit, .inr hplaces⟩
    · exact hobscure ⟨before, o, after, houtcomes.trans hsplit, .inl hhides⟩
  have hnoted : SymbolTable.Noted true b'.symbols c.symbols := by
    rw [hsymbols, hrests.symbols_eq]
    exact .refl ..
  have hearlier : ∀ key t, (a.reset 1).symbols.bare? key = some t →
      t.isResolved = true ∧ ∀ v ∈ vs, t.defined < v.line.number := by
    rw [hstart]
    exact fun key t ht => by cases ht
  obtain ⟨herrors, hlast⟩ := errors_of_unbroken (hunbroken hreadable) (hunbroken' hreadable)
    (by rw [hvlines, hwlines]) (by rwa [hlines]) hpositive' rfl hpass ⟨hmuted, hmuted'⟩ haligned
    (fun hrunning => absurd rfl hrunning) hnoted hearlier hself (by rw [hclean]; exact Nat.zero_le _)
  obtain ⟨-, rfl⟩ : b'.ending ≠ .running ∧ b = b' :=
    hend.resolve_right fun hrunning => hended (hlast.ending.trans hrunning.1)
  exact Nat.le_zero.mp herrors

/-- **No hidden reasons.** A run that fails over lines with ascending positive numbers raises an error
in the second pass, unless a label may be referred to but not defined, or stands in a layout operand of
its own statement. -/
theorem no_hidden_errors {options : Options} {source : Reading Line} {run : Run} {program : Program}
    (hpositive : ∀ l ∈ source.lines, 0 < l.number)
    (hascending : source.lines.Pairwise fun l m => l.number < m.number)
    (hrun : assemble options source source = .ok run) (hprogram : run.result = .ok program)
    (hfails : program.ok = false) : 0 < program.pass2.errors ∨ run.Obscure options.divide := by
  obtain ⟨a, b, c, d, h⟩ := twoPasses_of_assemble hrun hprogram
  by_contra hnot
  rw [not_or, Nat.not_lt, Nat.le_zero] at hnot
  obtain ⟨hclean, hobscure⟩ := hnot
  have hsecond : d.log.errorCount = 0 := by
    rw [h.program_eq] at hclean
    exact hclean
  have hfirst := h.errors_eq_zero hpositive hascending hobscure hsecond
  rw [h.program_eq] at hfails
  simp [Program.ok, Log.counts, hfirst, hsecond] at hfails

/-- A source with a label that says its own head. -/
def hiddenLabelSource : Reading Line where
  items := [
    .line { number := 1, label := ascii "A$B", operation := ascii "DS", operands := ascii "3" },
    .line { number := 2, operation := ascii "DEND", operands := ascii "402" }]

theorem hiddenLabelSource_assembles : ∃ run program,
    assemble { memorySize := 20000 } hiddenLabelSource hiddenLabelSource = .ok run ∧
      run.result = .ok program ∧ program.pass1.errors = 1 ∧ program.pass2.errors = 0 := by
  exact assemble_of_errorCounts rfl (by decide) rfl rfl (by decide +kernel)

/-- A run that fails without an error in the second pass. -/
theorem no_hidden_errors_hiddenLabelSource : ∃ run program,
    assemble { memorySize := 20000 } hiddenLabelSource hiddenLabelSource = .ok run ∧
      run.result = .ok program ∧ program.ok = false ∧ program.pass2.errors = 0 ∧
      run.Obscure true := by
  obtain ⟨run, program, hrun, hprogram, hfirst, hsecond⟩ := hiddenLabelSource_assembles
  have hpositive : ∀ l ∈ hiddenLabelSource.lines, 0 < l.number := by decide
  have hascending : hiddenLabelSource.lines.Pairwise fun l m => l.number < m.number := by decide
  have hfails : program.ok = false := by simp [Program.ok, hfirst]
  have hobscure := no_hidden_errors hpositive hascending hrun hprogram hfails
  rw [hsecond] at hobscure
  exact ⟨run, program, hrun, hprogram, hfails, hsecond, hobscure.resolve_left (Nat.lt_irrefl 0)⟩

end SpsAssembler
