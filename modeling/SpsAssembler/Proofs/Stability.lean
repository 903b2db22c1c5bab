import SpsAssembler.Proofs.Lockstep

/-!
# Layouts that errors leave alone

In the first pass a symbol that is defined further down has no value yet, and in the second pass it
has none for a layout operand, because it is defined further down. So even a source with errors is
laid out alike in both passes, unless a statement sets its own place by its own label: that label is
defined on the very line, too late for the first pass and early enough for the second.

* `Statement.PlacesItself`: a label in a layout operand of its own statement;
* `Visits.entered`: the symbols that lines of the first pass enter;
* **`alike_of_visits`**: two passes over lines with ascending numbers;
* **`layout_stable`**: both passes of a run.
-/

namespace SpsAssembler

open Assembly (Agrees Aligned)

variable {a a' b b' : Assembly} {vs ws : List Visit}

/-- A statement that defines its label and has it in an operand that positions it. -/
def Statement.PlacesItself (divide : Bool) (head : Byte) (s : Statement) : Prop :=
  s.kind.definesLabel = true ∧
    ∃ operand ∈ s.layoutOperands, headKey head s.label ∈ operandKeys divide head operand

/-! ## What the first pass enters -/

theorem Visits.entered (h : Visits a vs b) (hpass : a.log.pass = 1) (key : Text) :
    b.symbols.bare? key = a.symbols.bare? key ∨
      (a.symbols.bare? key = none ∧ ∃ v ∈ vs, b.symbols.bare? key =
          some (labelSymbol v.outcome.statement v.outcome.placement v.before.head v.line.number) ∧
        v.outcome.statement.kind.definesLabel = true ∧
        key = headKey v.before.head v.outcome.statement.label ∧
        v.outcome.statement.label.isBlank = false) := by
  induction h with
  | nil hrests => exact .inl (by rw [hrests.symbols_eq])
  | @cons a b v vs hrests hv hvs ih =>
    have hfirst := hrests.pass.trans hpass
    have hrest := ih ((keeps_of_handleLine hv).pass.trans hfirst)
    have hsymbols : (v.before.atLine v.line.number).symbols = a.symbols := hrests.symbols_eq
    have hline := (enters_of_handleLine hv hfirst).bare key
    rw [hsymbols] at hline
    rcases hline with hsame | ⟨hfree, hkind, hkey, hnew, hblank⟩
    · rcases hrest with hkept | ⟨hnone, u, hu, hentered⟩
      · exact .inl (hkept.trans hsame)
      · exact .inr ⟨hsame ▸ hnone, u, List.mem_cons_of_mem _ hu, hentered⟩
    · rcases hrest with hkept | ⟨hnone, -⟩
      · exact .inr ⟨hfree, v, List.mem_cons_self, hkept.trans hnew, hkind, hkey, hblank⟩
      · rw [hnew] at hnone
        cases hnone

/-- On a line of the first pass, a symbol other than the label of that line has the value that it
has there in the end. -/
theorem valueAt_of_later {v : Visit} (h : Visits a (v :: vs) b) (hpass : a.log.pass = 1)
    (hlater : ∀ u ∈ vs, v.line.number < u.line.number) {key : Text}
    (hkey : v.outcome.statement.kind.definesLabel = true →
      key ≠ headKey v.before.head v.outcome.statement.label) :
    b.symbols.valueAt key v.line.number true = a.symbols.valueAt key v.line.number true := by
  unfold SymbolTable.valueAt
  rcases h.entered hpass key with hsame | ⟨hnone, u, hu, hs, hkind, hown, -⟩
  · rw [hsame]
  · rw [hnone, hs]
    rcases List.mem_cons.mp hu with rfl | hu
    · exact absurd hown (hkey hkind)
    · have hforward : v.line.number < u.line.number := hlater u hu
      simp [Symbol.valueOn, labelSymbol, hforward]

/-! ## Two passes -/

theorem agrees_of_later {v : Visit} {w : Assembly} (h : Visits a (v :: vs) b)
    (hpass : a.log.pass = 1) (hlater : ∀ u ∈ vs, v.line.number < u.line.number)
    (hnoted : SymbolTable.Noted true b.symbols w.symbols) (haligned : Aligned v.before w)
    (hself : ¬ v.outcome.statement.PlacesItself v.before.symbols.divide v.before.head) :
    Agrees v.outcome.statement.layoutOperands (v.before.atLine v.line.number)
      (w.atLine v.line.number) where
  toAligned := { haligned with }
  line := rfl
  values operand hmem usage hord := by
    have hbefore : v.before.symbols = a.symbols := by
      cases h with
      | cons hrests => exact hrests.symbols_eq
    refine rawValue_congr ?_ haligned.head rfl fun key hkey => ?_
    · exact (hnoted.divide.trans (h.embeds hpass).divide).trans (by rw [← hbefore]; rfl)
    · change w.symbols.valueAt key v.line.number usage.ordered =
        v.before.symbols.valueAt key v.line.number usage.ordered
      rw [hord, hnoted.valueAt_eq, hbefore]
      refine valueAt_of_later h hpass hlater fun hkind hown => hself ⟨hkind, operand, hmem, ?_⟩
      exact hown ▸ hkey

/-- **Two passes over lines with ascending numbers** are alike, unless a statement places itself. -/
theorem alike_of_visits (hvs : Visits a vs a') (hws : Visits b ws b')
    (hlines : ws.map Visit.line = vs.map Visit.line)
    (hascending : (vs.map Visit.line).Pairwise fun l m => l.number < m.number)
    (hpass1 : a.log.pass = 1) (hpass2 : b.log.pass = 2) (haligned : Aligned a b)
    (hentry : SameEntry a b) (hnoted : SymbolTable.Noted true a'.symbols b.symbols)
    (hself : ∀ v ∈ vs, ¬ v.outcome.statement.PlacesItself v.before.symbols.divide v.before.head) :
    List.Forall₂ Alike vs ws := by
  induction hvs generalizing b ws with
  | nil =>
    cases hws with
    | nil => exact .nil
    | cons => cases hlines
  | @cons a a' v vs hrests hv hvs ih =>
    cases hws with
    | nil => cases hlines
    | @cons _ _ w ws hrests' hw hws =>
      obtain ⟨hline, hlines⟩ := List.cons.inj hlines
      obtain ⟨hlater, hascending⟩ := List.pairwise_cons.mp hascending
      have hv1 := hrests.pass.trans hpass1
      have hw2 := hrests'.pass.trans hpass2
      have hbefore : SymbolTable.Noted true a'.symbols w.before.symbols := by
        rwa [hrests'.symbols_eq]
      have hagrees := agrees_of_later (.cons hrests hv hvs) hpass1
        (fun u hu => hlater _ (List.mem_map_of_mem hu)) hbefore
        (haligned.of_registers hrests.options hrests'.options hrests.registers_eq
          hrests'.registers_eq) (hself v List.mem_cons_self)
      obtain ⟨hstatement, hplacement, hprocessed, hnext, hentry'⟩ :=
        handleLine_agree hv (hline ▸ hw) hagrees
          (hentry.of_registers hrests.registers_eq hrests'.registers_eq)
      refine .cons ⟨hstatement, hplacement, hprocessed⟩ (ih hws hlines hascending
        ((keeps_of_handleLine hv).pass.trans hv1) ((keeps_of_handleLine hw).pass.trans hw2) hnext
        hentry' (hbefore.trans (noted_of_handleLine hw hw2)) fun u hu => ?_)
      exact hself u (List.mem_cons_of_mem _ hu)

/-- **Layouts are stable, errors or not.** If the numbers of the lines ascend, the two passes lay a
source out alike, unless a statement has its own label in an operand that positions it. -/
theorem layout_stable {options : Options} {first second : Reading Line} {run : Run}
    {program : Program} (hlines : first.lines = second.lines)
    (hascending : first.lines.Pairwise fun l m => l.number < m.number)
    (hrun : assemble options first second = .ok run) (hprogram : run.result = .ok program) :
    program.layout1 = program.layout2 ∨
      ∃ before o after, run.first.filterMap Event.outcome? = before ++ o :: after ∧
        o.statement.PlacesItself options.divide (headBehind (before.map Outcome.statement)) := by
  obtain ⟨a, b, c, d, h⟩ := twoPasses_of_assemble hrun hprogram
  obtain ⟨vs, ws, hvs, hws, hvlines, hwlines, hvrec, hwrec, -⟩ := h.visits
  obtain ⟨haligned, hpass, hsymbols⟩ := h.aligned
  by_cases hself : ∀ v ∈ vs,
      ¬ v.outcome.statement.PlacesItself v.before.symbols.divide v.before.head
  · left
    rw [h.program_eq]
    refine layout_of_alike hvrec hwrec (alike_of_visits hvs hws ?_ ?_ rfl hpass haligned ?_ ?_ hself)
    · rw [hvlines, hwlines, hlines]
    · rwa [hvlines]
    · exact fun hrun => absurd rfl hrun
    · rw [hsymbols]
      exact .refl ..
  · right
    simp only [not_forall, not_not] at hself
    obtain ⟨v, hv, hplaces⟩ := hself
    obtain ⟨before, after, rfl⟩ := List.append_of_mem hv
    obtain ⟨hbefore, -⟩ := hvs.split
    have hdivide : v.before.symbols.divide = options.divide := by
      rw [(hbefore.embeds rfl).divide, (start_eq h.start).2]
      rfl
    have hhead : v.before.head =
        headBehind ((before.map Visit.result).map Outcome.statement) := by
      rw [hbefore.head_eq, List.map_map]
      rfl
    rw [hdivide, hhead] at hplaces
    refine ⟨before.map Visit.result, v.result, after.map Visit.result, ?_, hplaces⟩
    rw [hvrec.outcomes, List.map_append, List.map_cons]

/-- A source whose first length is given by a label that is defined further down. -/
def forwardSource : Reading Line where
  items := [
    .line { number := 1, label := ascii "A", operation := ascii "DS", operands := ascii "B" },
    .line { number := 2, label := ascii "B", operation := ascii "DS", operands := ascii "3" },
    .line { number := 3, operation := ascii "DEND", operands := ascii "B" }]

theorem forwardSource_assembles : ∃ run program,
    assemble { memorySize := 20000 } forwardSource forwardSource = .ok run ∧
      run.result = .ok program ∧ program.pass1.errors = 1 ∧ program.pass2.errors = 1 := by
  exact assemble_of_errorCounts rfl (by decide) rfl rfl (by decide +kernel)

theorem layout_stable_forwardSource : ∃ run program,
    assemble { memorySize := 20000 } forwardSource forwardSource = .ok run ∧
      run.result = .ok program ∧ program.pass1.errors = 1 ∧
      (program.layout1 = program.layout2 ∨
        ∃ before o after, run.first.filterMap Event.outcome? = before ++ o :: after ∧
          o.statement.PlacesItself true (headBehind (before.map Outcome.statement))) := by
  obtain ⟨run, program, hrun, hprogram, herrors, -⟩ := forwardSource_assembles
  have hascending : forwardSource.lines.Pairwise fun l m => l.number < m.number := by decide
  have hstable := layout_stable rfl hascending hrun hprogram
  exact ⟨run, program, hrun, hprogram, herrors, hstable⟩

end SpsAssembler
