import SpsAssembler.Proofs.Agreement
import SpsAssembler.Proofs.Lookups
import SpsAssembler.Proofs.SymbolNames

/-!
# The cross reference

Both passes note references. In a program without an error the first one noted nothing that the
second did not note again, so the lines of a symbol are those whose statements look it up in the
second pass. And every symbol is the label of one statement.

* `Outcome.lookups`: the keys that a statement looks up while core is built;
* `refers_of_handleLine`, **`marks_of_handleLine`**: one line of the first and of the second pass;
* `Visits.refers`, **`Visits.marks`**: whole passes;
* `Outcome.Defines`: a statement that defines a symbol;
* **`cross_reference`**: the symbols of a program.
-/

namespace SpsAssembler

open Assembly (Keeps)
open SymbolTable (Touches Marks)

variable {a b c d : Assembly} {vs ws : List Visit} {s : Statement} {o : Outcome} {line : Line}
  {processed : Bool}

/-! ## One line -/

/-- The keys that a statement looks up while core is built, where `head` is in force. -/
def Outcome.lookups (divide : Bool) (head : Byte) (o : Outcome) : List Text :=
  (o.statement.layoutOperands ++ o.statement.encodedOperands o.placement).flatMap
    (operandKeys divide head)

theorem Assembly.keys_eq (hdivide : b.symbols.divide = a.symbols.divide) (hhead : b.head = a.head)
    (operands : List Text) : b.keys operands = a.keys operands := by
  unfold Assembly.keys
  rw [hdivide, hhead]

/-- Up to where its label is dealt with, a statement without an error notes the line for the keys of
the operands that position it. -/
theorem beforeLabel_marks (s : Statement) (a : Assembly) (hmuted : a.log.muted = 0)
    (hcount : (beforeLabel s a).log.errorCount ≤ a.log.errorCount) :
    Marks (a.keys s.layoutOperands) a.log.line a.symbols (beforeLabel s a).symbols := by
  have hbounds := (beforeLabel_of_place s a).frame.errors
  have hsymbols : (beforeLabel s a).symbols = (place s a).2.symbols := by
    unfold beforeLabel
    split <;> rfl
  rw [hsymbols]
  exact place_marks s a hmuted (by omega)

theorem refers_of_layOut (hpass : a.log.pass = 1) {key : Text} {l : Word}
    (h : (layOut s a).2.symbols.Refers key l) : (beforeLabel s a).symbols.Refers key l := by
  rcases layOut_first s a hpass with ⟨heq, -⟩ | ⟨c, heq⟩ | ⟨t, rfl, heq, -⟩
  · rwa [heq] at h
  · rwa [heq] at h
  · rw [heq] at h
    refine (SymbolTable.refers_enter.mp h).resolve_right fun hnew => ?_
    cases hnew.2.2

theorem lookups_of_unprocessed (h : handleLine line a = .ok (o, false) b) :
    o.statement.layoutOperands = [] ∧ o.statement.encodedOperands o.placement = [] := by
  unfold Statement.layoutOperands Statement.encodedOperands
  rcases kind_of_unprocessed h with hk | hk <;> rw [hk] <;> exact ⟨rfl, rfl⟩

/-- In the first pass a statement without an error notes nothing but the keys of the operands that
position it. -/
theorem Processed.refers (h : Processed s a o b) (hpass : a.log.pass = 1) (hmuted : a.log.muted = 0)
    (hcount : b.log.errorCount ≤ a.log.errorCount) {key : Text} {l : Word}
    (hrefers : b.symbols.Refers key l) :
    a.symbols.Refers key l ∨ (key ∈ a.keys s.layoutOperands ∧ l = a.log.line) := by
  have hlabel := (beforeLabel_keeps s a).errors
  rw [h.first hpass] at hrefers hcount
  exact (beforeLabel_marks s a hmuted (by omega)).only key l (refers_of_layOut hpass hrefers)

/-- In the second pass a statement without an error notes the line for the keys of the operands that
position it and of those that its cells are made of. -/
theorem Processed.marks (h : Processed s a o b) (hpass : a.log.pass = 2) (hmuted : a.log.muted = 0)
    (hcount : b.log.errorCount ≤ a.log.errorCount) :
    Marks (a.keys (s.layoutOperands ++ s.encodedOperands o.placement)) a.log.line a.symbols
      b.symbols := by
  have hemitting : (layOut s a).2.emitting = true := by
    unfold Assembly.emitting
    rw [(layOut_keeps s a).pass, hpass]
    rfl
  have hlayout := layOut_second s a (by rw [hpass]; decide)
  have hsymbols : (layOut s a).2.symbols = (beforeLabel s a).symbols := by
    rw [hlayout]
    rfl
  have hframe := place_frame s a
  have hlabel := (beforeLabel_keeps s a).errors
  have hplaced := hframe.errors
  rcases h.core with ⟨hfalse, -⟩ | ⟨-, c, hc, hs⟩
  · rw [hemitting] at hfalse
    cases hfalse
  · have hencoded := (encode_leads hc).frame.errors
    have hstored := (store_keeps hs).errors
    have hline : (layOut s a).2.log.line = a.log.line := by
      have hplace := (beforeLabel s a).log.raiseAll_place (if s.kind.definesLabel then
        (beforeLabel s a).symbols.verify s.label a.log.line a.head else [])
      rw [hlayout]
      exact (congrArg (·.2.2.2) hplace).trans hframe.line_eq
    have hkeys : (layOut s a).2.keys (s.encodedOperands o.placement) =
        a.keys (s.encodedOperands o.placement) := by
      by_cases hhead : s.kind = .head
      · unfold Statement.encodedOperands
        rw [hhead]
        rfl
      · refine Assembly.keys_eq (by rw [hsymbols, hframe.noted.divide]) ?_ _
        have hregisters := layOut_registers s a
        simp only [Assembly.registers, Prod.mk.injEq] at hregisters
        rw [hregisters.2.2.1, place_head, Statement.headAfter, if_pos hhead]
    have hfirst := beforeLabel_marks s a hmuted (by omega)
    have hsecond := encode_marks hc ((layOut_keeps s a).muted.trans hmuted) (by omega)
    rw [hkeys, hline, hsymbols] at hsecond
    rw [(store_symbols hs).1, Assembly.keys_append]
    exact hfirst.trans hsecond

/-- **A line of the first pass** that raises no error notes nothing but the keys of the operands that
position its statement. -/
theorem refers_of_handleLine (h : handleLine line a = .ok (o, processed) b) (hpass : a.log.pass = 1)
    (hmuted : a.log.muted = 0) (hcount : b.log.errorCount ≤ a.log.errorCount) {key : Text} {l : Word}
    (hrefers : b.symbols.Refers key l) : a.symbols.Refers key l ∨
      (key ∈ a.keys o.statement.layoutOperands ∧ l = line.number) := by
  have hparse := parse_leads line a
  have hkeeps := Keeps.of_frame hparse.frame
  have htouches := parse_touches line (a.atLine line.number)
  rw [statement_of_handleLine h]
  cases handles_of_handleLine h with
  | comment => exact htouches.only key l hrefers
  | beyond => exact htouches.only key l hrefers
  | overrun => exact htouches.only key l hrefers
  | processed _ _ hp =>
    have hline : (parse line (a.atLine line.number)).2.log.line = line.number :=
      hparse.frame.line_eq
    have hplaced := (processed_of_process hp).refers (hkeeps.pass.trans hpass)
      (hkeeps.muted.trans hmuted) (Nat.le_trans hcount hkeeps.errors) hrefers
    rw [hline, Assembly.keys_eq hparse.frame.noted.divide (hparse.head_eq rfl)] at hplaced
    exact hplaced.elim (htouches.only key l) .inr

/-- **A line of the second pass** that raises no error is noted for all keys that its statement looks
up, which are defined, and for no others. -/
theorem marks_of_handleLine (h : handleLine line a = .ok (o, processed) b) (hpass : a.log.pass = 2)
    (hmuted : a.log.muted = 0) (hcount : b.log.errorCount ≤ a.log.errorCount) :
    Marks (o.lookups a.symbols.divide a.head) line.number a.symbols b.symbols := by
  have hparse := parse_leads line a
  have hkeeps := Keeps.of_frame hparse.frame
  have htouches := parse_touches line (a.atLine line.number)
  have hhandles := handles_of_handleLine h
  rw [← statement_of_handleLine h] at htouches
  cases processed with
  | false =>
    obtain ⟨hlayout, hencoded⟩ := lookups_of_unprocessed h
    have hlookups : o.lookups a.symbols.divide a.head = [] := by
      rw [Outcome.lookups, hlayout, hencoded]
      rfl
    have hsame : b.symbols = (parse line (a.atLine line.number)).2.symbols := by
      cases hhandles <;> rfl
    rw [hlayout] at htouches
    rw [hlookups, hsame]
    exact ⟨htouches, by simp, by simp⟩
  | true =>
    cases hhandles with
    | processed _ _ hp =>
      have hline : (parse line (a.atLine line.number)).2.log.line = line.number :=
        hparse.frame.line_eq
      have hmarks := (processed_of_process hp).marks (hkeeps.pass.trans hpass)
        (hkeeps.muted.trans hmuted) (Nat.le_trans hcount hkeeps.errors)
      rw [hline, ← statement_of_handleLine h,
        Assembly.keys_eq hparse.frame.noted.divide (hparse.head_eq rfl)] at hmarks
      refine Marks.absorb htouches hparse.frame.noted hmarks fun key hkey => ?_
      obtain ⟨operand, hoperand, hmem⟩ := Assembly.mem_keys.mp hkey
      exact Assembly.mem_keys.mpr ⟨operand, List.mem_append_left _ hoperand, hmem⟩

/-! ## Whole passes -/

/-- **A first pass** without an error notes nothing but the keys of the operands that position its
statements, on their lines. -/
theorem Visits.refers (h : Visits a vs b) (hpass : a.log.pass = 1) (hmuted : a.log.muted = 0)
    (hcount : b.log.errorCount ≤ a.log.errorCount) {key : Text} {l : Word}
    (hrefers : b.symbols.Refers key l) : a.symbols.Refers key l ∨
      ∃ v ∈ vs, key ∈ v.before.keys v.outcome.statement.layoutOperands ∧ l = v.line.number := by
  induction h with
  | nil hrests =>
    rw [hrests.symbols_eq] at hrefers
    exact .inl hrefers
  | @cons a b v vs hrests hv hvs ih =>
    have hkeeps := keeps_of_handleLine hv
    obtain ⟨-, hthis, hrest⟩ := hrests.toKeeps.clean_parts hkeeps hvs.keeps hcount
    have hpass' := hrests.pass.trans hpass
    have hmuted' := hrests.muted.trans hmuted
    rcases ih (hkeeps.pass.trans hpass') (hkeeps.muted.trans hmuted') hrest hrefers with
      hafter | ⟨u, hu, hnoted⟩
    · rcases refers_of_handleLine hv hpass' hmuted' hthis hafter with hold | hnoted
      · rw [hrests.symbols_eq] at hold
        exact .inl hold
      · exact .inr ⟨v, List.mem_cons_self, hnoted⟩
    · exact .inr ⟨u, List.mem_cons_of_mem _ hu, hnoted⟩

/-- **A second pass** without an error changes no definition and notes, on the line of every
statement, the keys that the statement looks up. -/
theorem Visits.marks (h : Visits a vs b) (hpass : a.log.pass = 2) (hmuted : a.log.muted = 0)
    (hcount : b.log.errorCount ≤ a.log.errorCount) :
    (∀ key, b.symbols.bare? key = a.symbols.bare? key) ∧
      ∀ key l, b.symbols.Refers key l ↔ a.symbols.Refers key l ∨
        ∃ v ∈ vs, key ∈ v.outcome.lookups a.symbols.divide v.before.head ∧ l = v.line.number := by
  induction h with
  | nil hrests =>
    rw [hrests.symbols_eq]
    simp
  | @cons a b v vs hrests hv hvs ih =>
    have hkeeps := keeps_of_handleLine hv
    obtain ⟨-, hthis, hrest⟩ := hrests.toKeeps.clean_parts hkeeps hvs.keeps hcount
    have hpass' := hrests.pass.trans hpass
    have hmuted' := hrests.muted.trans hmuted
    have hnoted := noted_of_handleLine hv hpass'
    have hmarks := marks_of_handleLine hv hpass' hmuted' hthis
    obtain ⟨hbare, hrefers⟩ := ih (hkeeps.pass.trans hpass') (hkeeps.muted.trans hmuted') hrest
    rw [hnoted.divide] at hrefers
    rw [← hrests.symbols_eq]
    refine ⟨fun key => (hbare key).trans (hmarks.bare_eq hnoted key), fun key l => ?_⟩
    rw [hrefers, hmarks.refers_iff, or_assoc]
    simp only [List.mem_cons, exists_eq_or_imp]

/-- What holds of a line of a pass, under the head in force there, holds of an outcome under the head
that the statements before it leave. -/
theorem Visits.exists_outcome (h : Visits a vs b) (hhead : a.head = Byte.blank)
    (P : Byte → Outcome → Prop) : (∃ v ∈ vs, P v.before.head v.result) ↔
      ∃ before o after, vs.map Visit.result = before ++ o :: after ∧
        P (headBehind (before.map Outcome.statement)) o := by
  have hforce : ∀ {us ts : List Visit} {v : Visit}, vs = us ++ v :: ts →
      headBehind ((us.map Visit.result).map Outcome.statement) = v.before.head := by
    rintro us ts v rfl
    rw [h.split.1.head_eq, hhead, List.map_map]
    rfl
  constructor
  · rintro ⟨v, hv, hP⟩
    obtain ⟨us, ts, hsplit⟩ := List.append_of_mem hv
    refine ⟨us.map Visit.result, v.result, ts.map Visit.result, by rw [hsplit]; simp, ?_⟩
    rwa [hforce hsplit]
  · rintro ⟨before, o, after, hsplit, hP⟩
    obtain ⟨us, rest, rfl, rfl, hrest⟩ := List.map_eq_append_iff.mp hsplit
    obtain ⟨v, ts, rfl, rfl, -⟩ := List.map_eq_cons_iff.mp hrest
    rw [hforce rfl] at hP
    exact ⟨v, by simp, hP⟩

/-! ## Programs -/

/-- The statement defines the label that stands for a key where `head` is in force. -/
def Outcome.Defines (head : Byte) (o : Outcome) (key : Text) : Prop :=
  o.statement.kind.definesLabel = true ∧ o.statement.label.isBlank = false ∧
    headKey head o.statement.label = key

theorem Visits.number_eq (h : Visits a vs b) {v : Visit} (hv : v ∈ vs) :
    v.result.statement.line.number = v.line.number := by
  obtain ⟨before, after, rfl⟩ := List.append_of_mem hv
  have hstatement := statement_of_handleLine h.split.2.1
  change v.outcome.statement.line.number = v.line.number
  rw [hstatement, parse_line]

theorem eq_of_ascending {α : Type} {f : α → Word} {xs ys xs' ys' : List α} {x x' : α}
    (h : (xs ++ x :: ys).Pairwise fun y z => f y < f z)
    (hsplit : xs ++ x :: ys = xs' ++ x' :: ys') (hf : f x = f x') : xs = xs' := by
  induction xs generalizing xs' with
  | nil =>
    cases xs' with
    | nil => rfl
    | cons y xs' =>
      obtain ⟨rfl, rfl⟩ := List.cons.inj hsplit
      have hlt := List.rel_of_pairwise_cons h (by simp : x' ∈ xs' ++ x' :: ys')
      rw [hf] at hlt
      exact (Int64.lt_irrefl hlt).elim
  | cons z xs ih =>
    cases xs' with
    | nil =>
      obtain ⟨rfl, rfl⟩ := List.cons.inj hsplit
      have hlt := List.rel_of_pairwise_cons h (by simp : x ∈ xs ++ x :: ys)
      rw [hf] at hlt
      exact (Int64.lt_irrefl hlt).elim
    | cons y xs' =>
      obtain ⟨rfl, hrest⟩ := List.cons.inj hsplit
      rw [ih (List.Pairwise.of_cons h) hrest]

variable {options : Options} {first second : Reading Line} {run : Run} {program : Program}

theorem ascending_outcomes (hws : Visits c ws d) (hlines : ws.map Visit.line = second.lines)
    (hascending : second.lines.Pairwise fun l m => l.number < m.number) :
    (ws.map Visit.result).Pairwise fun o q =>
      o.statement.line.number < q.statement.line.number := by
  rw [← hlines, List.pairwise_map] at hascending
  rw [List.pairwise_map]
  refine hascending.imp_of_mem fun hv hw hlt => ?_
  rwa [hws.number_eq hv, hws.number_eq hw]

section Passes

variable (h : TwoPasses options first second run program a b c d)
  (hclean1 : b.log.errorCount = 0) (hclean2 : d.log.errorCount = 0)
  (hvs : Visits (a.reset 1) vs b) (hws : Visits c ws d)
  (hmatched : List.Forall₂ (Matched b.symbols) vs ws)

include h hclean2 hvs hws hmatched

theorem TwoPasses.definition {s : Symbol} (hs : s ∈ program.symbols.symbols) :
    ∃ w ∈ ws, w.result.Defines w.before.head s.name ∧
      s.bare = labelSymbol w.outcome.statement w.outcome.placement w.before.head w.line.number := by
  have hsame : List.Forall₂ (fun w v => Matched b.symbols v w) ws vs := hmatched.flip
  have hdistinct := h.distinct
  rw [h.program_eq] at hs hdistinct
  have hfinal : d.symbols.bare? s.name = some s.bare :=
    SymbolTable.bare?_of_get? (SymbolTable.get?_of_mem hdistinct hs)
  obtain ⟨-, hpass, hsymbols⟩ := h.aligned
  rw [(hws.marks hpass h.audible.2 (by omega)).1, hsymbols] at hfinal
  rcases hvs.entered rfl s.name with hstart | ⟨-, v, hv, hlabel, hkind, hkey, hblank⟩
  · rw [hfinal, (start_eq h.start).2] at hstart
    cases hstart
  · obtain ⟨w, hw, hm⟩ := exists_of_mem_forall₂ hsame hv
    rw [hfinal] at hlabel
    rw [← hm.statement] at hkind hkey hblank
    rw [← hm.head] at hkey
    refine ⟨w, hw, ⟨hkind, hblank, hkey.symm⟩, ?_⟩
    rw [hm.statement, hm.placement, hm.head, hm.line]
    exact Option.some.inj hlabel

include hclean1

/-- The lines that are noted for a key are those whose statements look it up in the second pass. -/
theorem TwoPasses.refers_iff {key : Text} {l : Word} : d.symbols.Refers key l ↔
    ∃ w ∈ ws, key ∈ w.outcome.lookups options.divide w.before.head ∧ l = w.line.number := by
  have hsame : List.Forall₂ (fun w v => Matched b.symbols v w) ws vs := hmatched.flip
  obtain ⟨-, hpass, hsymbols⟩ := h.aligned
  obtain ⟨haudible1, haudible2⟩ := h.audible
  have hstart : (a.reset 1).symbols = { divide := options.divide } := by
    rw [(start_eq h.start).2]
    rfl
  have hdivide : c.symbols.divide = options.divide := by
    rw [hsymbols, (hvs.embeds rfl).divide, hstart]
  rw [(hws.marks hpass haudible2 (by omega)).2, hdivide, hsymbols]
  refine ⟨?_, .inr⟩
  rintro (hfirst | hsecond)
  · rcases hvs.refers rfl haudible1 (by omega) hfirst with ⟨s, hs, -⟩ | ⟨v, hv, hkey, hl⟩
    · rw [hstart] at hs
      cases hs
    · -- What the first pass noted on a line, the second looks up on the same line.
      obtain ⟨w, hw, hm⟩ := exists_of_mem_forall₂ hsame hv
      obtain ⟨operand, hoperand, hmem⟩ := Assembly.mem_keys.mp hkey
      obtain ⟨us, ts, rfl⟩ := List.append_of_mem hv
      rw [(hvs.split.1.embeds rfl).divide, hstart, ← hm.head] at hmem
      rw [← hm.statement] at hoperand
      exact ⟨w, hw, List.mem_flatMap.mpr ⟨operand, List.mem_append_left _ hoperand, hmem⟩,
        by rw [hl, hm.line]⟩
  · exact hsecond

end Passes

/-- **The cross reference of a program** without an error: every symbol is defined by one statement,
and the lines that refer to it are those whose statements look it up in the second pass. -/
theorem cross_reference (hlines : first.lines = second.lines)
    (hascending : first.lines.Pairwise fun l m => l.number < m.number)
    (hpositive : ∀ l ∈ first.lines, 0 < l.number)
    (hrun : assemble options first second = .ok run) (hprogram : run.result = .ok program)
    (hok : program.ok = true) :
    ∀ s ∈ program.symbols.symbols, s.isResolved = true ∧
      (∃ before o after, program.outcomes = before ++ o :: after ∧
        o.Defines (headBehind (before.map Outcome.statement)) s.name ∧
        s.defined = o.statement.line.number ∧ s.address = o.placement.labelAddress ∧
        ∀ before' o' after', program.outcomes = before' ++ o' :: after' →
          o'.Defines (headBehind (before'.map Outcome.statement)) s.name → before' = before) ∧
      ∀ line, line ∈ s.references.toList ↔
        ∃ before o after, program.outcomes = before ++ o :: after ∧
          o.statement.line.number = line ∧
          s.name ∈ o.lookups options.divide (headBehind (before.map Outcome.statement)) := by
  intro s hs
  obtain ⟨a, b, c, d, h⟩ := twoPasses_of_assemble hrun hprogram
  obtain ⟨hclean1, hclean2⟩ := h.clean hok
  obtain ⟨vs, ws, hvs, hws, hvlines, hwlines, -, hwrec, -⟩ := h.visits
  obtain ⟨hmatched, -⟩ := h.matched hclean1 hvs hws (by rw [hvlines, hwlines, hlines])
  have houtcomes : program.outcomes = ws.map Visit.result := by
    rw [h.program_eq]
    exact hwrec.outcomes
  have hhead : c.head = Byte.blank := by
    rw [(load_eq h.load).1]
    rfl
  have hget : d.symbols.get? s.name = some s := by
    have hdistinct := h.distinct
    rw [h.program_eq] at hs hdistinct
    exact SymbolTable.get?_of_mem hdistinct hs
  obtain ⟨w, hw, hdefines, hbare⟩ := h.definition hclean2 hvs hws hmatched hs
  have hdefined : s.defined = w.line.number := congrArg Symbol.defined hbare
  have haddress : s.address = w.outcome.placement.labelAddress := congrArg Symbol.address hbare
  rw [houtcomes]
  refine ⟨?_, ?_, fun line => ?_⟩
  · have hnumber : 0 < w.line.number := by
      refine hpositive w.line ?_
      rw [hlines, ← hwlines]
      exact List.mem_map_of_mem hw
    rw [Symbol.isResolved, hdefined]
    exact decide_eq_true hnumber
  · obtain ⟨before, o, after, hsplit, hdefines, hline, hplace⟩ := (hws.exists_outcome hhead
      fun head o => o.Defines head s.name ∧ s.defined = o.statement.line.number ∧
        s.address = o.placement.labelAddress).mp
      ⟨w, hw, hdefines, by rw [hdefined, hws.number_eq hw], haddress⟩
    refine ⟨before, o, after, hsplit, hdefines, hline, hplace, ?_⟩
    intro before' o' after' hsplit' hdefines'
    have hembeds : b.symbols.Embeds d.symbols := by
      obtain ⟨-, hpass, hsymbols⟩ := h.aligned
      rw [← hsymbols]
      exact (hws.noted hpass).embeds
    obtain ⟨t, ht, -, hline'⟩ := labels_of_matched hws hmatched hembeds hhead before' o' after' hsplit'
      hdefines'.1 hdefines'.2.1
    rw [hdefines'.2.2, hget] at ht
    cases ht
    have hrising := ascending_outcomes hws hwlines (hlines ▸ hascending)
    rw [hsplit'] at hrising
    exact eq_of_ascending hrising (hsplit'.symm.trans hsplit) (hline'.symm.trans hline)
  · have hrefers : line ∈ s.references.toList ↔ d.symbols.Refers s.name line :=
      ⟨fun hmem => ⟨s, hget, hmem⟩, fun ⟨t, ht, hmem⟩ => by rw [hget] at ht; cases ht; exact hmem⟩
    have hplaces := hws.exists_outcome hhead fun head o =>
      o.statement.line.number = line ∧ s.name ∈ o.lookups options.divide head
    rw [hrefers, h.refers_iff hclean1 hclean2 hvs hws hmatched, ← hplaces]
    refine exists_congr fun u => and_congr_right fun hu => ?_
    rw [hws.number_eq hu, and_comm, eq_comm]
    rfl

/-- The names of the symbols of a table, with the lines that refer to them. -/
def SymbolTable.crossed (t : SymbolTable) : List (Text × List Word) :=
  t.symbols.map fun s => (s.name, s.references.toList)

/-- A source with a length that is looked up by parsing and by placing, a reference ahead, and two
symbols of one name under different heads. -/
def crossSource : Reading Line where
  items := [
    .line { number := 1, label := ascii "A", operation := ascii "DS", operands := ascii "5" },
    .line { number := 2, label := ascii "B", operation := ascii "DAC", operands := ascii "A-404,HI" },
    .line { number := 3, operation := ascii "TF", operands := ascii "C,B" },
    .line { number := 4, label := ascii "C", operation := ascii "AM", operands := ascii "A,2" },
    .line { number := 5, operation := ascii "HEAD", operands := ascii "2" },
    .line { number := 6, label := ascii "A", operation := ascii "DSA", operands := ascii "A,$A+A" },
    .line { number := 7, operation := ascii "DEND", operands := ascii "$C" }]

theorem crossSource_assembles : ∃ run program,
    assemble { memorySize := 20000, tables := false } crossSource crossSource = .ok run ∧
      run.result = .ok program ∧ program.pass1.errors = 0 ∧ program.pass2.errors = 0 ∧
      program.symbols.crossed =
        [(ascii "A", [2, 4, 6]), (ascii "B", [3]), (ascii "C", [3, 7]), (ascii "2$A", [6])] := by
  exact assemble_of_afterPasses (fun _ _ symbols => symbols.crossed) rfl (by decide) rfl rfl
    (by decide +kernel)

theorem cross_reference_crossSource : ∃ run program,
    assemble { memorySize := 20000, tables := false } crossSource crossSource = .ok run ∧
      run.result = .ok program ∧ program.ok = true ∧
      program.symbols.crossed =
        [(ascii "A", [2, 4, 6]), (ascii "B", [3]), (ascii "C", [3, 7]), (ascii "2$A", [6])] ∧
      ∀ s ∈ program.symbols.symbols, s.isResolved = true ∧
        (∃ before o after, program.outcomes = before ++ o :: after ∧
          o.Defines (headBehind (before.map Outcome.statement)) s.name ∧
          s.defined = o.statement.line.number ∧ s.address = o.placement.labelAddress ∧
          ∀ before' o' after', program.outcomes = before' ++ o' :: after' →
            o'.Defines (headBehind (before'.map Outcome.statement)) s.name → before' = before) ∧
        ∀ line, line ∈ s.references.toList ↔
          ∃ before o after, program.outcomes = before ++ o :: after ∧
            o.statement.line.number = line ∧
            s.name ∈ o.lookups true (headBehind (before.map Outcome.statement)) := by
  obtain ⟨run, program, hrun, hprogram, h1, h2, hcrossed⟩ := crossSource_assembles
  have hok : program.ok = true := by rw [Program.ok, h1, h2]; rfl
  have hascending : crossSource.lines.Pairwise fun l m => l.number < m.number := by decide
  have hpositive : ∀ l ∈ crossSource.lines, 0 < l.number := by decide
  have hall := cross_reference rfl hascending hpositive hrun hprogram hok
  exact ⟨run, program, hrun, hprogram, hok, hcrossed, hall⟩

end SpsAssembler
