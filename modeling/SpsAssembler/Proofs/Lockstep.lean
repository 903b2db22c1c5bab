import Mathlib.Data.List.Forall2
import SpsAssembler.Proofs.Layout
import SpsAssembler.Proofs.Passes

/-!
# Two passes over the same lines

If two states agree on the layout operands of a line, the line has the same statement and the same
place in both, and the states stay aligned. What the first pass does to the table, and what any
other pass does to it, is said here for one line.

* **`handleLine_agree`**: one line in two aligned states;
* `Enters`, `Handles.enters`, `Handles.label`: the table and the label in the first pass;
* `Handles.settled`: a line without an error has settled layout operands;
* `Handles.noted`, `Handles.unlabelled`: the table and the messages in any other pass;
* `headBehind`, `Handles.head_eq`: the head that statements leave in force.
-/

namespace SpsAssembler

open Assembly (Agrees Aligned Keeps)

variable {s : Statement} {a b a' b' : Assembly} {o o' : Outcome} {processed processed' : Bool}

/-! ## The catalog -/

theorem family_of_find? {mnemonic : Text} {d : Descriptor} (h : Descriptor.find? mnemonic = some d) :
    d.family ≠ .comment := by
  have hall : catalog.all (·.family != .comment) = true := by decide +kernel
  have hd := List.all_eq_true.mp hall d (List.mem_of_find?_eq_some h)
  simpa using hd

/-- A line that is not processed is a comment, or it is not looked at behind the end. -/
theorem parse_kind {line : Line} (h : (parse line a).1.descriptor.family = .comment ∨
    a.ending ≠ .running) :
    (parse line a).1.kind = .comment ∨ (parse line a).1.kind = .unknown := by
  rw [parse_apply] at h ⊢
  split_ifs at h ⊢ with h1 h2
  · exact .inr rfl
  · exact .inr rfl
  · exact .inl rfl
  · exact .inr rfl
  · cases hd : Descriptor.find? line.operation with
    | none => exact .inr rfl
    | some d =>
      rw [hd] at h
      rcases h with h | h
      · exact absurd h (family_of_find? hd)
      · simp [h] at h2

theorem parse_leads (line : Line) (a : Assembly) :
    Leads .still (a.atLine line.number) (parse line (a.atLine line.number)).2 := parse_within line _

theorem parse_line (line : Line) (a : Assembly) : (parse line a).1.line = line := by
  rw [parse_apply]
  split_ifs
  · rfl
  · rfl
  · rfl
  · rfl
  · cases Descriptor.find? line.operation <;> rfl

theorem statement_of_handleLine {line : Line} (h : handleLine line a = .ok (o, processed) b) :
    o.statement = (parse line (a.atLine line.number)).1 := by
  cases handles_of_handleLine h with
  | comment => rfl
  | beyond => rfl
  | overrun => rfl
  | processed _ _ hp => exact (processed_of_process hp).statement

theorem kind_of_unprocessed {line : Line} (h : handleLine line a = .ok (o, false) b) :
    o.statement.kind = .comment ∨ o.statement.kind = .unknown := by
  have hending := ((parse_leads line a).entry_eq rfl).1
  rw [statement_of_handleLine h]
  cases handles_of_handleLine h with
  | comment hf => exact parse_kind (.inl hf)
  | beyond _ he => exact parse_kind (.inr (by rw [← hending, he]; decide))
  | overrun _ he => exact parse_kind (.inr (by rw [← hending, he]; decide))

theorem processed_of_definesLabel {line : Line} (h : handleLine line a = .ok (o, processed) b)
    (hkind : o.statement.kind.definesLabel = true) : processed = true := by
  cases processed with
  | true => rfl
  | false => rcases kind_of_unprocessed h with hk | hk <;> rw [hk] at hkind <;> cases hkind

/-! ## One line in two states -/

/-- What placed the statement is what counts afterwards: labels, cells and messages move nothing. -/
def Assembly.registers (a : Assembly) : Word × Word × Byte × Ending × Word :=
  (a.counter, a.last, a.head, a.ending, a.entry)

theorem Leads.registers_eq (h : Leads .still a b) : b.registers = a.registers := by
  unfold Assembly.registers
  rw [(h.counter_eq rfl).1, (h.counter_eq rfl).2, h.head_eq rfl, (h.entry_eq rfl).1,
    (h.entry_eq rfl).2]

theorem layOut_registers (s : Statement) (a : Assembly) :
    (layOut s a).2.registers = (place s a).2.registers := by
  rw [layOut_apply, ← (beforeLabel_of_place s a).registers_eq]
  dsimp only
  split
  · rcases defineLabel_apply s (place s a).1 (beforeLabel s a) with ⟨-, h⟩ | ⟨-, h⟩ <;> rw [h] <;> rfl
  · rfl

theorem Processed.registers_eq (h : Processed s a o b) :
    b.registers = (place s a).2.registers := by
  rcases h.core with ⟨-, -, rfl⟩ | ⟨-, c, hc, hs⟩
  · exact layOut_registers s a
  · rw [← layOut_registers, ← (encode_leads hc).registers_eq]
    rcases store_cases hs with ⟨-, rfl⟩ | ⟨-, rfl⟩ <;> rfl

theorem Assembly.Aligned.of_registers (h : Aligned a b) (ha : a'.options = a.options)
    (hb : b'.options = b.options) (hra : a'.registers = a.registers)
    (hrb : b'.registers = b.registers) : Aligned a' b' := by
  simp only [Assembly.registers, Prod.mk.injEq] at hra hrb
  obtain ⟨hca, hla, hha, hea, -⟩ := hra
  obtain ⟨hcb, hlb, hhb, heb, -⟩ := hrb
  exact {
    options := by rw [ha, hb, h.options]
    counter := by rw [hca, hcb, h.counter]
    last := by rw [hla, hlb, h.last]
    head := by rw [hha, hhb, h.head]
    ending := by rw [hea, heb, h.ending] }

theorem Assembly.Rests.registers_eq (h : a.Rests b) : b.registers = a.registers := by
  rw [h.same]
  rfl

/-- Two states that agree on where a program starts, once both have met its end. -/
def SameEntry (a b : Assembly) : Prop := a.ending ≠ .running → b.entry = a.entry

theorem SameEntry.of_registers (h : SameEntry a b) (hra : a'.registers = a.registers)
    (hrb : b'.registers = b.registers) : SameEntry a' b' := by
  simp only [Assembly.registers, Prod.mk.injEq] at hra hrb
  intro hrun
  rw [hra.2.2.2.1] at hrun
  rw [hra.2.2.2.2, hrb.2.2.2.2]
  exact h hrun

theorem Processed.options_eq (h : Processed s a o b) : b.options = (place s a).2.options := by
  rw [h.keeps.options, (place_within s a).frame.options]

theorem placeEnd_entry (s : Statement) (a : Assembly) :
    (placeEnd s a).2.entry = (placeEnd s a).1.address := rfl

/-- The entry is the address of the end statement, and no other statement changes it. -/
theorem place_entry (s : Statement) (a : Assembly) :
    (place s a).2.entry = (place s a).1.address ∨
      ((place s a).2.ending = a.ending ∧ (place s a).2.entry = a.entry) := by
  by_cases hkind : s.kind = .dend
  · left
    unfold place
    rw [hkind]
    exact placeEnd_entry s a
  · right
    refine (place_within s a).entry_eq ?_
    cases hk : s.kind <;> first | rfl | exact absurd hk hkind

theorem handles_agree (ha : Handles s a o processed a') (hb : Handles s b o' processed' b')
    (h : Agrees s.layoutOperands a b) (hentry : SameEntry a b) :
    o'.statement = o.statement ∧ o'.placement = o.placement ∧ processed' = processed ∧
      Aligned a' b' ∧ SameEntry a' b' := by
  cases ha.alike hb h.ending with
  | comment => exact ⟨rfl, rfl, rfl, h.toAligned, hentry⟩
  | overrun => exact ⟨rfl, rfl, rfl, h.toAligned, hentry⟩
  | processed he hbe hp hq =>
    have hpa := processed_of_process hp
    have hqb := processed_of_process hq
    obtain ⟨hplace, hagrees⟩ := place_agree s a b h
    have hplacement : o'.placement = o.placement := by
      rw [hpa.placement, hqb.placement, layOut_apply, layOut_apply]
      exact hplace
    have ha' := hpa.registers_eq
    have hb' := hqb.registers_eq
    have haligned := hagrees.toAligned.of_registers hpa.options_eq hqb.options_eq ha' hb'
    refine ⟨by rw [hpa.statement, hqb.statement], hplacement, rfl, haligned, fun hrun => ?_⟩
    simp only [Assembly.registers, Prod.mk.injEq] at ha' hb'
    rw [ha'.2.2.2.1] at hrun
    rw [ha'.2.2.2.2, hb'.2.2.2.2]
    rcases place_entry s a with hea | ⟨hea, -⟩
    · rcases place_entry s b with heb | ⟨heb, -⟩
      · rw [hea, heb, hplace]
      · exact absurd (hagrees.ending.symm.trans (heb.trans hbe)) hrun
    · exact absurd (hea.trans he) hrun
  | beyond he =>
    refine ⟨rfl, rfl, rfl, ⟨h.options, h.counter, h.last, h.head, rfl⟩, fun _ => hentry ?_⟩
    rw [he]
    decide

/-- **One line in two states that agree on its layout operands** has the same statement and the same
place in both, and leaves them aligned. -/
theorem handleLine_agree {line : Line} (ha : handleLine line a = .ok (o, processed) a')
    (hb : handleLine line b = .ok (o', processed') b')
    (h : Agrees o.statement.layoutOperands (a.atLine line.number) (b.atLine line.number))
    (hentry : SameEntry a b) :
    o'.statement = o.statement ∧ o'.placement = o.placement ∧ processed' = processed ∧
      Aligned a' b' ∧ SameEntry a' b' := by
  have hla := parse_leads line a
  have hlb := parse_leads line b
  have hhb := handles_of_handleLine hb
  rw [statement_of_handleLine ha] at h
  rw [parse_agree h] at hhb
  exact handles_agree (handles_of_handleLine ha) hhb (h.leads hla hlb)
    (hentry.of_registers hla.registers_eq hlb.registers_eq)

/-! ## The first pass -/

/-- The symbol that the label of a statement is defined as. -/
def labelSymbol (s : Statement) (p : Placement) (head : Byte) (line : Word) : Symbol :=
  { name := headKey head s.label, address := p.labelAddress, kind := s.kind, defined := line }

/-- Bare symbols stay, and the label of a statement may be entered under a key that was free. -/
structure Enters (s : Statement) (p : Placement) (a b : Assembly) : Prop where
  divide : b.symbols.divide = a.symbols.divide
  bare : ∀ key, b.symbols.bare? key = a.symbols.bare? key ∨
    (a.symbols.bare? key = none ∧ s.kind.definesLabel = true ∧ key = headKey a.head s.label ∧
      b.symbols.bare? key = some (labelSymbol s p a.head a.log.line) ∧ s.label.isBlank = false)

theorem Enters.embeds {p : Placement} (h : Enters s p a b) : a.symbols.Embeds b.symbols := by
  refine ⟨h.divide, fun key t ht => ?_⟩
  rcases h.bare key with hk | ⟨hk, -⟩
  · rw [hk, ht]
  · rw [ht] at hk
    cases hk

theorem noted_of_first (hpass : a.log.pass = 1) (h : a.Frame b) :
    SymbolTable.Noted false a.symbols b.symbols := by
  have hnoted := h.noted
  unfold Assembly.emitting at hnoted
  rwa [hpass] at hnoted

theorem beforeLabel_head (h : s.kind.definesLabel = true) (a : Assembly) :
    (beforeLabel s a).head = a.head := by
  have hplace : (place s a).2.head = a.head :=
    (place_within s a).head_eq (by rw [reach_of_definesLabel h]; rfl)
  rw [(beforeLabel_of_place s a).head_eq rfl, hplace]

/-- What the label of a statement comes to in the first pass: it is left out, or refused with an
error, or entered. -/
theorem layOut_first (s : Statement) (a : Assembly) (hpass : a.log.pass = 1) :
    ((layOut s a).2 = beforeLabel s a ∧ (s.kind.definesLabel = true → s.label.isBlank = true)) ∨
    (∃ c, (layOut s a).2 = (beforeLabel s a).raise [error c]) ∨
    (∃ t, t = (beforeLabel s a).symbols.enter (labelSymbol s (place s a).1 a.head a.log.line) ∧
      (layOut s a).2 = { beforeLabel s a with symbols := t } ∧ s.kind.definesLabel = true ∧
      isLabel a.symbols.divide s.label = true ∧
      a.symbols.bare? (headKey a.head s.label) = none) := by
  have hframe := place_frame s a
  have hnoted := noted_of_first hpass hframe
  have hline : (beforeLabel s a).log.line = a.log.line := hframe.line_eq
  have hfirst : (beforeLabel s a).log.pass = 1 := by rw [(Keeps.of_frame hframe).pass, hpass]
  rw [layOut_apply]
  dsimp only
  by_cases hlabel : s.kind.definesLabel = true
  · rw [if_pos hlabel]
    have hhead := beforeLabel_head hlabel a
    rcases defineLabel_apply s (place s a).1 (beforeLabel s a) with ⟨-, h⟩ | ⟨hne, -⟩
    · rw [h]
      rcases (beforeLabel s a).symbols.define_cases s.label (place s a).1.labelAddress s.kind
        (beforeLabel s a).log.line (beforeLabel s a).head with
        ⟨hd, hblank⟩ | ⟨c, hd⟩ | ⟨hd, hvalid, hfree⟩
      · rw [hd]
        exact .inl ⟨rfl, fun _ => hblank⟩
      · rw [hd]
        exact .inr (.inl ⟨c, rfl⟩)
      · rw [hd]
        rw [hnoted.divide] at hvalid
        rw [hnoted.bare_eq, hhead] at hfree
        exact .inr (.inr ⟨_, by rw [hline, hhead]; rfl, rfl, hlabel, hvalid, hfree⟩)
    · exact absurd hfirst hne
  · rw [if_neg hlabel]
    exact .inl ⟨rfl, fun h => absurd h hlabel⟩

theorem layOut_enters (s : Statement) (a : Assembly) (hpass : a.log.pass = 1) :
    Enters s (place s a).1 a (layOut s a).2 := by
  have hnoted := noted_of_first hpass (place_frame s a)
  rcases layOut_first s a hpass with ⟨h, -⟩ | ⟨c, h⟩ | ⟨t, rfl, h, hkind, hlabel, hfree⟩
  · rw [h]
    exact ⟨hnoted.divide, fun key => .inl (hnoted.bare_eq key)⟩
  · rw [h]
    exact ⟨hnoted.divide, fun key => .inl (hnoted.bare_eq key)⟩
  · rw [h]
    refine ⟨hnoted.divide, fun key => ?_⟩
    rw [SymbolTable.bare?_enter, hnoted.bare_eq]
    by_cases hkey : headKey a.head s.label = key
    · subst hkey
      exact .inr ⟨hfree, hkind, rfl, by simp [hfree, labelSymbol, Symbol.bare],
        isBlank_of_isSymbol (SymbolTable.isSymbol_of_isLabel hlabel)⟩
    · exact .inl (by simp [labelSymbol, hkey])

/-- **A line in the first pass** may enter its label, and changes no other symbol. -/
theorem Handles.enters (h : Handles s a o processed b) (hpass : a.log.pass = 1) :
    Enters s o.placement a b := by
  have hsame : ∀ p c, c.symbols = a.symbols → Enters s p a c := fun p c hc =>
    ⟨by rw [hc], fun key => .inl (by rw [hc])⟩
  cases h with
  | comment => exact hsame _ _ rfl
  | processed _ _ hp =>
    have hprocessed := processed_of_process hp
    have henters := layOut_enters s a hpass
    rw [hprocessed.placement, hprocessed.first hpass, layOut_apply]
    rwa [layOut_apply] at henters
  | beyond => exact hsame _ _ rfl
  | overrun => exact hsame _ _ rfl

theorem Handles.label (h : Handles s a o true b) (hpass : a.log.pass = 1) (hmuted : a.log.muted = 0)
    (hcount : b.log.errorCount ≤ a.log.errorCount) (hkind : s.kind.definesLabel = true)
    (hblank : s.label.isBlank = false) : isLabel a.symbols.divide s.label = true ∧
      b.symbols.bare? (headKey a.head s.label) =
        some (labelSymbol s o.placement a.head a.log.line) := by
  cases h with
  | processed _ _ hp =>
    have hprocessed := processed_of_process hp
    have hframe := place_frame s a
    have hplacement : o.placement = (place s a).1 := by rw [hprocessed.placement, layOut_apply]
    rw [hprocessed.first hpass] at hcount ⊢
    rw [hplacement]
    rcases layOut_first s a hpass with ⟨-, hb⟩ | ⟨c, h⟩ | ⟨t, rfl, h, -, hvalid, hfree⟩
    · rw [hb hkind] at hblank
      cases hblank
    · have hmuted' : (beforeLabel s a).log.muted = 0 := by rw [(Keeps.of_frame hframe).muted, hmuted]
      have hraise := (beforeLabel s a).log.errorCount_raiseAll hmuted' [error c]
      rw [h] at hcount
      change ((beforeLabel s a).log.raiseAll [error c]).errorCount ≤ a.log.errorCount at hcount
      have herrors := hframe.errors
      rw [hraise] at hcount
      simp [Report.isError, error] at hcount
      omega
    · refine ⟨hvalid, ?_⟩
      rw [h, SymbolTable.bare?_enter, (noted_of_first hpass hframe).bare_eq, hfree]
      simp [labelSymbol, Symbol.bare]

theorem Handles.settled (h : Handles s a o true b) (hmuted : a.log.muted = 0)
    (hcount : b.log.errorCount ≤ a.log.errorCount) {operand : Text}
    (hmem : operand ∈ s.layoutOperands) : ∀ key ∈ operandKeys a.symbols.divide a.head operand,
      a.symbols.Settled key a.log.line true := by
  cases h with
  | processed _ _ hp =>
    have hplaced := (beforeLabel_of_place s a).frame.errors
    have hlabelled := (beforeLabel_keeps s a).errors
    have hencoded := (processed_of_process hp).keeps_layOut.errors
    exact place_demands settlesKeys_demanded s hmem a hmuted (by omega)

/-! ## Any other pass -/

theorem layOut_second (s : Statement) (a : Assembly) (hpass : a.log.pass ≠ 1) :
    (layOut s a).2 = (beforeLabel s a).raise (if s.kind.definesLabel then
      (beforeLabel s a).symbols.verify s.label a.log.line a.head else []) := by
  have hframe := place_frame s a
  have hline : (beforeLabel s a).log.line = a.log.line := hframe.line_eq
  rw [layOut_apply]
  dsimp only
  by_cases hlabel : s.kind.definesLabel = true
  · rw [if_pos hlabel, if_pos hlabel]
    rcases defineLabel_apply s (place s a).1 (beforeLabel s a) with ⟨hfirst, -⟩ | ⟨-, h⟩
    · rw [(Keeps.of_frame hframe).pass] at hfirst
      exact absurd hfirst hpass
    · rw [h, hline, beforeLabel_head hlabel]
  · rw [if_neg hlabel, if_neg hlabel]
    rfl

theorem store_symbols {address : Word} {value : Value} (h : store address value a = .ok () b) :
    b.symbols = a.symbols ∧ a.Appends b := by
  rcases store_cases h with ⟨-, rfl⟩ | ⟨-, rfl⟩
  · exact ⟨rfl, a.appends_raise (.one rfl)⟩
  · exact ⟨rfl, .refl a⟩

/-- What a line does in the second pass, but for the check of its label. -/
theorem Processed.second (h : Processed s a o b) (hpass : a.log.pass = 2) :
    SymbolTable.Noted true a.symbols b.symbols := by
  have hframe := place_frame s a
  have hemitting : a.emitting = true := by rw [Assembly.emitting, hpass]; rfl
  have hnoted := hframe.noted
  rw [hemitting] at hnoted
  have hlayout := layOut_second s a (by rw [hpass]; decide)
  have hsymbols : (layOut s a).2.symbols = (beforeLabel s a).symbols := by rw [hlayout]; rfl
  rcases h.core with ⟨-, -, rfl⟩ | ⟨he, c, hc, hs⟩
  · rwa [hsymbols]
  · have hencode := (encode_leads hc).frame.noted
    rw [he, hsymbols] at hencode
    rw [(store_symbols hs).1]
    exact hnoted.trans hencode

/-- **A line in the second pass** only notes references. -/
theorem Handles.noted (h : Handles s a o processed b) (hpass : a.log.pass = 2) :
    SymbolTable.Noted true a.symbols b.symbols := by
  cases h with
  | comment => exact .refl ..
  | processed _ _ hp => exact (processed_of_process hp).second hpass
  | beyond => exact .refl ..
  | overrun => exact .refl ..

/-- The label of a processed statement is the one defined on its line. -/
def OwnLabel (s : Statement) (a : Assembly) : Prop :=
  s.kind.definesLabel = true → s.label.isBlank = false → isLabel a.symbols.divide s.label = true ∧
    ∃ t, a.symbols.bare? (headKey a.head s.label) = some t ∧ t.defined = a.log.line

theorem verify_beforeLabel (h : OwnLabel s a) (hkind : s.kind.definesLabel = true) :
    (beforeLabel s a).symbols.verify s.label a.log.line a.head = [] := by
  have hnoted := (place_frame s a).noted
  by_cases hblank : s.label.isBlank = true
  · exact if_pos hblank
  · obtain ⟨hvalid, t, ht, hline⟩ := h hkind (by simpa using hblank)
    exact SymbolTable.verify_eq_nil (by rwa [hnoted.divide]) (hnoted.embeds.bare _ _ ht) hline

/-- **A label that is the one defined on its line** raises no message in the second pass. -/
theorem Handles.unlabelled (h : Handles s a o processed b) (hpass : a.log.pass = 2)
    (hlabel : processed = true → OwnLabel s a) : a.Appends b := by
  cases h with
  | comment => exact .refl a
  | beyond => exact a.appends_raise (.one rfl)
  | overrun => exact .refl a
  | processed _ _ hp =>
    have hlayout := layOut_second s a (by rw [hpass]; decide)
    have hsilent : Unlabelled (if s.kind.definesLabel then
        (beforeLabel s a).symbols.verify s.label a.log.line a.head else []) := by
      split
      · rw [verify_beforeLabel (hlabel rfl) ‹_›]
        exact .nil
      · exact .nil
    have hplaced : a.Appends (layOut s a).2 := by
      rw [hlayout]
      exact (place_frame s a).pending.trans (Assembly.appends_raise _ hsilent)
    rcases (processed_of_process hp).core with ⟨-, -, rfl⟩ | ⟨-, c, hc, hs⟩
    · exact hplaced
    · exact (hplaced.trans (encode_leads hc).frame.pending).trans (store_symbols hs).2

/-! ## The head in force -/

/-- The head that is in force behind a statement. -/
def Statement.headAfter (s : Statement) (head : Byte) : Byte :=
  if s.kind ≠ .head then head
  else if (s.operand 0).isBlank then Byte.blank
  else match s.operand 0 with
    | [h] => if isHead h then h else head
    | _ => head

/-- The head that is in force behind statements; there is none at first. -/
def headBehind (statements : List Statement) : Byte :=
  statements.foldl (fun head s => s.headAfter head) Byte.blank

theorem changeHead_head (operand : Text) (a : Assembly) : (changeHead operand a).2.head =
    if operand.isBlank then Byte.blank
    else match operand with
      | [h] => if isHead h then h else a.head
      | _ => a.head := by
  unfold changeHead
  rw [Step.ite_apply]
  by_cases hblank : operand.isBlank = true
  · rw [if_pos hblank, if_pos hblank]
    rfl
  · rw [if_neg hblank, if_neg hblank]
    rcases operand with _ | ⟨h, _ | ⟨g, rest⟩⟩
    · rfl
    · change ((if isHead h then _ else _ : Step Unit) a).2.head = _
      rw [Step.ite_apply]
      dsimp only
      split_ifs <;> rfl
    · rfl

theorem place_head (s : Statement) (a : Assembly) : (place s a).2.head = s.headAfter a.head := by
  unfold Statement.headAfter
  by_cases hkind : s.kind = .head
  · rw [if_neg (by simp [hkind])]
    unfold place
    rw [hkind]
    change (changeHead (s.operand 0) (unexpectedLabel s a).2).2.head = _
    have hlabel : (unexpectedLabel s a).2.head = a.head := by
      have h : Leads .still a (unexpectedLabel s a).2 := unexpectedLabel_within s a
      exact h.head_eq rfl
    rw [changeHead_head, hlabel]
  · rw [if_pos hkind]
    refine (place_within s a).head_eq ?_
    cases hk : s.kind <;> first | rfl | exact absurd hk hkind

theorem handleLine_head {line : Line} (h : handleLine line a = .ok (o, processed) b) :
    b.head = o.statement.headAfter a.head := by
  have hhead : (parse line (a.atLine line.number)).2.head = a.head :=
    (parse_leads line a).head_eq rfl
  have hhandles := handles_of_handleLine h
  cases processed with
  | true =>
    cases hhandles with
    | processed _ _ hp =>
      have hprocessed := processed_of_process hp
      have hregisters := hprocessed.registers_eq
      simp only [Assembly.registers, Prod.mk.injEq] at hregisters
      rw [hregisters.2.2.1, hprocessed.statement, place_head, hhead]
  | false =>
    have hsame : o.statement.headAfter a.head = a.head := by
      rw [Statement.headAfter, if_pos]
      rcases kind_of_unprocessed h with hk | hk <;> rw [hk] <;> decide
    rw [hsame, ← hhead]
    cases hhandles <;> rfl

/-! ## Whole passes -/

theorem enters_of_handleLine {line : Line} (h : handleLine line a = .ok (o, processed) b)
    (hpass : a.log.pass = 1) :
    Enters o.statement o.placement (a.atLine line.number) b := by
  have hparse := parse_leads line a
  have hframe := hparse.frame
  have hnoted := noted_of_first (a := a.atLine line.number) hpass hframe
  have hline : (parse line (a.atLine line.number)).2.log.line = (a.atLine line.number).log.line :=
    hframe.line_eq
  have henters := (handles_of_handleLine h).enters (by rw [(Keeps.of_frame hframe).pass]; exact hpass)
  rw [statement_of_handleLine h]
  refine ⟨henters.divide.trans hnoted.divide, fun key => ?_⟩
  have hbare := henters.bare key
  rwa [hnoted.bare_eq, hparse.head_eq rfl, hline] at hbare

theorem Visits.embeds {vs : List Visit} (h : Visits a vs b) (hpass : a.log.pass = 1) :
    a.symbols.Embeds b.symbols := by
  induction h with
  | nil hrests => rw [hrests.symbols_eq]; exact .refl _
  | cons hrests hv _ ih =>
    have hpass' := hrests.pass.trans hpass
    have hfirst := (enters_of_handleLine hv hpass').embeds
    have hrest := ih ((keeps_of_handleLine hv).pass.trans hpass')
    rw [← hrests.symbols_eq]
    exact hfirst.trans hrest

theorem noted_of_handleLine {line : Line} (h : handleLine line b = .ok (o, processed) b')
    (hpass : b.log.pass = 2) : SymbolTable.Noted true b.symbols b'.symbols := by
  have hframe := (parse_leads line b).frame
  have hparsed := hframe.noted
  have hemitting : (b.atLine line.number).emitting = true := by
    unfold Assembly.emitting
    rw [show (b.atLine line.number).log.pass = 2 from hpass]
    rfl
  rw [hemitting] at hparsed
  exact hparsed.trans
    ((handles_of_handleLine h).noted ((Keeps.of_frame hframe).pass.trans hpass))

theorem Visits.noted {vs : List Visit} (h : Visits a vs b) (hpass : a.log.pass = 2) :
    SymbolTable.Noted true a.symbols b.symbols := by
  induction h with
  | nil hrests => rw [hrests.symbols_eq]; exact .refl ..
  | cons hrests hv _ ih =>
    have hpass' := hrests.pass.trans hpass
    have hrest := ih ((keeps_of_handleLine hv).pass.trans hpass')
    rw [← hrests.symbols_eq]
    exact (noted_of_handleLine hv hpass').trans hrest

/-- The head in force is the one that the statements of a pass leave. -/
theorem Visits.head_eq {vs : List Visit} (h : Visits a vs b) :
    b.head = (vs.map (·.outcome.statement)).foldl (fun head s => s.headAfter head) a.head := by
  induction h with
  | nil hrests => rw [hrests.same]; rfl
  | cons hrests hv _ ih =>
    rw [ih, handleLine_head hv, hrests.same]
    rfl

/-! ## Lines that are alike in two passes -/

/-- A line that has the same statement and the same place in two passes. -/
structure Alike (v w : Visit) : Prop where
  statement : w.outcome.statement = v.outcome.statement
  placement : w.outcome.placement = v.outcome.placement
  processed : w.processed = v.processed

/-- What is read off the lines alone, and is the same of lines that are alike, is the same of two
passes. -/
theorem filterMap_of_alike {γ : Type} {es fs : List Event} {vs ws : List Visit}
    (hvs : Recorded es vs) (hws : Recorded fs ws) (h : List.Forall₂ Alike vs ws)
    {f : Event → Option γ} (hf : ∀ e, e.outcome? = none → f e = none)
    (halike : ∀ v w, Alike v w → f v.event = f w.event) : es.filterMap f = fs.filterMap f := by
  rw [hvs.filterMap hf, hws.filterMap hf]
  clear hvs hws
  induction h with
  | nil => rfl
  | cons hvw _ ih =>
    rw [List.filterMap_cons, List.filterMap_cons, Function.comp_apply, Function.comp_apply,
      halike _ _ hvw, ih]

theorem layout_of_alike {es fs : List Event} {vs ws : List Visit} (hvs : Recorded es vs)
    (hws : Recorded fs ws) (h : List.Forall₂ Alike vs ws) :
    es.filterMap Event.span? = fs.filterMap Event.span? := by
  refine filterMap_of_alike hvs hws h (fun e he => ?_) fun v w hvw => ?_
  · cases e <;> first | rfl | cases he
  · dsimp only [Visit.event, Visit.result, Event.span?]
    rw [hvw.processed, hvw.statement, hvw.placement]

/-! ## Programs -/

variable {options : Options} {first second : Reading Line} {run : Run} {program : Program}
  {c d : Assembly}

theorem TwoPasses.visits (h : TwoPasses options first second run program a b c d) :
    ∃ vs ws, Visits (a.reset 1) vs b ∧ Visits c ws d ∧ vs.map Visit.line = first.lines ∧
      ws.map Visit.line = second.lines ∧ Recorded run.first vs ∧ Recorded run.second ws ∧
      (b.log.errorCount = 0 → b.ending ≠ .running) := by
  obtain ⟨vs, hvs, hvlines, hvrec⟩ := visits_of_runPass h.pass1
  obtain ⟨ws, hws, hwlines, hwrec⟩ := visits_of_runPass h.pass2
  have hmuted : (a.reset 1).log.muted = 0 := by rw [(start_eq h.start).2]; rfl
  exact ⟨vs, ws, hvs, hws, hvlines, hwlines, hvrec, hwrec, fun hclean hrunning =>
    errors_of_running h.pass1 h.failure1 hrunning hmuted hclean⟩

theorem TwoPasses.aligned (h : TwoPasses options first second run program a b c d) :
    Aligned (a.reset 1) c ∧ c.log.pass = 2 ∧ c.symbols = b.symbols := by
  obtain ⟨vs, hvs, -⟩ := visits_of_runPass h.pass1
  have hoptions : b.options = a.options := hvs.keeps.options
  rw [(load_eq h.load).1]
  exact ⟨⟨hoptions, rfl, rfl, rfl, rfl⟩, rfl, rfl⟩

theorem TwoPasses.audible (h : TwoPasses options first second run program a b c d) :
    (a.reset 1).log.muted = 0 ∧ c.log.muted = 0 := by
  obtain ⟨vs, hvs, -⟩ := visits_of_runPass h.pass1
  have hstart : (a.reset 1).log.muted = 0 := by rw [(start_eq h.start).2]; rfl
  rw [(load_eq h.load).1]
  exact ⟨hstart, hvs.keeps.muted.trans hstart⟩

theorem TwoPasses.faultless (h : TwoPasses options first second run program a b c d) :
    (a.reset 1).fault = none ∧ c.fault = none := by
  obtain ⟨vs, hvs, -⟩ := visits_of_runPass h.pass1
  have hstart : (a.reset 1).fault = none := by rw [(start_eq h.start).2]; rfl
  rw [(load_eq h.load).1]
  exact ⟨hstart, hvs.keeps.fault.trans hstart⟩

end SpsAssembler
