import SpsAssembler.Proofs.Lockstep
import SpsAssembler.Proofs.Reports

/-!
# States that differ in presentation

Whether warnings are kept and what is loaded besides a program changes nothing that a statement
reads. So two states that differ in nothing else handle a line alike, and store the same cells.

* `Log.Twins`: logs that differ in warnings only; **`Log.errors_raise`**: why they stay so;
* `Memory.Agree`: core with the same cells at some places;
* `Assembly.Twins`, `twins_tracks`: states that parse and place statements alike;
* `Build.Mirrors`, `encode_mirrors`: encoding gives the same cells;
* `Outcome.Stores`, `process_twins`: storing them makes core agree there;
* **`handleLine_twins`**: what a line keeps.
-/

namespace SpsAssembler

/-! ## Logs -/

namespace Log

variable {ρ : Type} {log other : Log ρ}

/-- The errors among the messages that are pending. -/
def errors (log : Log ρ) : List (Diagnostic ρ) := log.pending.filter Diagnostic.isError

/-- **A report adds to the errors** if it is one, whether or not warnings are kept. -/
theorem errors_raise (log : Log ρ) (r : Report ρ) : (log.raise r).errors =
    log.errors ++ if log.muted == 0 && r.isError then [⟨r.severity, log.pass, log.line, r.cause⟩]
      else [] := by
  unfold raise errors push
  by_cases hmuted : log.muted = 0
  · cases hr : r.severity with
    | error => simp [hmuted, hr, Report.isError, Diagnostic.isError]
    | warning =>
      cases hwarnings : log.warnings <;> simp [hmuted, hr, Report.isError, Diagnostic.isError]
  · simp [hmuted]

/-- Logs of the same line that differ in warnings only. -/
structure Twins (log other : Log ρ) : Prop where
  muted : other.muted = log.muted
  pass : other.pass = log.pass
  line : other.line = log.line
  errors : other.errors = log.errors

theorem Twins.raise (h : Twins log other) (r : Report ρ) : Twins (log.raise r) (other.raise r) := by
  have hplace := log.raise_place r
  have hplace' := other.raise_place r
  simp only [place, Prod.mk.injEq] at hplace hplace'
  refine ⟨?_, ?_, ?_, ?_⟩
  · rw [hplace.2.1, hplace'.2.1, h.muted]
  · rw [hplace.2.2.1, hplace'.2.2.1, h.pass]
  · rw [hplace.2.2.2, hplace'.2.2.2, h.line]
  · rw [errors_raise, errors_raise, h.muted, h.pass, h.line, h.errors]

theorem Twins.raiseAll (h : Twins log other) (rs : List (Report ρ)) :
    Twins (log.raiseAll rs) (other.raiseAll rs) := by
  induction rs generalizing log other with
  | nil => exact h
  | cons r rs ih => exact ih (h.raise r)

end Log

/-! ## Core -/

namespace Memory

variable {size : Nat} {agreed : Nat → Prop} {m n : Memory}

/-- Two memories of `size` cells that hold the same at the agreed places. -/
structure Agree (size : Nat) (agreed : Nat → Prop) (m n : Memory) : Prop where
  left : m.cells.size = size
  right : n.cells.size = size
  cells : ∀ i, agreed i → n.cells[i]? = m.cells[i]?

theorem Agree.mono (h : Agree size agreed m n) {other : Nat → Prop}
    (hother : ∀ i, other i → agreed i) : Agree size other m n :=
  { h with cells := fun i hi => h.cells i (hother i hi) }

theorem Agree.fits_eq (h : Agree size agreed m n) (addr length : Word) :
    n.fits addr length = m.fits addr length := by
  unfold fits Memory.size
  rw [h.left, h.right]

theorem Agree.admits_eq (h : Agree size agreed m n) (addr : Word) (v : Value) :
    n.admits addr v = m.admits addr v := by
  unfold admits
  rw [h.fits_eq, Memory.size, Memory.size, h.left, h.right]

theorem write_agree {cells other : Array Cell} (hsize : other.size = cells.size) {k i : Nat}
    {v : Value} (h : other[i]? = cells[i]? ∨ k ≤ i ∧ i < k + v.length) :
    (write other k v)[i]? = (write cells k v)[i]? := by
  induction v generalizing cells other k with
  | nil => exact h.elim id fun hi => absurd hi.2 (Nat.not_lt.mpr hi.1)
  | cons c v ih =>
    refine ih (by simp [hsize]) ?_
    by_cases hi : k = i
    · left
      simp [hi, hsize, Array.getElem?_setIfInBounds]
    · rcases h with h | h
      · left
        rw [Array.getElem?_setIfInBounds_ne hi, Array.getElem?_setIfInBounds_ne hi, h]
      · right
        rw [List.length_cons] at h
        omega

/-- **Storing a value** makes two memories agree where it is stored. -/
theorem Agree.written (h : Agree size agreed m n) (addr : Word) (v : Value) :
    Agree size (fun i => agreed i ∨ addr.toNatClampNeg ≤ i ∧ i < addr.toNatClampNeg + v.length)
      (m.written addr v) (n.written addr v) where
  left := by rw [Memory.written, size_write, h.left]
  right := by rw [Memory.written, size_write, h.right]
  cells i hi := write_agree (by rw [h.left, h.right]) (hi.imp_left (h.cells i))

end Memory

/-! ## States -/

namespace Assembly

variable {size : Nat} {agreed : Nat → Prop} {a b : Assembly}

/-- Two states that differ only in warnings, in what is to be loaded and in cells that are not
agreed on. -/
structure Twins (size : Nat) (agreed : Nat → Prop) (a b : Assembly) : Prop where
  model : b.options.model = a.options.model
  memorySize : b.options.memorySize = a.options.memorySize
  log : a.log.Twins b.log
  symbols : b.symbols = a.symbols
  memory : a.memory.Agree size agreed b.memory
  counter : b.counter = a.counter
  last : b.last = a.last
  head : b.head = a.head
  ending : b.ending = a.ending
  entry : b.entry = a.entry
  fault : b.fault = a.fault

namespace Twins

theorem mono (h : Twins size agreed a b) {other : Nat → Prop} (hother : ∀ i, other i → agreed i) :
    Twins size other a b := { h with memory := h.memory.mono hother }

theorem raise (h : Twins size agreed a b) (reports : List (Report Cause)) :
    Twins size agreed (a.raise reports) (b.raise reports) :=
  { h with log := h.log.raiseAll reports }

theorem withSymbols (h : Twins size agreed a b) (symbols : SymbolTable) :
    Twins size agreed { a with symbols } { b with symbols } := { h with symbols := rfl }

theorem atLine (h : Twins size agreed a b) (line : Word) :
    Twins size agreed (a.atLine line) (b.atLine line) :=
  { h with log := { h.log with line := rfl } }

theorem scope_eq (h : Twins size agreed a b) : b.scope = a.scope := by
  unfold scope emitting
  rw [h.head, h.log.line, h.log.pass, h.memorySize]

theorem evaluateIn_eq (h : Twins size agreed a b) (usage : Usage) (operand : Text) :
    evaluateIn b.scope usage b.symbols operand = evaluateIn a.scope usage a.symbols operand := by
  rw [h.scope_eq, h.symbols]

theorem indexed_eq (h : Twins size agreed a b) : b.indexed = a.indexed := by
  unfold indexed
  rw [h.model]

theorem emitting_eq (h : Twins size agreed a b) : b.emitting = a.emitting := by
  unfold emitting
  rw [h.log.pass]

end Twins

end Assembly

open Assembly (Twins)

variable {α β : Type} {size : Nat} {agreed : Nat → Prop}

theorem report_relates {reports : List (Report Cause)} :
    Step.Relates (Twins size agreed) (report reports) := fun _ _ h => ⟨rfl, h.raise reports⟩

theorem evaluate_relates {operand : Text} {usage : Usage} :
    Step.Relates (Twins size agreed) (evaluate operand usage) := by
  intro a b h
  rw [evaluate_apply, evaluate_apply, h.evaluateIn_eq]
  exact ⟨rfl, (h.withSymbols _).raise _⟩

theorem evaluateLayout_relates {operand : Text} {check : Check} :
    Step.Relates (Twins size agreed) (evaluateLayout operand check) := by
  refine .get_bind (fun _ => .bind evaluate_relates fun _ => .pure _) fun a b h => ?_
  rw [h.last]

/-- **Twin states** parse and place every statement alike. -/
theorem twins_tracks (operands : List Text) : Tracks operands (Twins size agreed) where
  reads h := ⟨h.model, h.memorySize, h.counter, h.last, h.ending⟩
  report _ := report_relates
  layout _ _ := evaluateLayout_relates
  quiet _ usage _ a b h := by
    rw [evaluateQuietly_eq, Step.modifyGet_apply, Step.modifyGet_apply, h.evaluateIn_eq]
    exact ⟨rfl, h.withSymbols _⟩
  count h _ _ := { h with counter := rfl, last := rfl }
  stop h _ := { h with ending := rfl }
  enter h _ := { h with entry := rfl }
  turn _ _ _ h _ := { h with head := rfl }

theorem defineLabel_relates (s : Statement) (p : Placement) :
    Step.Relates (Twins size agreed) (defineLabel s p) := by
  intro a b h
  refine ⟨rfl, ?_⟩
  rcases defineLabel_apply s p a with ⟨hpass, ha⟩ | ⟨hpass, ha⟩
  · rcases defineLabel_apply s p b with ⟨-, hb⟩ | ⟨hpass', -⟩
    · have hdefined : b.symbols.define s.label p.labelAddress s.kind b.log.line b.head =
          a.symbols.define s.label p.labelAddress s.kind a.log.line a.head := by
        rw [h.symbols, h.head, h.log.line]
      rw [ha, hb, hdefined]
      exact (h.withSymbols _).raise _
    · exact absurd (h.log.pass.trans hpass) hpass'
  · rcases defineLabel_apply s p b with ⟨hpass', -⟩ | ⟨-, hb⟩
    · exact absurd (h.log.pass.symm.trans hpass') hpass
    · rw [ha, hb, h.symbols, h.head, h.log.line]
      exact h.raise _

theorem layOut_relates (s : Statement) : Step.Relates (Twins size agreed) (layOut s) := by
  intro a b h
  obtain ⟨hp, hplaced⟩ := place_relates (twins_tracks s.layoutOperands) a b h
  have hbefore : Twins size agreed (beforeLabel s a) (beforeLabel s b) := by
    unfold beforeLabel
    rw [hp]
    split
    · exact (checkBounds_relates (twins_tracks []) _ _ _ hplaced).2
    · exact hplaced
  rw [layOut_apply, layOut_apply, hp]
  refine ⟨rfl, ?_⟩
  dsimp only
  split
  · exact (defineLabel_relates s _ _ _ hbefore).2
  · exact hbefore

/-! ## Encoding -/

/-- What the step does in one of two related states it does in the other, with the same answer. -/
def Build.Mirrors (R : Assembly → Assembly → Prop) (x : Build α) : Prop :=
  ∀ a b v a', R a b → x a = .ok v a' → ∃ b', x b = .ok v b' ∧ R a' b'

namespace Build.Mirrors

variable {R : Assembly → Assembly → Prop}

theorem pure (v : α) : Build.Mirrors R (pure v) := by
  intro a b w a' h hx
  cases hx
  exact ⟨b, rfl, h⟩

theorem lift {x : Step α} (hx : Step.Relates R x) : Build.Mirrors R (liftM x) := by
  intro a b v a' h hok
  obtain ⟨hv, hs⟩ := hx a b h
  cases hok
  exact ⟨(x b).2, by rw [Build.lift_apply, hv], hs⟩

theorem bind {x : Build α} {f : α → Build β} (hx : Build.Mirrors R x)
    (hf : ∀ v, Build.Mirrors R (f v)) : Build.Mirrors R (x >>= f) := by
  intro a b w a' h hok
  obtain ⟨v, c, hxa, hfa⟩ := Build.ok_of_bind_ok hok
  obtain ⟨d, hxb, hcd⟩ := hx a b v c h hxa
  obtain ⟨b', hfb, hb'⟩ := hf v c d w a' hcd hfa
  exact ⟨b', by rw [Build.bind_ok hxb, hfb], hb'⟩

theorem ite {c : Prop} [Decidable c] {x y : Build α} (hx : Build.Mirrors R x)
    (hy : Build.Mirrors R y) : Build.Mirrors R (if c then x else y) := by
  split
  · exact hx
  · exact hy

theorem ofExcept (x : Except Fault α) : Build.Mirrors R (MonadExcept.ofExcept x) := by
  cases x with
  | ok v => exact pure v
  | error f =>
    intro a b v a' _ hok
    cases hok

end Build.Mirrors

theorem constantCells_mirrors (c : Except Fault Constant) :
    Build.Mirrors (Twins size agreed) (constantCells c) :=
  .bind (.ofExcept c) fun _ => .bind (.lift report_relates) fun _ => .pure _

theorem putAddresses_relates (s : Statement) (p : Placement) (v : Value) :
    Step.Relates (Twins size agreed) (putAddresses s p v) := by
  refine .get_bind (fun _ => (Step.Relates.closed _).foldlM
    (fun _ _ _ => .bind evaluate_relates fun _ => .pure _) _) fun a b h => ?_
  simp only [h.indexed_eq]

theorem sectorOperand_relates {operand : Text} :
    Step.Relates (Twins size agreed) (sectorOperand operand) :=
  .bind evaluate_relates fun _ => .ite (.bind report_relates fun _ => .pure _) (.pure _)

theorem sectorCountOperand_relates {operand : Text} :
    Step.Relates (Twins size agreed) (sectorCountOperand operand) := by
  refine .bind evaluate_relates fun _ => .ite ?_ (.ite ?_ (.pure _))
  · exact .bind report_relates fun _ => .pure _
  · exact .bind report_relates fun _ => .pure _

theorem encodeDisk_relates (s : Statement) : Step.Relates (Twins size agreed) (encodeDisk s) :=
  .bind evaluate_relates fun _ => .bind sectorOperand_relates fun _ =>
    .bind sectorCountOperand_relates fun _ => .bind evaluateLayout_relates fun _ => .pure _

theorem encodeFieldsFrom_relates (s : Statement) (fields : List (Word × Nat)) (stop : Word)
    (v : Value) : Step.Relates (Twins size agreed) (encodeFieldsFrom s fields stop v) := by
  induction fields generalizing stop v with
  | nil => exact .pure v
  | cons field rest ih => exact .bind evaluate_relates fun _ => ih _ _

theorem encodeP_relates (s : Statement) (star : Word) :
    Step.Relates (Twins size agreed) (encodeP s star) := by
  refine .get_bind (fun _ => ?_) fun a b h => by simp only [h.indexed_eq]
  cases s.descriptor.p with
  | none => exact .bind report_relates fun _ => .pure _
  | reference => exact evaluate_relates
  | referenceEven => exact evaluate_relates
  | referenceOdd => exact evaluate_relates
  | value => exact evaluate_relates

theorem selectCode_relates {codes : List Word} {outOfRange : Nat → Word → Cause} {operand : Text}
    {star : Word} :
    Step.Relates (Twins size agreed) (selectCode codes outOfRange operand star) := by
  rw [selectCode_eq]
  exact .bind evaluate_relates fun _ => .ite (.pure _) (.bind report_relates fun _ => .pure _)

theorem bitAddress_relates (s : Statement) (star : Word) :
    Step.Relates (Twins size agreed) (bitAddress s star) := by
  refine .bind evaluate_relates fun _ => .bind evaluate_relates fun _ => .ite ?_ ?_
  · exact .bind report_relates fun _ => .pure _
  · exact .ite (.pure _) (.pure _)

theorem encodeQ_relates (s : Statement) (star : Word) :
    Step.Relates (Twins size agreed) (encodeQ s star) := by
  refine .get_bind (fun _ => ?_) fun a b h => by simp only [h.indexed_eq]
  cases s.descriptor.q with
  | none => exact .bind report_relates fun _ => .pure _
  | reference => exact evaluate_relates
  | referenceBit => exact bitAddress_relates s star
  | immediate => exact evaluate_relates
  | immediateIndex => exact evaluate_relates
  | value => exact evaluate_relates
  | skip => exact selectCode_relates
  | skipAfter => exact selectCode_relates
  | space => exact selectCode_relates
  | spaceAfter => exact selectCode_relates
  | literal => exact .ite (.pure _) (.bind report_relates fun _ => evaluate_relates)

theorem buildInstruction_relates (s : Statement) (p : Placement) :
    Step.Relates (Twins size agreed) (buildInstruction s p) := by
  refine .bind (encodeP_relates s p.star) fun _ => .bind (encodeQ_relates s p.star) fun _ => ?_
  dsimp only
  split
  · exact .pure _
  · exact .bind report_relates fun _ => .pure _

/-- **Twin states** encode a statement alike. -/
theorem encode_mirrors (s : Statement) (p : Placement) :
    Build.Mirrors (Twins size agreed) (encode s p) := by
  have halpha : Build.Mirrors (Twins size agreed) (encodeAlpha s p) :=
    .ite (.bind (constantCells_mirrors _) fun _ => .pure _) (.pure _)
  unfold encode
  cases s.kind with
  | dac => exact halpha
  | dsac => exact halpha
  | dc =>
    exact .ite (.pure _) (.bind (constantCells_mirrors _) fun _ => .bind (.ofExcept _) fun _ =>
      .pure _)
  | dsc => exact .ite (.pure _) (constantCells_mirrors _)
  | dnb => exact .ite (.bind (.ofExcept _) fun _ => .pure _) (.pure _)
  | dot => exact .bind (.ofExcept _) fun _ => .pure _
  | dsa => exact .bind (.ofExcept _) fun _ => .lift (putAddresses_relates s p _)
  | dda => exact .lift (encodeDisk_relates s)
  | dvlc =>
    exact .ite (.pure _) (.bind (.ofExcept _) fun _ => .lift (encodeFieldsFrom_relates s _ _ _))
  | instruction =>
    exact .bind (.lift (buildInstruction_relates s p)) fun _ => .bind (.ofExcept _) fun _ => .pure _
  | _ => exact .pure _

/-! ## Storing -/

/-- Whether the cells of a statement are stored in a core of `size` cells, one of them at `i`. -/
def Outcome.Stores (o : Outcome) (size i : Nat) : Prop :=
  0 ≤ o.placement.address ∧ o.placement.address + Word.ofLength o.value ≤ Int64.ofNat size ∧
    o.placement.address.toNatClampNeg ≤ i ∧
    i < o.placement.address.toNatClampNeg + o.value.length

variable {a b a' : Assembly} {o : Outcome}

theorem Assembly.Twins.of_empty (h : Twins size agreed a b) (hvalue : o.value = []) :
    Twins size (fun i => agreed i ∨ o.Stores size i) a b := by
  refine h.mono fun i hi => hi.resolve_right ?_
  rintro ⟨-, -, hlo, hhi⟩
  rw [hvalue, List.length_nil] at hhi
  omega

/-- **Storing the cells of a statement** makes twin states agree on them. -/
theorem store_twins (h : Twins size agreed a b)
    (hstore : store o.placement.address o.value a = .ok () a') :
    ∃ b', store o.placement.address o.value b = .ok () b' ∧
      Twins size (fun i => agreed i ∨ o.Stores size i) a' b' := by
  unfold store at hstore ⊢
  rw [h.memory.admits_eq]
  cases hadmits : a.memory.admits o.placement.address o.value with
  | error f => rw [hadmits] at hstore; cases hstore
  | ok fits =>
    rw [hadmits] at hstore
    cases fits with
    | true =>
      cases hstore
      refine ⟨_, rfl, { h with memory := (h.memory.written _ _).mono fun i hi => ?_ }⟩
      exact hi.imp_right fun hstores => hstores.2.2
    | false =>
      cases hstore
      refine ⟨_, rfl, (h.raise _).mono fun i hi => hi.resolve_right fun hstores => ?_⟩
      obtain ⟨hlo, hhi, -⟩ := hstores
      unfold Memory.admits Memory.fits Memory.size at hadmits
      rw [h.memory.left] at hadmits
      simp only [hlo, hhi, decide_true, Bool.and_self, Bool.not_true, Bool.false_eq_true,
        if_false] at hadmits
      split_ifs at hadmits <;> cases hadmits

/-! ## A line -/

theorem process_twins {s : Statement} (h : Twins size agreed a b)
    (hprocess : process s a = .ok o a') :
    ∃ b', process s b = .ok o b' ∧ Twins size (fun i => agreed i ∨ o.Stores size i) a' b' := by
  obtain ⟨hplace, hlaid⟩ := layOut_relates s a b h
  unfold process at hprocess ⊢
  rw [Build.lift_bind] at hprocess ⊢
  simp only [Build.get_bind, hplace, hlaid.emitting_eq] at hprocess ⊢
  by_cases hemitting : (layOut s a).2.emitting = true
  · rw [if_pos hemitting] at hprocess ⊢
    obtain ⟨value, c, hencode, hprocess⟩ := Build.ok_of_bind_ok hprocess
    obtain ⟨_, d, hstore, hprocess⟩ := Build.ok_of_bind_ok hprocess
    cases hprocess
    obtain ⟨c', hencode', hc⟩ := encode_mirrors s _ _ _ _ _ hlaid hencode
    obtain ⟨d', hstore', hd⟩ := store_twins
      (o := ⟨s, s.descriptor.shape, (layOut s a).1, value, []⟩) hc hstore
    refine ⟨d', ?_, hd⟩
    rw [Build.bind_ok hencode', Build.bind_ok hstore']
    rfl
  · rw [if_neg hemitting] at hprocess ⊢
    cases hprocess
    exact ⟨_, rfl, hlaid.of_empty rfl⟩

theorem Handles.twins {s : Statement} {processed : Bool} (ha : Handles s a o processed a')
    (h : Twins size agreed a b) : ∃ b', Handles s b o processed b' ∧
      Twins size (fun i => agreed i ∨ o.Stores size i) a' b' := by
  cases ha with
  | comment hf => exact ⟨b, .comment hf, h.of_empty rfl⟩
  | processed hf he hb =>
    obtain ⟨b', hb', htwins⟩ := process_twins h hb
    exact ⟨b', .processed hf (h.ending.trans he) hb', htwins⟩
  | beyond hf he =>
    have hraised := (h.raise [error .beyondEnd]).of_empty
      (o := { statement := s, shape := .unknown }) rfl
    exact ⟨_, .beyond hf (h.ending.trans he), { hraised with ending := rfl }⟩
  | overrun hf he => exact ⟨b, .overrun hf (h.ending.trans he), h.of_empty rfl⟩

/-- **Twin states handle a line alike**, and then agree on the cells that it stores. -/
theorem handleLine_twins {line : Line} {processed : Bool} (h : Twins size agreed a b)
    (hline : handleLine line a = .ok (o, processed) a') :
    ∃ b', handleLine line b = .ok (o, processed) b' ∧
      Twins size (fun i => agreed i ∨ o.Stores size i) a' b' := by
  have hhandles := handles_of_handleLine hline
  obtain ⟨hstatement, hparsed⟩ := parse_relates (twins_tracks _) (h.atLine line.number)
  obtain ⟨b', hb', htwins⟩ := hhandles.twins hparsed
  rw [← hstatement] at hb'
  exact ⟨b', handleLine_of_handles hb', htwins⟩

/-! ## Messages -/

/-- No message that is pending gets lost. -/
def Assembly.Tells (a b : Assembly) : Prop := a.log.pending <+: b.log.pending

open Assembly (Tells)

theorem Assembly.Utters.tells {P : Cause → Prop} (h : a.Utters P b) : Tells a b := by
  obtain ⟨ds, hds, -⟩ := h.pending
  exact ⟨ds, hds.symm⟩

theorem Assembly.Tells.raise (a : Assembly) (reports : List (Report Cause)) :
    Tells a (a.raise reports) := Utters.tells (P := fun _ => True) (.raise fun _ _ => trivial)

theorem tells_of_handleLine {line : Line} {processed : Bool}
    (h : handleLine line a = .ok (o, processed) b) : Tells a b := (utters_of_handleLine h).tells

end SpsAssembler
