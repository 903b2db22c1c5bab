import SpsAssembler.Proofs.Core
import SpsAssembler.Proofs.Effects

/-!
# A pass, line by line

A pass handles its lines one after the other; between them only the log changes. So a pass that
comes to its end is a row of visits, and what a pass keeps is proved along that row.

* `Handles`: what may become of a parsed line; `Processed`: what a processed one does;
* `Visit`, **`Visits`**: the lines of a pass with the states around them;
* `Swept`, `runPass_cases`: what becomes of an item of a source, and how a pass ends;
* `visits_of_runPass`: every pass is such a row;
* `TwoPasses`, **`twoPasses_of_assemble`**: a program is made by two passes.
-/

namespace SpsAssembler

/-! ## One line -/

/-- The four things that may become of a parsed line: a comment is listed, a statement is processed
unless the program has ended, and the first one behind the end is reported. -/
inductive Handles (s : Statement) (a : Assembly) : Outcome → Bool → Assembly → Prop
  | comment (hf : s.descriptor.family = .comment) :
      Handles s a { statement := s, shape := .comment } false a
  | processed {o : Outcome} {b : Assembly} (hf : s.descriptor.family ≠ .comment)
      (he : a.ending = .running) (hb : process s a = .ok o b) : Handles s a o true b
  | beyond (hf : s.descriptor.family ≠ .comment) (he : a.ending = .ended) :
      Handles s a { statement := s, shape := .unknown } false
        { a.raise [error .beyondEnd] with ending := .overrun }
  | overrun (hf : s.descriptor.family ≠ .comment) (he : a.ending = .overrun) :
      Handles s a { statement := s, shape := .unknown } false a

theorem handles_of_handleLine {line : Line} {a b : Assembly} {o : Outcome} {processed : Bool}
    (h : handleLine line a = .ok (o, processed) b) :
    Handles (parse line (a.atLine line.number)).1 (parse line (a.atLine line.number)).2 o processed
      b := by
  unfold handleLine at h
  rw [Build.modify_bind, Build.lift_bind] at h
  generalize parse line (a.atLine line.number) = r at h ⊢
  obtain ⟨s, c⟩ := r
  by_cases hf : s.descriptor.family = .comment
  · simp only [hf, beq_self_eq_true, if_true, Build.pure_apply] at h
    cases h
    exact .comment hf
  · simp only [beq_iff_eq, hf, if_false, Build.get_bind] at h
    cases he : c.ending with
    | running =>
      rw [he] at h
      obtain ⟨o', b', hp, hpure⟩ := Build.ok_of_bind_ok h
      cases hpure
      exact .processed hf he hp
    | ended =>
      rw [he] at h
      cases h
      exact .beyond hf he
    | overrun =>
      rw [he] at h
      cases h
      exact .overrun hf he

theorem handleLine_of_handles {line : Line} {a b : Assembly} {o : Outcome} {processed : Bool}
    (h : Handles (parse line (a.atLine line.number)).1 (parse line (a.atLine line.number)).2 o
      processed b) : handleLine line a = .ok (o, processed) b := by
  unfold handleLine
  rw [Build.modify_bind, Build.lift_bind]
  generalize parse line (a.atLine line.number) = r at h ⊢
  obtain ⟨s, c⟩ := r
  cases h with
  | comment hf => rw [if_pos (by simpa using hf)]; rfl
  | processed hf he hb =>
    rw [if_neg (by simpa using hf), Build.get_bind, he]
    exact Build.bind_ok hb fun o => pure (o, true)
  | beyond hf he => rw [if_neg (by simpa using hf), Build.get_bind, he]; rfl
  | overrun hf he => rw [if_neg (by simpa using hf), Build.get_bind, he]; rfl

/-- What becomes of a parsed line in two states, neither or both of which are behind the end. -/
inductive HandlesAlike (s : Statement) (a b : Assembly) :
    Outcome → Bool → Assembly → Outcome → Bool → Assembly → Prop
  | comment : HandlesAlike s a b { statement := s, shape := .comment } false a
      { statement := s, shape := .comment } false b
  | processed {o o' : Outcome} {a' b' : Assembly} (ha : a.ending = .running)
      (hb : b.ending = .running) (hp : process s a = .ok o a') (hq : process s b = .ok o' b') :
      HandlesAlike s a b o true a' o' true b'
  | beyond (ha : a.ending = .ended) :
      HandlesAlike s a b { statement := s, shape := .unknown } false
        { a.raise [error .beyondEnd] with ending := .overrun }
        { statement := s, shape := .unknown } false
        { b.raise [error .beyondEnd] with ending := .overrun }
  | overrun : HandlesAlike s a b { statement := s, shape := .unknown } false a
      { statement := s, shape := .unknown } false b

theorem Handles.alike {s : Statement} {a a' b b' : Assembly} {o o' : Outcome}
    {processed processed' : Bool} (ha : Handles s a o processed a')
    (hb : Handles s b o' processed' b') (hending : b.ending = a.ending) :
    HandlesAlike s a b o processed a' o' processed' b' := by
  cases ha with
  | comment hf =>
    cases hb with
    | comment => exact .comment
    | processed hg | beyond hg | overrun hg => exact absurd hf hg
  | processed hf he hp =>
    cases hb with
    | comment hg => exact absurd hg hf
    | processed hg hbe hq => exact .processed he hbe hp hq
    | beyond hg hbe | overrun hg hbe =>
      rw [hbe, he] at hending
      cases hending
  | beyond hf he =>
    cases hb with
    | comment hg => exact absurd hg hf
    | beyond => exact .beyond he
    | processed hg hbe | overrun hg hbe =>
      rw [hbe, he] at hending
      cases hending
  | overrun hf he =>
    cases hb with
    | comment hg => exact absurd hg hf
    | overrun => exact .overrun
    | processed hg hbe | beyond hg hbe =>
      rw [hbe, he] at hending
      cases hending

/-- What processing a statement does: it is laid out, and in the pass that builds core its cells are
encoded and stored. -/
structure Processed (s : Statement) (a : Assembly) (o : Outcome) (b : Assembly) : Prop where
  statement : o.statement = s
  shape : o.shape = s.descriptor.shape
  placement : o.placement = (layOut s a).1
  core : ((layOut s a).2.emitting = false ∧ o.value = [] ∧ b = (layOut s a).2) ∨
    ((layOut s a).2.emitting = true ∧ ∃ c, encode s o.placement (layOut s a).2 = .ok o.value c ∧
      store o.placement.address o.value c = .ok () b)

theorem processed_of_process {s : Statement} {a b : Assembly} {o : Outcome}
    (h : process s a = .ok o b) : Processed s a o b := by
  unfold process at h
  rw [Build.lift_bind] at h
  simp only [Build.get_bind] at h
  generalize hr : layOut s a = r at h
  obtain ⟨p, c⟩ := r
  by_cases he : c.emitting = true
  · rw [if_pos he] at h
    obtain ⟨value, d, hv, h⟩ := Build.ok_of_bind_ok h
    obtain ⟨_, e, hs, h⟩ := Build.ok_of_bind_ok h
    cases h
    exact ⟨rfl, rfl, by rw [hr], .inr ⟨by rw [hr, he], d, by rw [hr]; exact hv, hs⟩⟩
  · rw [if_neg he] at h
    cases h
    exact ⟨rfl, rfl, by rw [hr], .inl ⟨by rw [hr]; simpa using he, rfl, by rw [hr]⟩⟩

/-! ## Laying out -/

/-- The state in which the label of a statement is dealt with. -/
def beforeLabel (s : Statement) (a : Assembly) : Assembly :=
  if s.kind.takesCells then (checkBounds (place s a).1 (place s a).2).2 else (place s a).2

theorem layOut_apply (s : Statement) (a : Assembly) : layOut s a = ((place s a).1,
    if s.kind.definesLabel then (defineLabel s (place s a).1 (beforeLabel s a)).2
    else beforeLabel s a) := by
  unfold layOut beforeLabel
  generalize place s = placed
  cases s.kind.takesCells <;> cases s.kind.definesLabel <;> rfl

theorem beforeLabel_of_place (s : Statement) (a : Assembly) :
    Leads .still (place s a).2 (beforeLabel s a) := by
  unfold beforeLabel
  split
  · exact checkBounds_within _ _
  · exact .refl

theorem place_frame (s : Statement) (a : Assembly) : a.Frame (beforeLabel s a) :=
  (place_within s a).frame.trans (beforeLabel_of_place s a).frame

theorem reach_of_definesLabel {k : Kind} (h : k.definesLabel = true) : k.reach = .counting := by
  cases k <;> first | rfl | cases h

/-! ## What a line keeps -/

/-- The options, the pass, what is counted and what fault is noted stay, and no error or warning is
forgotten. -/
structure Assembly.Keeps (a b : Assembly) : Prop where
  options : b.options = a.options
  fault : b.fault = a.fault
  pass : b.log.pass = a.log.pass
  muted : b.log.muted = a.log.muted
  cautious : b.log.warnings = a.log.warnings
  errors : a.log.errorCount ≤ b.log.errorCount
  warnings : a.log.warningCount ≤ b.log.warningCount

namespace Assembly.Keeps

variable {a b c : Assembly}

theorem refl (a : Assembly) : Keeps a a :=
  ⟨rfl, rfl, rfl, rfl, rfl, Nat.le_refl _, Nat.le_refl _⟩

theorem trans (h : Keeps a b) (g : Keeps b c) : Keeps a c where
  options := g.options.trans h.options
  fault := g.fault.trans h.fault
  pass := g.pass.trans h.pass
  muted := g.muted.trans h.muted
  cautious := g.cautious.trans h.cautious
  errors := Nat.le_trans h.errors g.errors
  warnings := Nat.le_trans h.warnings g.warnings

theorem of_frame (h : a.Frame b) : Keeps a b where
  options := h.options
  fault := h.fault
  pass := congrArg (·.2.2.1) h.place
  muted := congrArg (·.2.1) h.place
  cautious := congrArg Prod.fst h.place
  errors := h.errors
  warnings := h.warnings

theorem raise (a : Assembly) (reports : List (Report Cause)) : Keeps a (a.raise reports) where
  options := rfl
  fault := rfl
  pass := a.log.raiseAll_pass reports
  muted := a.log.raiseAll_muted reports
  cautious := a.log.raiseAll_warnings reports
  errors := a.log.errorCount_le_raiseAll reports
  warnings := a.log.warningCount_le_raiseAll reports

/-- No error is forgotten, so what raises none as a whole raises none in any of its parts. -/
theorem clean_parts {d : Assembly} (h : Keeps a b) (g : Keeps b c) (k : Keeps c d)
    (hcount : d.log.errorCount ≤ a.log.errorCount) :
    b.log.errorCount ≤ a.log.errorCount ∧ c.log.errorCount ≤ b.log.errorCount ∧
      d.log.errorCount ≤ c.log.errorCount := by
  have hfirst := h.errors
  have hsecond := g.errors
  have hthird := k.errors
  omega

end Assembly.Keeps

open Assembly (Keeps)

/-- The label of a statement is entered in the first pass and only checked in any other. -/
theorem defineLabel_apply (s : Statement) (p : Placement) (a : Assembly) :
    (a.log.pass = 1 ∧ (defineLabel s p a).2 =
      { a with symbols := (a.symbols.define s.label p.labelAddress s.kind a.log.line a.head).1 }.raise
        (a.symbols.define s.label p.labelAddress s.kind a.log.line a.head).2) ∨
    (a.log.pass ≠ 1 ∧
      (defineLabel s p a).2 = a.raise (a.symbols.verify s.label a.log.line a.head)) := by
  by_cases hpass : a.log.pass = 1
  · exact .inl ⟨hpass, if_pos (by simp [hpass])⟩
  · exact .inr ⟨hpass, if_neg (by simp [hpass])⟩

theorem beforeLabel_keeps (s : Statement) (a : Assembly) : Keeps (beforeLabel s a) (layOut s a).2 := by
  rw [layOut_apply]
  dsimp only
  split
  · rcases defineLabel_apply s (place s a).1 (beforeLabel s a) with ⟨-, h⟩ | ⟨-, h⟩
    · rw [h]
      exact { Keeps.raise _ _ with }
    · rw [h]
      exact .raise _ _
  · exact .refl _

theorem layOut_keeps (s : Statement) (a : Assembly) : Keeps a (layOut s a).2 :=
  (Keeps.of_frame (place_frame s a)).trans (beforeLabel_keeps s a)

/-- A value that core does not admit is reported, and any other one is written. -/
theorem store_cases {address : Word} {value : Value} {a b : Assembly}
    (h : store address value a = .ok () b) :
    (a.memory.admits address value = .ok false ∧ b = a.raise [error (.cannotStore address)]) ∨
      (a.memory.admits address value = .ok true ∧
        b = { a with memory := a.memory.written address value }) := by
  unfold store at h
  split at h
  · cases h
  · rename_i hadmits
    cases h
    exact .inl ⟨hadmits, rfl⟩
  · rename_i hadmits
    cases h
    exact .inr ⟨hadmits, rfl⟩

theorem store_keeps {address : Word} {value : Value} {a b : Assembly}
    (h : store address value a = .ok () b) : Keeps a b := by
  rcases store_cases h with ⟨-, rfl⟩ | ⟨-, rfl⟩
  · exact .raise a _
  · exact { Keeps.refl a with }

theorem encode_leads {s : Statement} {p : Placement} {a b : Assembly} {value : Value}
    (h : encode s p a = .ok value b) : Leads .still a b := by
  have hwithin : Build.Within .still (encode s p) := encode_within s p
  have hlead := hwithin a
  rwa [h] at hlead

theorem Processed.keeps_layOut {s : Statement} {a b : Assembly} {o : Outcome}
    (h : Processed s a o b) : Keeps (layOut s a).2 b := by
  rcases h.core with ⟨-, -, rfl⟩ | ⟨-, c, hc, hs⟩
  · exact .refl _
  · exact (Keeps.of_frame (encode_leads hc).frame).trans (store_keeps hs)

theorem Processed.keeps {s : Statement} {a b : Assembly} {o : Outcome} (h : Processed s a o b) :
    Keeps a b := (layOut_keeps s a).trans h.keeps_layOut

theorem Handles.keeps {s : Statement} {a b : Assembly} {o : Outcome} {processed : Bool}
    (h : Handles s a o processed b) : Keeps a b := by
  cases h with
  | comment => exact .refl a
  | processed _ _ hb => exact (processed_of_process hb).keeps
  | beyond => exact { Keeps.raise a _ with }
  | overrun => exact .refl a

theorem Processed.first {s : Statement} {a b : Assembly} {o : Outcome} (h : Processed s a o b)
    (hpass : a.log.pass = 1) : b = (layOut s a).2 := by
  rcases h.core with ⟨-, -, hb⟩ | ⟨he, -⟩
  · exact hb
  · unfold Assembly.emitting at he
    rw [(layOut_keeps s a).pass, hpass] at he
    cases he

theorem layOut_memory (s : Statement) (a : Assembly) : (layOut s a).2.memory = a.memory := by
  rw [layOut_apply, ← (place_frame s a).memory]
  dsimp only
  split
  · rcases defineLabel_apply s (place s a).1 (beforeLabel s a) with ⟨-, h⟩ | ⟨-, h⟩ <;> rw [h] <;> rfl
  · rfl

theorem Handles.memory_eq {s : Statement} {a b : Assembly} {o : Outcome} {processed : Bool}
    (h : Handles s a o processed b) (hpass : a.log.pass = 1) : b.memory = a.memory := by
  cases h with
  | comment => rfl
  | processed _ _ hb => rw [(processed_of_process hb).first hpass, layOut_memory]
  | beyond => rfl
  | overrun => rfl

theorem keeps_of_handleLine {line : Line} {a b : Assembly} {o : Outcome} {processed : Bool}
    (h : handleLine line a = .ok (o, processed) b) : Keeps a b := by
  have hparse : Step.Within .still (parse line) := parse_within line
  have hframe := Keeps.of_frame (hparse (a.atLine line.number)).frame
  exact { hframe.trans (handles_of_handleLine h).keeps with }

/-! ## Rows of visits -/

/-- Only the log differs, and the pass goes on. -/
structure Assembly.Rests (a b : Assembly) : Prop extends Assembly.Keeps a b where
  same : b = { a with log := b.log }

theorem Assembly.Rests.trans {a b c : Assembly} (h : a.Rests b) (g : b.Rests c) : a.Rests c :=
  ⟨h.toKeeps.trans g.toKeeps, by rw [g.same, h.same]⟩

theorem Assembly.Rests.refl (a : Assembly) : a.Rests a := ⟨.refl a, rfl⟩

theorem Assembly.Rests.symbols_eq {a b : Assembly} (h : a.Rests b) : b.symbols = a.symbols := by
  rw [h.same]

/-- Only the log differs, and no error was reported. -/
structure Assembly.Idles (a b : Assembly) : Prop extends Assembly.Rests a b where
  errors_eq : b.log.errorCount = a.log.errorCount

theorem Assembly.Idles.refl (a : Assembly) : a.Idles a := ⟨.refl a, rfl⟩

theorem Assembly.Idles.trans {a b c : Assembly} (h : a.Idles b) (g : b.Idles c) : a.Idles c :=
  ⟨h.toRests.trans g.toRests, g.errors_eq.trans h.errors_eq⟩

/-- A line of a pass, with the states before and after it and what became of it. -/
structure Visit where
  line : Line
  before : Assembly
  outcome : Outcome
  processed : Bool
  after : Assembly

namespace Visit

/-- The messages that a line raised. -/
def raised (v : Visit) : List (Diagnostic Cause) :=
  v.after.log.pending.drop v.before.log.pending.length

/-- The outcome that a line leaves in the program. -/
def result (v : Visit) : Outcome := { v.outcome with diagnostics := v.after.log.pending }

/-- The event of a line. -/
def event (v : Visit) : Event := .finished v.result v.processed

end Visit

/-- The lines of a pass that leads from one state to another. -/
inductive Visits : Assembly → List Visit → Assembly → Prop
  | nil {a b : Assembly} (h : a.Rests b) : Visits a [] b
  | cons {a b : Assembly} {v : Visit} {vs : List Visit} (h : a.Rests v.before)
      (hv : handleLine v.line v.before = .ok (v.outcome, v.processed) v.after)
      (rest : Visits v.after vs b) : Visits a (v :: vs) b

theorem Visits.rests {a b c : Assembly} {vs : List Visit} (h : a.Rests b) (hvs : Visits b vs c) :
    Visits a vs c := by
  cases hvs with
  | nil g => exact .nil (h.trans g)
  | cons g hv rest => exact .cons (h.trans g) hv rest

theorem Visits.close {a b c : Assembly} {vs : List Visit} (hvs : Visits a vs b) (h : b.Rests c) :
    Visits a vs c := by
  induction hvs with
  | nil g => exact .nil (g.trans h)
  | cons g hv _ ih => exact .cons g hv (ih h)

theorem Visits.split {a b : Assembly} {vs ws : List Visit} {v : Visit}
    (h : Visits a (vs ++ v :: ws) b) : Visits a vs v.before ∧
      handleLine v.line v.before = .ok (v.outcome, v.processed) v.after ∧ Visits v.after ws b := by
  induction vs generalizing a with
  | nil =>
    cases h with
    | cons hrests hv rest => exact ⟨.nil hrests, hv, rest⟩
  | cons u vs ih =>
    cases h with
    | cons hrests hu rest =>
      obtain ⟨hvs, hv, hws⟩ := ih rest
      exact ⟨.cons hrests hu hvs, hv, hws⟩

theorem Visits.keeps {a b : Assembly} {vs : List Visit} (hvs : Visits a vs b) : Keeps a b := by
  induction hvs with
  | nil h => exact h.toKeeps
  | cons h hv _ ih => exact (h.toKeeps.trans (keeps_of_handleLine hv)).trans ih

theorem Visits.memory_eq {a b : Assembly} {vs : List Visit} (hvs : Visits a vs b)
    (hpass : a.log.pass = 1) : b.memory = a.memory := by
  induction hvs with
  | nil h => rw [h.same]
  | @cons a b v vs h hv _ ih =>
    have hfirst := h.pass.trans hpass
    have hparse : Step.Within .still (parse v.line) := parse_within v.line
    have hframe := (hparse (v.before.atLine v.line.number)).frame
    have hhandled := (handles_of_handleLine hv).memory_eq ((Keeps.of_frame hframe).pass.trans hfirst)
    rw [ih ((keeps_of_handleLine hv).pass.trans hfirst), hhandled, hframe.memory, h.same]
    rfl

/-- The lines of a pass between which no error is reported. -/
inductive Unbroken : Assembly → List Visit → Assembly → Prop
  | nil {a b : Assembly} (h : a.Idles b) : Unbroken a [] b
  | cons {a b : Assembly} {v : Visit} {vs : List Visit} (h : a.Idles v.before)
      (hv : handleLine v.line v.before = .ok (v.outcome, v.processed) v.after)
      (rest : Unbroken v.after vs b) : Unbroken a (v :: vs) b

theorem Unbroken.visits {a b : Assembly} {vs : List Visit} (h : Unbroken a vs b) :
    Visits a vs b := by
  induction h with
  | nil h => exact .nil h.toRests
  | cons h hv _ ih => exact .cons h.toRests hv ih

theorem Unbroken.idles {a b c : Assembly} {vs : List Visit} (h : a.Idles b)
    (hvs : Unbroken b vs c) : Unbroken a vs c := by
  cases hvs with
  | nil g => exact .nil (h.trans g)
  | cons g hv rest => exact .cons (h.trans g) hv rest

/-- The events of a pass are those of its lines, besides opened files and messages; and a message
about a label was raised by a line. -/
structure Recorded (events : List Event) (vs : List Visit) : Prop where
  finished : events.filter (·.outcome?.isSome) = vs.map Visit.event
  raised : ∀ d, Event.raised d ∈ events → d.cause.concernsLabel = true → ∃ v ∈ vs, d ∈ v.raised

theorem Recorded.nil {events : List Event} (hfinished : ∀ e ∈ events, e.outcome? = none)
    (hraised : ∀ d, Event.raised d ∈ events → d.cause.concernsLabel = false) :
    Recorded events [] where
  finished := by
    rw [List.map_nil, List.filter_eq_nil_iff]
    intro e he
    simp [hfinished e he]
  raised d hd hc := by rw [hraised d hd] at hc; cases hc

theorem Recorded.append {es fs : List Event} {vs ws : List Visit} (h : Recorded es vs)
    (g : Recorded fs ws) : Recorded (es ++ fs) (vs ++ ws) where
  finished := by rw [List.filter_append, List.map_append, h.finished, g.finished]
  raised d hd hc := by
    rcases List.mem_append.mp hd with hd | hd
    · obtain ⟨v, hv, hmem⟩ := h.raised d hd hc
      exact ⟨v, List.mem_append_left _ hv, hmem⟩
    · obtain ⟨v, hv, hmem⟩ := g.raised d hd hc
      exact ⟨v, List.mem_append_right _ hv, hmem⟩

theorem Recorded.filterMap {γ : Type} {events : List Event} {vs : List Visit}
    (h : Recorded events vs) {f : Event → Option γ} (hf : ∀ e, e.outcome? = none → f e = none) :
    events.filterMap f = vs.filterMap (f ∘ Visit.event) := by
  rw [← List.filterMap_map, ← h.finished, List.filterMap_filter]
  congr 1
  funext e
  cases he : e.outcome? with
  | none => simp [hf e he]
  | some o => rfl

theorem Recorded.outcomes {events : List Event} {vs : List Visit} (h : Recorded events vs) :
    events.filterMap Event.outcome? = vs.map Visit.result := by
  rw [h.filterMap fun _ he => he]
  exact congrFun List.filterMap_eq_map vs

/-! ## Passes -/

theorem raisedBy_ok {α : Type} {x : Build α} {v : α} {a b : Assembly} (h : x a = .ok v b) :
    raisedBy x a = .ok (v, b.log.pending.drop a.log.pending.length) b := by
  rw [raisedBy, Build.get_bind, Build.bind_ok h]
  rfl

/-- A line that is handled without a fault is finished with the messages that are pending then. -/
theorem finishLine_of_handleLine {line : Line} {a b : Assembly} {o : Outcome} {processed : Bool}
    (h : handleLine line a = .ok (o, processed) b) (hfault : b.fault = none) : finishLine line a = .ok
      ((b.log.pending.drop a.log.pending.length).map Event.raised ++
        [.finished { o with diagnostics := b.log.pending } processed])
      { b with log := { b.log with pending := [] } } := by
  have hstop : stopAtFault b = .ok () b := by
    rw [stopAtFault, Build.get_bind, hfault]
    rfl
  rw [finishLine, Build.bind_ok (raisedBy_ok h)]
  exact Build.bind_ok hstop _

/-- A line in which a fault is noted ends in it. -/
theorem finishLine_of_fault {line : Line} {a b : Assembly} {r : Outcome × Bool}
    (h : handleLine line a = .ok r b) {f : Fault} (hfault : b.fault = some f) :
    finishLine line a = .error f b := by
  have hstop : stopAtFault b = .error f b := by
    rw [stopAtFault, Build.get_bind, hfault]
    rfl
  rw [finishLine, Build.bind_ok (raisedBy_ok h)]
  exact Build.bind_error hstop _

theorem finishLine_cases {line : Line} {a b : Assembly} {events : List Event}
    (h : finishLine line a = .ok events b) :
    ∃ o processed c, handleLine line a = .ok (o, processed) c ∧ c.fault = none ∧
      events = (c.log.pending.drop a.log.pending.length).map Event.raised ++
        [.finished { o with diagnostics := c.log.pending } processed] ∧
      b = { c with log := { c.log with pending := [] } } := by
  cases hline : handleLine line a with
  | ok outcome c =>
    obtain ⟨o, processed⟩ := outcome
    cases hfault : c.fault with
    | none =>
      rw [finishLine_of_handleLine hline hfault] at h
      cases h
      exact ⟨o, processed, c, rfl, hfault, rfl, rfl⟩
    | some f =>
      rw [finishLine_of_fault hline hfault] at h
      cases h
  | error f c =>
    have hraised : raisedBy (handleLine line) a = .error f c := by
      rw [raisedBy, Build.get_bind, Build.bind_error hline]
    rw [finishLine, Build.bind_error hraised] at h
    cases h

theorem filter_raised (ds : List (Diagnostic Cause)) :
    (ds.map Event.raised).filter (·.outcome?.isSome) = [] := by
  rw [List.filter_eq_nil_iff]
  intro e he
  obtain ⟨d, -, rfl⟩ := List.mem_map.mp he
  simp [Event.outcome?]

theorem visit_of_finishLine {line : Line} {a b : Assembly} {events : List Event}
    (h : finishLine line a = .ok events b) : ∃ v : Visit, v.line = line ∧ v.before = a ∧
      handleLine line a = .ok (v.outcome, v.processed) v.after ∧ v.after.Idles b ∧
      Recorded events [v] := by
  obtain ⟨o, processed, c, hline, -, rfl, rfl⟩ := finishLine_cases h
  refine ⟨⟨line, a, o, processed, c⟩, rfl, rfl, hline, ⟨⟨{ Keeps.refl c with }, rfl⟩, rfl⟩, ?_, ?_⟩
  · rw [List.filter_append, filter_raised]
    rfl
  · intro d hd _
    refine ⟨_, List.mem_singleton_self _, ?_⟩
    rcases List.mem_append.mp hd with hd | hd
    · obtain ⟨e, he, heq⟩ := List.mem_map.mp hd
      cases heq
      exact he
    · cases List.mem_singleton.mp hd

/-- Reports an error that belongs to no statement, as an event. -/
def announceError (line : Word) (cause : Cause) : Build (List Event) := do
  modify (·.atLine line)
  let (_, raised) ← raisedBy (report [error cause])
  pure (raised.map Event.raised)

theorem announceError_apply (line : Word) (cause : Cause) (a : Assembly) :
    announceError line cause a = .ok
      ((((a.atLine line).raise [error cause]).log.pending.drop
        (a.atLine line).log.pending.length).map Event.raised)
      ((a.atLine line).raise [error cause]) := rfl

theorem rests_of_announceError {line : Word} {cause : Cause} (hcause : cause.concernsLabel = false)
    {a b : Assembly} {events : List Event} (h : announceError line cause a = .ok events b) :
    a.Rests b ∧ Recorded events [] ∧ (a.log.muted = 0 → b.log.errorCount ≠ 0) := by
  rw [announceError_apply] at h
  cases h
  have hframe := (a.atLine line).raise_frame (.one hcause : Unlabelled [error cause])
  refine ⟨⟨{ Keeps.of_frame hframe with }, rfl⟩, ⟨filter_raised _, fun d hd hc => ?_⟩,
    fun hmuted => ?_⟩
  · obtain ⟨es, hes, hunlabelled⟩ := hframe.pending
    obtain ⟨e, he, heq⟩ := List.mem_map.mp hd
    cases heq
    have hfalse := hunlabelled d (by simpa [hes] using he)
    rw [hc] at hfalse
    cases hfalse
  · have hcount := (a.atLine line).log.errorCount_raiseAll hmuted [error cause]
    change ((a.atLine line).log.raiseAll [error cause]).errorCount ≠ 0
    rw [hcount]
    simp [Report.isError, error]

/-- What becomes of an item of a source after `count` lines: a file that is opened is told, one that
cannot be read is reported, and a line is finished and counted. -/
inductive Swept (count : Nat) (a : Assembly) : Item Line → Nat → List Event → Assembly → Prop
  | opened (file : Nat) (name : Text) :
      Swept count a (.opened file name) count [.opened file name] a
  | unreadable (name : Text) {reason : Text} {events : List Event} {b : Assembly}
      (h : announceError (Int64.ofNat count) (.unreadable reason) a = .ok events b) :
      Swept count a (.unreadable name reason) count events b
  | line {line : Line} {events : List Event} {b : Assembly}
      (h : finishLine line a = .ok events b) : Swept count a (.line line) (count + 1) events b

theorem Swept.sweep {count next : Nat} {item : Item Line} {items : List (Item Line)}
    {a b c : Assembly} {es fs : List Event} (h : Swept count a item next es b)
    (hrest : sweep next items b = .ok fs c) :
    SpsAssembler.sweep count (item :: items) a = .ok (es ++ fs) c := by
  cases h with
  | opened file name =>
    rw [SpsAssembler.sweep, Build.bind_ok hrest]
    rfl
  | unreadable name h =>
    have hfirst : reportUnreadable count _ a = .ok es b := h
    rw [SpsAssembler.sweep, Build.bind_ok hfirst, Build.bind_ok hrest]
    rfl
  | line h =>
    rw [SpsAssembler.sweep, Build.bind_ok h, Build.bind_ok hrest]
    rfl

theorem sweep_cons {count : Nat} {item : Item Line} {items : List (Item Line)} {a b : Assembly}
    {events : List Event} (h : sweep count (item :: items) a = .ok events b) :
    ∃ next es c fs, Swept count a item next es c ∧ sweep next items c = .ok fs b ∧
      events = es ++ fs := by
  cases item with
  | opened file name =>
    obtain ⟨rest, c, hrest, h⟩ := Build.ok_of_bind_ok h
    cases h
    exact ⟨count, _, a, rest, .opened file name, hrest, rfl⟩
  | unreadable name reason =>
    obtain ⟨first, c, hfirst, h⟩ := Build.ok_of_bind_ok h
    obtain ⟨rest, d, hrest, h⟩ := Build.ok_of_bind_ok h
    cases h
    exact ⟨count, first, c, rest, .unreadable name hfirst, hrest, rfl⟩
  | line line =>
    obtain ⟨first, c, hfirst, h⟩ := Build.ok_of_bind_ok h
    obtain ⟨rest, d, hrest, h⟩ := Build.ok_of_bind_ok h
    cases h
    exact ⟨count + 1, first, c, rest, .line hfirst, hrest, rfl⟩

/-- **Every sweep** is a row of visits along its lines, and an unbroken one if all of the source can
be read. -/
theorem rows_of_sweep {count : Nat} {items : List (Item Line)} {a b : Assembly}
    {events : List Event} (h : sweep count items a = .ok events b) :
    ∃ vs, Visits a vs b ∧ vs.map Visit.line = items.filterMap Item.line? ∧ Recorded events vs ∧
      ((∀ name reason, Item.unreadable name reason ∉ items) → Unbroken a vs b) := by
  induction items generalizing count a events with
  | nil =>
    cases h
    exact ⟨[], .nil (.refl _), rfl, .nil (by simp) (by simp), fun _ => .nil (.refl _)⟩
  | cons item items ih =>
    obtain ⟨next, es, c, fs, hitem, hrest, rfl⟩ := sweep_cons h
    obtain ⟨vs, hvs, hlines, hrec, hread⟩ := ih hrest
    cases hitem with
    | opened file name =>
      have hopened : Recorded [Event.opened file name] [] := .nil (by simp [Event.outcome?]) (by simp)
      refine ⟨vs, hvs, hlines, hopened.append hrec, fun hall => hread fun name reason hmem => ?_⟩
      exact hall name reason (List.mem_cons_of_mem _ hmem)
    | unreadable name hfirst =>
      obtain ⟨hrests, hreported, -⟩ := rests_of_announceError rfl hfirst
      refine ⟨vs, hvs.rests hrests, hlines, hreported.append hrec, fun hall => ?_⟩
      exact absurd List.mem_cons_self (hall name _)
    | line hfirst =>
      obtain ⟨v, rfl, rfl, hv, hidles, hvrec⟩ := visit_of_finishLine hfirst
      refine ⟨v :: vs, .cons (.refl _) hv (hvs.rests hidles.toRests), ?_, hvrec.append hrec,
        fun hall => .cons (.refl _) hv (.idles hidles (hread fun name reason hmem => ?_))⟩
      · rw [List.map_cons, hlines]
        rfl
      · exact hall name reason (List.mem_cons_of_mem _ hmem)

theorem visits_of_sweep {count : Nat} {items : List (Item Line)} {a b : Assembly}
    {events : List Event} (h : sweep count items a = .ok events b) :
    ∃ vs, Visits a vs b ∧ vs.map Visit.line = items.filterMap Item.line? ∧ Recorded events vs := by
  obtain ⟨vs, hvs, hlines, hrec, -⟩ := rows_of_sweep h
  exact ⟨vs, hvs, hlines, hrec⟩

theorem readable_of_sweep {count : Nat} {items : List (Item Line)} {a b : Assembly}
    {events : List Event} (h : sweep count items a = .ok events b) (hmuted : a.log.muted = 0)
    (hclean : b.log.errorCount = 0) : ∀ name reason, Item.unreadable name reason ∉ items := by
  induction items generalizing count a events with
  | nil => simp
  | cons item items ih =>
    intro name reason hmem
    obtain ⟨next, es, c, fs, hitem, hrest, rfl⟩ := sweep_cons h
    cases hitem with
    | opened file name' =>
      exact ih hrest hmuted name reason ((List.mem_cons.mp hmem).resolve_left (by simp))
    | unreadable name' hfirst =>
      obtain ⟨-, -, herror⟩ := rests_of_announceError rfl hfirst
      obtain ⟨vs, hvs, -⟩ := visits_of_sweep hrest
      have hkept := hvs.keeps.errors
      exact herror hmuted (by omega)
    | line hfirst =>
      obtain ⟨v, rfl, rfl, hv, hidles, -⟩ := visit_of_finishLine hfirst
      refine ih hrest ?_ name reason ((List.mem_cons.mp hmem).resolve_left (by simp))
      rw [hidles.muted, (keeps_of_handleLine hv).muted, hmuted]

/-- A pass ends where its sweep does, unless it has read its source to the end and misses the end of
the program. -/
theorem runPass_cases {reading : Reading Line} {a b : Assembly} {events : List Event}
    (h : runPass reading a = .ok events b) :
    ∃ swept c, sweep 0 reading.items a = .ok swept c ∧
      ((events = swept ∧ b = c ∧ (reading.failure = none → c.ending ≠ .running)) ∨
        (reading.failure = none ∧ c.ending = .running ∧
          ∃ closing, announceError 0 .missingEnd c = .ok closing b ∧ events = swept ++ closing)) := by
  unfold runPass at h
  obtain ⟨swept, c, hsweep, h⟩ := Build.ok_of_bind_ok h
  refine ⟨swept, c, hsweep, ?_⟩
  cases hfailure : reading.failure with
  | some reason =>
    rw [hfailure] at h
    cases h
    exact .inl ⟨rfl, rfl, fun hnone => by cases hnone⟩
  | none =>
    rw [hfailure] at h
    obtain ⟨closing, d, hclose, h⟩ := Build.ok_of_bind_ok h
    cases h
    unfold closePass at hclose
    rw [Build.get_bind] at hclose
    by_cases hending : c.ending = .running
    · rw [if_pos (by simp [hending])] at hclose
      exact .inr ⟨rfl, hending, closing, hclose, rfl⟩
    · rw [if_neg (by simp [hending])] at hclose
      cases hclose
      exact .inl ⟨List.append_nil _, rfl, fun _ => hending⟩

/-- A pass that reads its source to the end ends where its sweep does, or misses the end of the program
and reports that as an error. -/
theorem sweep_of_runPass {reading : Reading Line} {a b : Assembly} {events : List Event}
    (h : runPass reading a = .ok events b) (hfailure : reading.failure = none) :
    ∃ swept c, sweep 0 reading.items a = .ok swept c ∧
      events.filterMap Event.outcome? = swept.filterMap Event.outcome? ∧ c.Rests b ∧
      ((c.ending ≠ .running ∧ b = c) ∨
        (c.ending = .running ∧ (a.log.muted = 0 → b.log.errorCount ≠ 0))) := by
  obtain ⟨swept, c, hsweep, ⟨rfl, rfl, hended⟩ | ⟨-, hending, closing, hclose, rfl⟩⟩ :=
    runPass_cases h
  · exact ⟨events, b, hsweep, rfl, .refl b, .inl ⟨hended hfailure, rfl⟩⟩
  · obtain ⟨vs, hvs, -⟩ := visits_of_sweep hsweep
    obtain ⟨hrests, hreported, herror⟩ := rests_of_announceError rfl hclose
    refine ⟨swept, c, hsweep, ?_, hrests,
      .inr ⟨hending, fun hmuted => herror (hvs.keeps.muted.trans hmuted)⟩⟩
    rw [List.filterMap_append, hreported.outcomes, List.map_nil, List.append_nil]

/-- **Every pass** is a row of visits. -/
theorem visits_of_runPass {reading : Reading Line} {a b : Assembly} {events : List Event}
    (h : runPass reading a = .ok events b) :
    ∃ vs, Visits a vs b ∧ vs.map Visit.line = reading.lines ∧ Recorded events vs := by
  obtain ⟨swept, c, hsweep, hclosed⟩ := runPass_cases h
  obtain ⟨vs, hvs, hlines, hrec⟩ := visits_of_sweep hsweep
  rcases hclosed with ⟨rfl, rfl, -⟩ | ⟨-, -, closing, hclose, rfl⟩
  · exact ⟨vs, hvs, hlines, hrec⟩
  · obtain ⟨hrests, hreported, -⟩ := rests_of_announceError rfl hclose
    refine ⟨vs, hvs.close hrests, hlines, ?_⟩
    simpa using hrec.append hreported

/-- A pass that reads its source to the end raises an error if the end of the program is missing. -/
theorem errors_of_running {reading : Reading Line} {a b : Assembly} {events : List Event}
    (h : runPass reading a = .ok events b) (hfailure : reading.failure = none)
    (hrunning : b.ending = .running) (hmuted : a.log.muted = 0) : b.log.errorCount ≠ 0 := by
  obtain ⟨swept, c, hsweep, -, hrests, ⟨hended, rfl⟩ | ⟨-, herror⟩⟩ := sweep_of_runPass h hfailure
  · exact absurd hrunning hended
  · exact herror hmuted

/-! ## Programs -/

/-- A program is made by two passes: from `a` to `b` through the first source, and from `c`, which is
`b` with core made ready, to `d` through the second. -/
structure TwoPasses (options : Options) (first second : Reading Line) (run : Run)
    (program : Program) (a b c d : Assembly) : Prop where
  start : Assembly.start options = .ok a
  pass1 : runPass first (a.reset 1) = .ok run.first b
  failure1 : first.failure = none
  load : (b.reset 2).load = .ok (c, program.startup)
  pass2 : runPass second c = .ok run.second d
  failure2 : second.failure = none
  program_eq : program =
    { options
      memory := d.memory
      symbols := d.symbols
      outcomes := run.second.filterMap Event.outcome?
      trailing := d.log.pending
      entry := d.entry
      lines := second.lines.length
      pass1 := b.log.counts
      pass2 := d.log.counts
      layout1 := run.first.filterMap Event.span?
      layout2 := run.second.filterMap Event.span?
      startup := program.startup }

theorem start_eq {options : Options} {a : Assembly} (h : Assembly.start options = .ok a) :
    Memory.blank options.memorySize = .ok a.memory ∧ a = {
      options, memory := a.memory, log := Log.start options.warnings,
      symbols := { divide := options.divide } } := by
  unfold Assembly.start at h
  split at h
  · cases h
  · cases h
    exact ⟨by assumption, rfl⟩

theorem size_of_start {options : Options} {a : Assembly} (h : Assembly.start options = .ok a) :
    a.memory.cells.size = options.memorySize.toNatClampNeg := by
  obtain ⟨hblank, -⟩ := start_eq h
  generalize a.memory = m at hblank
  unfold Memory.blank at hblank
  split at hblank
  · cases hblank
  · rename_i n hn
    cases hblank
    unfold allocate at hn
    split at hn
    · cases hn
    · cases hn
      exact Array.size_replicate

/-- The state with core made ready for the second pass. -/
def Assembly.loaded (a : Assembly) : Assembly :=
  { a with
    memory := a.memory.clear.seed a.entry a.options.halt a.options.tables
      (a.options.model == .one) }

theorem load_of_size {a : Assembly} (h : startupLength ≤ a.memory.cells.size) :
    a.load = .ok (a.loaded, Memory.startupCells a.entry a.options.halt) := by
  have hsize : startupLength ≤ a.memory.clear.cells.size := by
    unfold Memory.clear
    rwa [Array.size_replicate]
  unfold Assembly.load
  dsimp only
  rw [if_neg (by rw [Memory.size_seed]; omega), Memory.startup_seed hsize]
  rfl

theorem size_of_load {a b : Assembly} {startup : Value} (h : a.load = .ok (b, startup)) :
    startupLength ≤ a.memory.cells.size := by
  refine Nat.le_of_not_lt fun hsize => ?_
  unfold Assembly.load Memory.clear at h
  dsimp only at h
  rw [if_pos (by rwa [Memory.size_seed, Array.size_replicate])] at h
  cases h

theorem load_eq {a b : Assembly} {startup : Value} (h : a.load = .ok (b, startup)) :
    b = a.loaded ∧ startup = Memory.startupCells a.entry a.options.halt := by
  have hsize := size_of_load h
  rw [load_of_size hsize] at h
  cases h
  exact ⟨rfl, rfl⟩

/-- **A run** has a first pass, and if that reads its source to the end a second one; it gives a
program if both do. -/
theorem assemble_cases {options : Options} {first second : Reading Line} {run : Run}
    (h : assemble options first second = .ok run) :
    ∃ a b, Assembly.start options = .ok a ∧ runPass first (a.reset 1) = .ok run.first b ∧
      ((∃ reason, run.second = [] ∧ run.result = .error reason) ∨
        ∃ d, runPass second (b.reset 2).loaded = .ok run.second d ∧
          ((∃ reason, run.result = .error reason) ∨
            ∃ program, run.result = .ok program ∧
              TwoPasses options first second run program a b (b.reset 2).loaded d)) := by
  unfold assemble at h
  rcases hstart : Assembly.start options with f | a
  · rw [hstart] at h; cases h
  simp only [hstart, bind, Except.bind] at h
  rcases hpass1 : runPass first (a.reset 1) with ⟨events1, b⟩ | f
  rotate_left
  · rw [hpass1] at h; cases h
  simp only [hpass1] at h
  rcases hfailure1 : first.failure with _ | reason
  rotate_left
  · simp only [hfailure1] at h
    cases h
    exact ⟨a, b, rfl, hpass1, .inl ⟨_, rfl, rfl⟩⟩
  simp only [hfailure1] at h
  rcases hload : (b.reset 2).load with f | ⟨c, startup⟩
  · rw [hload] at h; cases h
  obtain ⟨rfl, -⟩ := load_eq hload
  simp only [hload] at h
  rcases hpass2 : runPass second (b.reset 2).loaded with ⟨events2, d⟩ | f
  rotate_left
  · rw [hpass2] at h; cases h
  simp only [hpass2] at h
  rcases hfailure2 : second.failure with _ | reason <;> simp only [hfailure2] at h <;> cases h
  · exact ⟨a, b, rfl, hpass1, .inr ⟨d, hpass2, .inr ⟨_, rfl,
      hstart, hpass1, hfailure1, hload, hpass2, hfailure2, rfl⟩⟩⟩
  · exact ⟨a, b, rfl, hpass1, .inr ⟨d, hpass2, .inl ⟨_, rfl⟩⟩⟩

/-- **Every program** is made by two passes. -/
theorem twoPasses_of_assemble {options : Options} {first second : Reading Line} {run : Run}
    {program : Program} (h : assemble options first second = .ok run)
    (hprogram : run.result = .ok program) :
    ∃ a b c d, TwoPasses options first second run program a b c d := by
  obtain ⟨a, b, -, -, ⟨_, -, hfailed⟩ | ⟨d, -, ⟨_, hfailed⟩ | ⟨program', hresult, htwo⟩⟩⟩ :=
    assemble_cases h
  · rw [hprogram] at hfailed
    cases hfailed
  · rw [hprogram] at hfailed
    cases hfailed
  · rw [hprogram] at hresult
    cases hresult
    exact ⟨a, b, _, d, htwo⟩

theorem TwoPasses.clean {options : Options} {first second : Reading Line} {run : Run}
    {program : Program} {a b c d : Assembly}
    (h : TwoPasses options first second run program a b c d) (hok : program.ok = true) :
    b.log.errorCount = 0 ∧ d.log.errorCount = 0 := by
  rw [h.program_eq, Program.ok, Bool.and_eq_true, beq_iff_eq, beq_iff_eq] at hok
  exact hok

theorem assemble_of_passes {options : Options} {first second : Reading Line} {a b c d : Assembly}
    {events1 events2 : List Event} {startup : Value} (hstart : Assembly.start options = .ok a)
    (hpass1 : runPass first (a.reset 1) = .ok events1 b) (hfailure1 : first.failure = none)
    (hload : (b.reset 2).load = .ok (c, startup)) (hpass2 : runPass second c = .ok events2 d)
    (hfailure2 : second.failure = none) :
    ∃ run program, assemble options first second = .ok run ∧ run.result = .ok program ∧
      run.first = events1 ∧ run.second = events2 ∧ program.startup = startup ∧
      TwoPasses options first second run program a b c d := by
  unfold assemble
  simp only [hstart, bind, Except.bind, hpass1, hfailure1, hload, hpass2, hfailure2]
  exact ⟨_, _, rfl, rfl, rfl, rfl, rfl, hstart, hpass1, hfailure1, hload, hpass2, hfailure2, rfl⟩

theorem startup_of_runPass {options : Options} {reading : Reading Line} {a b : Assembly}
    {events : List Event} (hstart : Assembly.start options = .ok a)
    (hsize : startupLength ≤ options.memorySize.toNatClampNeg)
    (h : runPass reading (a.reset 1) = .ok events b) :
    startupLength ≤ (b.reset 2).memory.cells.size := by
  obtain ⟨vs, hvs, -⟩ := visits_of_runPass h
  have hmemory : (b.reset 2).memory = a.memory := hvs.memory_eq rfl
  rwa [hmemory, size_of_start hstart]

/-- A first pass, and a second one from where core has been made ready behind it, make a program. -/
theorem assemble_of_loaded {options : Options} {first second : Reading Line} {a b d : Assembly}
    {es fs : List Event} (hstart : Assembly.start options = .ok a)
    (hsize : startupLength ≤ options.memorySize.toNatClampNeg) (hfailure1 : first.failure = none)
    (hfailure2 : second.failure = none) (hpass1 : runPass first (a.reset 1) = .ok es b)
    (hpass2 : runPass second (b.reset 2).loaded = .ok fs d) :
    ∃ run program, assemble options first second = .ok run ∧ run.result = .ok program ∧
      run.first = es ∧ run.second = fs ∧
      TwoPasses options first second run program a b (b.reset 2).loaded d := by
  obtain ⟨run, program, hrun, hprogram, hes, hfs, -, htwo⟩ := assemble_of_passes hstart hpass1
    hfailure1 (load_of_size (startup_of_runPass hstart hsize hpass1)) hpass2 hfailure2
  exact ⟨run, program, hrun, hprogram, hes, hfs, htwo⟩

/-- The number of errors that each pass over a source raises, if both come to their end. -/
def errorCounts (first second : Reading Line) (a : Assembly) : Option (Nat × Nat) :=
  match runPass first (a.reset 1) with
  | .error _ _ => none
  | .ok _ b =>
    match runPass second (b.reset 2).loaded with
    | .error _ _ => none
    | .ok _ d => some (b.log.errorCount, d.log.errorCount)

theorem assemble_of_errorCounts {options : Options} {first second : Reading Line} {a : Assembly}
    {m n : Nat} (hstart : Assembly.start options = .ok a)
    (hsize : startupLength ≤ options.memorySize.toNatClampNeg) (hfailure1 : first.failure = none)
    (hfailure2 : second.failure = none) (h : errorCounts first second a = some (m, n)) :
    ∃ run program, assemble options first second = .ok run ∧ run.result = .ok program ∧
      program.pass1.errors = m ∧ program.pass2.errors = n := by
  unfold errorCounts at h
  split at h
  · cases h
  · rename_i es b hpass1
    split at h
    · cases h
    · rename_i fs d hpass2
      cases h
      obtain ⟨run, program, hrun, hprogram, -, -, htwo⟩ :=
        assemble_of_loaded hstart hsize hfailure1 hfailure2 hpass1 hpass2
      exact ⟨run, program, hrun, hprogram, by rw [htwo.program_eq]; rfl,
        by rw [htwo.program_eq]; rfl⟩

/-- The number of errors of each pass over a source, and what is read off their events and the
symbols, if both come to their end. -/
def afterPasses {γ : Type} (f : List Event → List Event → SymbolTable → γ)
    (first second : Reading Line) (a : Assembly) : Option (Nat × Nat × γ) :=
  match runPass first (a.reset 1) with
  | .error _ _ => none
  | .ok es b =>
    match runPass second (b.reset 2).loaded with
    | .error _ _ => none
    | .ok fs d => some (b.log.errorCount, d.log.errorCount, f es fs d.symbols)

theorem assemble_of_afterPasses {γ : Type} (f : List Event → List Event → SymbolTable → γ)
    {options : Options} {first second : Reading Line} {a : Assembly} {m n : Nat} {x : γ}
    (hstart : Assembly.start options = .ok a)
    (hsize : startupLength ≤ options.memorySize.toNatClampNeg)
    (hfailure1 : first.failure = none) (hfailure2 : second.failure = none)
    (h : afterPasses f first second a = some (m, n, x)) :
    ∃ run program, assemble options first second = .ok run ∧ run.result = .ok program ∧
      program.pass1.errors = m ∧ program.pass2.errors = n ∧
      f run.first run.second program.symbols = x := by
  unfold afterPasses at h
  split at h
  · cases h
  · rename_i es b hpass1
    split at h
    · cases h
    · rename_i fs d hpass2
      cases h
      obtain ⟨run, program, hrun, hprogram, rfl, rfl, htwo⟩ :=
        assemble_of_loaded hstart hsize hfailure1 hfailure2 hpass1 hpass2
      refine ⟨run, program, hrun, hprogram, ?_, ?_, ?_⟩ <;> rw [htwo.program_eq]
      · rfl
      · rfl

end SpsAssembler
