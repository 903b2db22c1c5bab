import SpsAssembler.Proofs.Echo
import SpsAssembler.Proofs.Passes

/-!
# What is reported

A step changes the log by reporting only, so what it does to the log is a list of reports. What
becomes of them depends on the switches of the log alone.

* `Log.kept`, **`Log.raiseAll_eq`**: the messages that reports become;
* `Assembly.Utters`: the reports that lead from one state to another, and what they are about;
* `Leads.utters`, **`utters_of_handleLine`**: acts and lines change the log by reporting only;
* `evaluate_utters`: what an operand changes the log by.
-/

namespace SpsAssembler

namespace Log

variable {ρ : Type}

/-- A report at the place of a log. -/
def placed (log : Log ρ) (r : Report ρ) : Diagnostic ρ := ⟨r.severity, log.pass, log.line, r.cause⟩

/-- The messages that reports become: none while the log is muted, and warnings only if they are
switched on. -/
def kept (log : Log ρ) (reports : List (Report ρ)) : List (Diagnostic ρ) :=
  if log.muted = 0 then (reports.filter fun r => r.isError || log.warnings).map log.placed else []

/-- The log with messages added and counted. -/
def deliver (log : Log ρ) (ds : List (Diagnostic ρ)) : Log ρ :=
  { log with
    pending := log.pending ++ ds
    errorCount := log.errorCount + ds.countP (·.isError)
    warningCount := log.warningCount + ds.countP (!·.isError) }

theorem deliver_nil (log : Log ρ) : log.deliver [] = log := by
  simp [deliver]

theorem deliver_append (log : Log ρ) (ds es : List (Diagnostic ρ)) :
    log.deliver (ds ++ es) = (log.deliver ds).deliver es := by
  simp [deliver, Nat.add_assoc]

theorem raise_eq (log : Log ρ) (r : Report ρ) : log.raise r = log.deliver (log.kept [r]) := by
  unfold raise kept
  by_cases hmuted : log.muted = 0
  · rw [if_neg (by simp [hmuted]), if_pos hmuted]
    cases hr : r.severity with
    | error => simp [deliver, push, placed, Report.isError, Diagnostic.isError, hr]
    | warning =>
      cases hwarnings : log.warnings with
      | true => simp [deliver, push, placed, Report.isError, Diagnostic.isError, hr]
      | false => simp [Report.isError, hr, deliver_nil]
  · rw [if_pos (by simp [hmuted]), if_neg hmuted, deliver_nil]

theorem kept_of_place {log log' : Log ρ} (h : log'.place = log.place) (reports : List (Report ρ)) :
    log'.kept reports = log.kept reports := by
  simp only [place, Prod.mk.injEq] at h
  obtain ⟨hwarnings, hmuted, hpass, hline⟩ := h
  have hplaced : log'.placed = log.placed := by
    funext r
    rw [placed, placed, hpass, hline]
  rw [kept, kept, hwarnings, hmuted, hplaced]

theorem kept_cons (log : Log ρ) (r : Report ρ) (rs : List (Report ρ)) :
    log.kept (r :: rs) = log.kept [r] ++ log.kept rs := by
  unfold kept
  split
  · rw [← List.map_append, ← List.filter_append]
    rfl
  · rfl

/-- **What reports become** is added to the log and counted. -/
theorem raiseAll_eq (log : Log ρ) (reports : List (Report ρ)) :
    log.raiseAll reports = log.deliver (log.kept reports) := by
  induction reports generalizing log with
  | nil => simp [raiseAll_nil, kept, deliver_nil]
  | cons r rs ih =>
    rw [raiseAll_cons, ih, kept_of_place (raise_place log r), kept_cons, deliver_append, ← raise_eq]

end Log

/-! ## Steps -/

/-- From one state to another the log changed by reports whose causes are of one sort. -/
def Assembly.Utters (P : Cause → Prop) (a b : Assembly) : Prop :=
  ∃ reports, b.log = a.log.raiseAll reports ∧ ∀ r ∈ reports, P r.cause

namespace Assembly.Utters

variable {P Q : Cause → Prop} {a b c : Assembly}

theorem of_log_eq (h : b.log = a.log) : a.Utters P b := ⟨[], h, by simp⟩

theorem refl (a : Assembly) : a.Utters P a := of_log_eq rfl

theorem trans (h : a.Utters P b) (g : b.Utters P c) : a.Utters P c := by
  obtain ⟨rs, hrs, hP⟩ := h
  obtain ⟨qs, hqs, hQ⟩ := g
  refine ⟨rs ++ qs, ?_, fun r hr => (List.mem_append.mp hr).elim (hP r) (hQ r)⟩
  rw [hqs, hrs, Log.raiseAll, Log.raiseAll, Log.raiseAll, List.foldl_append]

theorem mono (h : a.Utters P b) (hPQ : ∀ c, P c → Q c) : a.Utters Q b := by
  obtain ⟨rs, hrs, hP⟩ := h
  exact ⟨rs, hrs, fun r hr => hPQ _ (hP r hr)⟩

theorem raise {reports : List (Report Cause)} (h : ∀ r ∈ reports, P r.cause) :
    a.Utters P (a.raise reports) := ⟨reports, rfl, h⟩

theorem pending (h : a.Utters P b) : ∃ ds, b.log.pending = a.log.pending ++ ds ∧ ∀ d ∈ ds, P d.cause := by
  obtain ⟨rs, hrs, hP⟩ := h
  obtain ⟨ds, hds, hcauses⟩ := a.log.pending_raiseAll rs
  refine ⟨ds, hrs ▸ hds, fun d hd => ?_⟩
  obtain ⟨r, hr, hcause⟩ := hcauses d hd
  exact hcause ▸ hP r hr

end Assembly.Utters

open Assembly (Utters)

section Steps

variable {reach : Reach} {s : Statement} {a b : Assembly} {o : Outcome} {processed : Bool}

theorem Act.utters (h : Act reach a b) : a.Utters (·.concernsLabel = false) b := by
  cases h with
  | report _ reports h => exact .raise h
  | evaluate => exact .of_log_eq rfl
  | count => exact .of_log_eq rfl
  | turn => exact .of_log_eq rfl
  | finish => exact .of_log_eq rfl

theorem Leads.utters (h : Leads reach a b) : a.Utters (·.concernsLabel = false) b := by
  induction h with
  | refl => exact .refl a
  | tail _ hbc ih => exact ih.trans hbc.utters

theorem defineLabel_utters (s : Statement) (p : Placement) (a : Assembly) :
    a.Utters (fun _ => True) (defineLabel s p a).2 := by
  rcases defineLabel_apply s p a with ⟨-, h⟩ | ⟨-, h⟩
  · rw [h]
    exact ⟨_, rfl, fun _ _ => trivial⟩
  · rw [h]
    exact .raise fun _ _ => trivial

theorem layOut_utters (s : Statement) (a : Assembly) : a.Utters (fun _ => True) (layOut s a).2 := by
  have hplace : a.Utters (fun _ => True) (beforeLabel s a) :=
    ((place_within s a).utters.trans (beforeLabel_of_place s a).utters).mono fun _ _ => trivial
  rw [layOut_apply]
  dsimp only
  split
  · exact hplace.trans (defineLabel_utters s _ _)
  · exact hplace

theorem store_utters {P : Cause → Prop} {address : Word} {value : Value} (hP : P (.cannotStore address))
    (h : store address value a = .ok () b) : a.Utters P b := by
  rcases store_cases h with ⟨-, rfl⟩ | ⟨-, rfl⟩
  · exact .raise (by simpa [error] using hP)
  · exact .of_log_eq rfl

theorem Processed.utters (h : Processed s a o b) : a.Utters (fun _ => True) b := by
  rcases h.core with ⟨-, -, rfl⟩ | ⟨-, c, hc, hs⟩
  · exact layOut_utters s a
  · exact ((layOut_utters s a).trans ((encode_leads hc).utters.mono fun _ _ => trivial)).trans
      (store_utters trivial hs)

theorem Handles.utters (h : Handles s a o processed b) : a.Utters (fun _ => True) b := by
  cases h with
  | comment => exact .refl a
  | processed _ _ hb => exact (processed_of_process hb).utters
  | beyond => exact ⟨[error .beyondEnd], rfl, fun _ _ => trivial⟩
  | overrun => exact .refl a

/-- **A line changes the log by reporting only.** -/
theorem utters_of_handleLine {line : Line} (h : handleLine line a = .ok (o, processed) b) :
    (a.atLine line.number).Utters (fun _ => True) b := by
  have hparse : Step.Within .still (parse line) := parse_within line
  exact ((hparse _).utters.mono fun _ _ => trivial).trans (handles_of_handleLine h).utters

end Steps

/-! ## Operands -/

/-- What is wrong with an operand or with a symbol in it. -/
def Cause.concernsOperand : Cause → Bool
  | invalidOperand _ | indexNotSupported _ | invalidIndex _ | invalidSymbol _ | invalidSymbolHead _
  | undefinedSymbol _ | forwardReference _ => true
  | c => c.concernsValue

theorem referenceKey_concernsOperand {divide : Bool} {head : Byte} {name : Text} {c : Cause}
    (h : referenceKey divide head name = .error c) : c.concernsOperand = true := by
  rcases referenceKey_error h with ⟨t, rfl⟩ | ⟨t, rfl⟩ <;> rfl

theorem evaluate_utters (operand : Text) (usage : Usage) (a : Assembly) :
    a.Utters (·.concernsOperand = true) (evaluate operand usage a).2 := by
  have hvalue : ∀ c : Cause, c.concernsValue = true → c.concernsOperand = true := by
    intro c hc
    cases c <;> first | rfl | cases hc
  have hcovers : CoversOperand (·.concernsOperand = true) a.symbols.divide a.scope.head operand :=
    ⟨hvalue, rfl, fun _ _ => ⟨rfl, rfl⟩, fun _ _ _ => referenceKey_concernsOperand,
      fun _ _ _ _ => ⟨rfl, rfl⟩⟩
  have hreports : Throughout _ (evaluateIn a.scope usage a.symbols operand).reports :=
    evaluateIn_throughout hcovers
  rw [evaluate_apply]
  exact ⟨_, rfl, hreports⟩

end SpsAssembler
