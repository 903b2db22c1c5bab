import SpsAssembler.Diagnostic.Log

/-!
# What reporting does to a log

Reporting leaves the place of a log alone, never lowers its counts and only adds at the end of what
is pending.

* `Log.raise_cases`: what becomes of one report;
* `Log.raiseAll_place`: pass, line and switches stay;
* **`Log.errorCount_raiseAll`**: the errors reported are counted, one by one;
* **`Log.eq_nil_of_counts`**: if neither count rises, nothing was reported;
* **`Log.pending_raiseAll`**: what is pending was pending before, or was reported.
-/

namespace SpsAssembler

variable {ρ : Type}

/-- Whether a report is an error. -/
def Report.isError (r : Report ρ) : Bool := r.severity == .error

/-- Whether a message is an error. -/
def Diagnostic.isError (d : Diagnostic ρ) : Bool := d.severity == .error

namespace Log

/-- A report is passed over, or kept as an error, or kept as a warning. -/
theorem raise_cases (log : Log ρ) (r : Report ρ) :
    (log.raise r = log ∧ (log.muted = 0 → r.isError = false ∧ log.warnings = false)) ∨
      (log.raise r = { log.push r with errorCount := log.errorCount + 1 } ∧ r.isError = true) ∨
      (log.raise r = { log.push r with warningCount := log.warningCount + 1 } ∧
        r.isError = false) := by
  unfold raise Report.isError
  by_cases hmuted : log.muted = 0
  · rw [if_neg (by simp [hmuted])]
    cases r.severity with
    | error => exact .inr (.inl ⟨rfl, rfl⟩)
    | warning =>
      by_cases hwarn : log.warnings = true
      · exact .inr (.inr ⟨if_pos hwarn, rfl⟩)
      · exact .inl ⟨if_neg hwarn, fun _ => ⟨rfl, by simpa using hwarn⟩⟩
  · exact .inl ⟨if_pos (by simp [hmuted]), fun h => absurd h hmuted⟩

/-- What reporting leaves alone. -/
def place (log : Log ρ) : Bool × Nat × Word × Word := (log.warnings, log.muted, log.pass, log.line)

theorem raise_place (log : Log ρ) (r : Report ρ) : (log.raise r).place = log.place := by
  rcases raise_cases log r with ⟨h, -⟩ | ⟨h, -⟩ | ⟨h, -⟩ <;> rw [h] <;> rfl

theorem raiseAll_nil (log : Log ρ) : log.raiseAll [] = log := rfl

theorem raiseAll_cons (log : Log ρ) (r : Report ρ) (rs : List (Report ρ)) :
    log.raiseAll (r :: rs) = (log.raise r).raiseAll rs := rfl

theorem raiseAll_place (log : Log ρ) (rs : List (Report ρ)) :
    (log.raiseAll rs).place = log.place := by
  induction rs generalizing log with
  | nil => rfl
  | cons r rs ih => rw [raiseAll_cons, ih, raise_place]

@[simp] theorem raiseAll_warnings (log : Log ρ) (rs : List (Report ρ)) :
    (log.raiseAll rs).warnings = log.warnings := congrArg Prod.fst (raiseAll_place log rs)

@[simp] theorem raiseAll_muted (log : Log ρ) (rs : List (Report ρ)) :
    (log.raiseAll rs).muted = log.muted := congrArg (·.2.1) (raiseAll_place log rs)

@[simp] theorem raiseAll_pass (log : Log ρ) (rs : List (Report ρ)) :
    (log.raiseAll rs).pass = log.pass := congrArg (·.2.2.1) (raiseAll_place log rs)

theorem raise_muted (log : Log ρ) (r : Report ρ) : (log.raise r).muted = log.muted :=
  congrArg (·.2.1) (raise_place log r)

/-! ## Counts -/

theorem errorCount_raise (log : Log ρ) (hlog : log.muted = 0) (r : Report ρ) :
    (log.raise r).errorCount = log.errorCount + if r.isError then 1 else 0 := by
  rcases raise_cases log r with ⟨h, hr⟩ | ⟨h, hr⟩ | ⟨h, hr⟩
  · rw [h, (hr hlog).1]; rfl
  · rw [h, hr]; rfl
  · rw [h, hr]; rfl

/-- **Every error is counted.** -/
theorem errorCount_raiseAll (log : Log ρ) (hlog : log.muted = 0) (rs : List (Report ρ)) :
    (log.raiseAll rs).errorCount = log.errorCount + rs.countP Report.isError := by
  induction rs generalizing log with
  | nil => rfl
  | cons r rs ih =>
    rw [raiseAll_cons, ih _ (by rw [raise_muted, hlog]), errorCount_raise log hlog, List.countP_cons]
    omega

theorem errorCount_le_raise (log : Log ρ) (r : Report ρ) :
    log.errorCount ≤ (log.raise r).errorCount := by
  rcases raise_cases log r with ⟨h, -⟩ | ⟨h, -⟩ | ⟨h, -⟩
  · exact Nat.le_of_eq (by rw [h])
  · rw [h]; exact Nat.le_succ _
  · rw [h]; exact Nat.le_refl _

theorem errorCount_le_raiseAll (log : Log ρ) (rs : List (Report ρ)) :
    log.errorCount ≤ (log.raiseAll rs).errorCount := by
  induction rs generalizing log with
  | nil => exact Nat.le_refl _
  | cons r rs ih => exact Nat.le_trans (errorCount_le_raise log r) (ih _)

/-- A log that counts no new error was told of none. -/
theorem not_isError_of_errorCount (log : Log ρ) (hlog : log.muted = 0) {rs : List (Report ρ)}
    (h : (log.raiseAll rs).errorCount ≤ log.errorCount) : ∀ r ∈ rs, r.isError = false := by
  rw [errorCount_raiseAll log hlog] at h
  have h0 : rs.countP Report.isError = 0 := by omega
  intro r hr
  exact Bool.eq_false_iff.mpr (List.countP_eq_zero.mp h0 r hr)

theorem errorCount_raiseAll_of_clean (log : Log ρ) (hlog : log.muted = 0) {rs : List (Report ρ)}
    (h : ∀ r ∈ rs, r.isError = false) : (log.raiseAll rs).errorCount = log.errorCount := by
  rw [errorCount_raiseAll log hlog, List.countP_eq_zero.mpr fun r hr => by simp [h r hr],
    Nat.add_zero]

theorem warningCount_le_raise (log : Log ρ) (r : Report ρ) :
    log.warningCount ≤ (log.raise r).warningCount := by
  rcases raise_cases log r with ⟨h, -⟩ | ⟨h, -⟩ | ⟨h, -⟩
  · exact Nat.le_of_eq (by rw [h])
  · rw [h]; exact Nat.le_refl _
  · rw [h]; exact Nat.le_succ _

theorem warningCount_le_raiseAll (log : Log ρ) (rs : List (Report ρ)) :
    log.warningCount ≤ (log.raiseAll rs).warningCount := by
  induction rs generalizing log with
  | nil => exact Nat.le_refl _
  | cons r rs ih => exact Nat.le_trans (warningCount_le_raise log r) (ih _)

/-- **A log that keeps warnings** and counts nothing new was told of nothing. -/
theorem eq_nil_of_counts (log : Log ρ) (hlog : log.muted = 0) (hwarnings : log.warnings = true)
    {rs : List (Report ρ)} (herrors : (log.raiseAll rs).errorCount ≤ log.errorCount)
    (hcautions : (log.raiseAll rs).warningCount ≤ log.warningCount) : rs = [] := by
  cases rs with
  | nil => rfl
  | cons r rs =>
    rw [raiseAll_cons] at herrors hcautions
    have hrest := errorCount_le_raiseAll (log.raise r) rs
    have hrest' := warningCount_le_raiseAll (log.raise r) rs
    rcases raise_cases log r with ⟨-, h⟩ | ⟨h, -⟩ | ⟨h, -⟩
    · rw [(h hlog).2] at hwarnings
      cases hwarnings
    · have hone : (log.raise r).errorCount = log.errorCount + 1 := by rw [h]
      omega
    · have hone : (log.raise r).warningCount = log.warningCount + 1 := by rw [h]
      omega

/-! ## Pending messages -/

theorem pending_raise (log : Log ρ) (r : Report ρ) :
    ∃ ds, (log.raise r).pending = log.pending ++ ds ∧ ∀ d ∈ ds, d.cause = r.cause := by
  rcases raise_cases log r with ⟨h, -⟩ | ⟨h, -⟩ | ⟨h, -⟩
  · exact ⟨[], by rw [h]; simp⟩
  · exact ⟨[⟨r.severity, log.pass, log.line, r.cause⟩], by rw [h]; rfl, by simp⟩
  · exact ⟨[⟨r.severity, log.pass, log.line, r.cause⟩], by rw [h]; rfl, by simp⟩

/-- **What is pending** was pending before, or was reported. -/
theorem pending_raiseAll (log : Log ρ) (rs : List (Report ρ)) :
    ∃ ds, (log.raiseAll rs).pending = log.pending ++ ds ∧ ∀ d ∈ ds, ∃ r ∈ rs, d.cause = r.cause := by
  induction rs generalizing log with
  | nil => exact ⟨[], by simp [raiseAll_nil]⟩
  | cons r rs ih =>
    obtain ⟨ds, hds, hc⟩ := pending_raise log r
    obtain ⟨es, hes, hcs⟩ := ih (log.raise r)
    refine ⟨ds ++ es, by rw [raiseAll_cons, hes, hds, List.append_assoc], fun d hd => ?_⟩
    rcases List.mem_append.mp hd with hd | hd
    · exact ⟨r, List.mem_cons_self, hc d hd⟩
    · obtain ⟨q, hq, hqd⟩ := hcs d hd
      exact ⟨q, List.mem_cons_of_mem _ hq, hqd⟩

end Log

end SpsAssembler
