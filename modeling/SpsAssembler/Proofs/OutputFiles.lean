import SpsAssembler.Output.Artifacts
import SpsAssembler.Proofs.CardDeck
import SpsAssembler.Proofs.StoreLaws

/-!
# A failing run leaves no stale image

Each output file that is asked for is written or removed in turn, and what comes of one does not
matter to the next but for the store it leaves. No step makes a directory, so a path keeps leading to
the same place, and files at different places do not touch each other.

* `Fate`, **`Settles`**: one file; `Settles.changes`: what that can do to a store;
* **`SettlesAll`**, `foldlM_emitOne`: all files, one after the other;
* `SettlesAll.node?_eq`, `SettlesAll.within`: the rest of the store;
* `exists_cardDeck`, `exists_foldlM`: there is a result;
* `Emitted`, **`emit_emitted`**: the files afterwards, and the failures.
-/

namespace SpsAssembler

open FileStore (NoNewDirectories Within)

/-! ## One file -/

/-- How handling a file comes out. -/
inductive Fate where
  | created
  | removed
  | absent
  | failed (action : String) (reason : Text)
  deriving DecidableEq

/-- Whether something failed. -/
def Fate.isFailure : Fate → Bool
  | failed .. => true
  | _ => false

/-- Whether an output file is written. -/
def Artifact.isWritten (program : Program) (a : Artifact) : Bool := a == .listing || program.ok

/-- **One output file is handled in a store**: how that comes out, and the store afterwards. A file
that is missing need not be removed. -/
inductive Settles (p : Provenance) (program : Program) (a : Artifact) (path : Text) :
    FileStore → Fate → FileStore → Prop where
  | created {s s₁ s₂ : FileStore} {at_ : Place} {content : Text}
      (hwritten : a.isWritten program = true) (hcreate : s.create path = .ok (s₁, at_))
      (hcontent : a.content p program = .ok content)
      (hwrite : s₁.write at_ content = (s₂, content.length)) : Settles p program a path s .created s₂
  | notCreated {s : FileStore} {e : FileError} (hwritten : a.isWritten program = true)
      (hcreate : s.create path = .error e) : Settles p program a path s (.failed "write" e.message) s
  | cutShort {s s₁ s₂ : FileStore} {at_ : Place} {content : Text} {n : Nat}
      (hwritten : a.isWritten program = true) (hcreate : s.create path = .ok (s₁, at_))
      (hcontent : a.content p program = .ok content) (hwrite : s₁.write at_ content = (s₂, n))
      (hshort : n < content.length) :
      Settles p program a path s (.failed "write" (a.cutShort path content n)) s₂
  | removed {s s₁ : FileStore} (hwritten : a.isWritten program = false)
      (hremove : s.remove path = .ok s₁) : Settles p program a path s .removed s₁
  | absent {s : FileStore} {e : FileError} (hwritten : a.isWritten program = false)
      (hremove : s.remove path = .error e) (hcause : e.cause = .notFound) :
      Settles p program a path s .absent s
  | notRemoved {s : FileStore} {e : FileError} (hwritten : a.isWritten program = false)
      (hremove : s.remove path = .error e) (hcause : e.cause ≠ .notFound) :
      Settles p program a path s (.failed "remove" e.message) s

variable {p : Provenance} {program : Program} {paths : Paths} {a b : Artifact} {path : Text}
  {s s' : FileStore} {f : Fate} {at_ q : Place}

/-- The emission once a file has been handled. -/
def Emission.record (e : Emission) (a : Artifact) (path : Text) (store : FileStore) :
    Fate → Emission
  | .created => { e with store, created := e.created ++ [path] }
  | .removed => { e with store, removed := e.removed ++ [path] }
  | .absent => { e with store }
  | .failed action reason => { e with store }.fail action a path reason

theorem emitOne_settles {e e' : Emission} (hpath : paths a ≠ [])
    (h : emitOne p program paths e a = .ok e') :
    ∃ f store, Settles p program a (paths a) e.store f store ∧ e' = e.record a (paths a) store f := by
  rw [emitOne, if_neg (by simpa using hpath)] at h
  split at h <;> rename_i hwritten
  · split at h <;> rename_i hcreate
    · cases h
      exact ⟨_, _, .notCreated hwritten hcreate, rfl⟩
    · rename_i store at_
      cases hcontent : a.content p program with
      | error fault =>
        rw [hcontent] at h
        cases h
      | ok content =>
        rw [hcontent] at h
        cases h
        dsimp only [Emission.write]
        have hle : (store.write at_ content).2 ≤ content.length := Nat.min_le_left _ _
        split <;> rename_i hshort
        · exact ⟨_, _, .cutShort hwritten hcreate hcontent rfl hshort, rfl⟩
        · refine ⟨_, _, .created hwritten hcreate hcontent (Prod.ext rfl ?_), rfl⟩
          exact Nat.le_antisymm hle (Nat.le_of_not_lt hshort)
  · have hremoved : a.isWritten program = false := Bool.eq_false_iff.mpr hwritten
    cases h
    rw [Emission.remove]
    split <;> rename_i hremove
    · exact ⟨_, _, .removed hremoved hremove, rfl⟩
    · split <;> rename_i hcause
      · exact ⟨_, _, .absent hremoved hremove (eq_of_beq hcause), rfl⟩
      · exact ⟨_, _, .notRemoved hremoved hremove (by simpa using hcause), rfl⟩

namespace Settles

/-- **What handling a file can do to a store**: nothing, or it writes or removes what is at the place
that the path leads to. -/
theorem changes (h : Settles p program a path s f s') :
    s' = s ∨ ∃ at_ node, s.locate path = .ok at_ ∧
      (∀ q, s'.node? q = if q = at_ then node else s.node? q) ∧
      ((a.isWritten program = true ∧ ∃ content, node = some (.file content)) ∨
        (a.isWritten program = false ∧ node = none)) := by
  cases h with
  | created hwritten hcreate hcontent hwrite =>
    obtain ⟨hlocate, -, hnode⟩ := FileStore.create_write_spec hcreate hwrite
    exact .inr ⟨_, _, hlocate, hnode, .inl ⟨hwritten, _, rfl⟩⟩
  | notCreated => exact .inl rfl
  | cutShort hwritten hcreate hcontent hwrite hshort =>
    obtain ⟨hlocate, -, hnode⟩ := FileStore.create_write_spec hcreate hwrite
    exact .inr ⟨_, _, hlocate, hnode, .inl ⟨hwritten, _, rfl⟩⟩
  | removed hwritten hremove =>
    obtain ⟨at_, hlocate, hnode⟩ := FileStore.remove_spec hremove
    exact .inr ⟨at_, none, hlocate, hnode, .inr ⟨hwritten, rfl⟩⟩
  | absent => exact .inl rfl
  | notRemoved => exact .inl rfl

theorem noNewDirectories (h : Settles p program a path s f s') : NoNewDirectories s s' := by
  intro q hq
  obtain rfl | ⟨at_, node, -, hnode, hcases⟩ := h.changes
  · exact hq
  · rw [hnode] at hq
    split at hq
    · obtain ⟨-, content, rfl⟩ | ⟨-, rfl⟩ := hcases <;> cases hq
    · exact hq

theorem node?_eq (h : Settles p program a path s f s') (hq : s.locate path ≠ .ok q) :
    s'.node? q = s.node? q := by
  obtain rfl | ⟨at_, node, hlocate, hnode, -⟩ := h.changes
  · rfl
  · have hne : q ≠ at_ := by
      rintro rfl
      exact hq hlocate
    rw [hnode, if_neg hne]

theorem within (h : Settles p program a path s f s') (hwritten : a.isWritten program = false) :
    Within s' s := by
  intro q node hq
  obtain rfl | ⟨at_, _, -, hnode, hcases⟩ := h.changes
  · exact hq
  · obtain ⟨htrue, -⟩ | ⟨-, rfl⟩ := hcases
    · rw [hwritten] at htrue
      cases htrue
    · rw [hnode] at hq
      split at hq
      · cases hq
      · exact hq

theorem isSome_node? (h : Settles p program a path s f s') (hwritten : a.isWritten program = true)
    (hq : (s.node? q).isSome = true) : (s'.node? q).isSome = true := by
  obtain rfl | ⟨at_, _, -, hnode, hcases⟩ := h.changes
  · exact hq
  · obtain ⟨-, content, rfl⟩ | ⟨hfalse, -⟩ := hcases
    · rw [hnode]
      split
      · rfl
      · exact hq
    · rw [hwritten] at hfalse
      cases hfalse

theorem content_eq (h : Settles p program a path s f s') (hwritten : a.isWritten program = true)
    (hf : f.isFailure = false) : f = .created ∧ ∃ at_ content, s.locate path = .ok at_ ∧
      a.content p program = .ok content ∧ s'.node? at_ = some (.file content) := by
  cases h with
  | @created s₁ _ at_ content _ hcreate hcontent hwrite =>
    obtain ⟨hlocate, -, hnode⟩ := FileStore.create_write_spec hcreate hwrite
    refine ⟨rfl, at_, content, hlocate, hcontent, ?_⟩
    rw [hnode, if_pos rfl, List.take_length]
  | notCreated => cases hf
  | cutShort => cases hf
  | removed hfalse => simp [hwritten] at hfalse
  | absent hfalse => simp [hwritten] at hfalse
  | notRemoved => cases hf

theorem has_eq_false (h : Settles p program a path s f s') (hwritten : a.isWritten program = false)
    (hf : f.isFailure = false) : s'.has path = false := by
  have hdirectories := h.noNewDirectories
  cases h with
  | created htrue => simp [hwritten] at htrue
  | notCreated => cases hf
  | cutShort => cases hf
  | removed _ hremove =>
    obtain ⟨at_, hlocate, hnode⟩ := FileStore.remove_spec hremove
    refine Bool.eq_false_iff.mpr fun hhas => ?_
    obtain ⟨q, node, hq, hfound⟩ := FileStore.has_iff.mp hhas
    -- the path leads where it led before, and nothing is there any more
    have heq : q = at_ := by
      have hbefore := FileStore.locate_of_later hdirectories hq
      simpa [hlocate] using hbefore.symm
    simp [hnode, heq] at hfound
  | absent _ hremove hcause => exact FileStore.has_of_notFound hremove hcause
  | notRemoved => cases hf

end Settles

/-! ## All files -/

/-- **Output files are handled one after the other**, each in the store that the last one left. -/
inductive SettlesAll (p : Provenance) (program : Program) (paths : Paths) :
    FileStore → List (Artifact × Fate) → FileStore → Prop where
  | nil {s : FileStore} : SettlesAll p program paths s [] s
  | cons {s s₁ s₂ : FileStore} {a : Artifact} {f : Fate} {rest : List (Artifact × Fate)}
      (h : Settles p program a (paths a) s f s₁) (hrest : SettlesAll p program paths s₁ rest s₂) :
      SettlesAll p program paths s ((a, f) :: rest) s₂

/-- The output files that are asked for. -/
def requested (paths : Paths) : List Artifact := Artifact.all.filter fun a => !(paths a).isEmpty

/-- The emission once some files have been handled. -/
def Emission.recordAll (e : Emission) (paths : Paths) (fates : List (Artifact × Fate))
    (store : FileStore) : Emission where
  store := store
  created := e.created ++ (fates.filter fun x => x.2 == .created).map fun x => paths x.1
  removed := e.removed ++ (fates.filter fun x => x.2 == .removed).map fun x => paths x.1
  failures := e.failures ++ fates.filterMap fun x =>
    match x.2 with
    | .failed action reason => some (x.1.failure action (paths x.1) reason)
    | _ => none

@[simp] theorem Emission.store_record (e : Emission) (store : FileStore) :
    (e.record a path store f).store = store := by
  cases f <;> rfl

theorem Emission.recordAll_cons (e : Emission) (fates : List (Artifact × Fate))
    (store store' : FileStore) :
    (e.record a (paths a) store f).recordAll paths fates store' =
      e.recordAll paths ((a, f) :: fates) store' := by
  cases f <;> simp [record, recordAll, fail]

/-- Every file that is asked for is handled, and the emission keeps all the records. -/
theorem foldlM_emitOne {as : List Artifact} {e e' : Emission}
    (h : as.foldlM (emitOne p program paths) e = .ok e') :
    ∃ fates, SettlesAll p program paths e.store fates e'.store ∧
      fates.map Prod.fst = as.filter (fun a => !(paths a).isEmpty) ∧
      e' = e.recordAll paths fates e'.store := by
  induction as generalizing e with
  | nil =>
    cases h
    exact ⟨[], .nil, rfl, by simp [Emission.recordAll]⟩
  | cons a as ih =>
    rw [List.foldlM_cons] at h
    cases hone : emitOne p program paths e a with
    | error fault =>
      rw [hone] at h
      cases h
    | ok e₁ =>
      rw [hone] at h
      obtain ⟨fates, hfates, hnames, hrecord⟩ := ih h
      by_cases hpath : paths a = []
      · rw [emitOne, if_pos (by simp [hpath])] at hone
        cases hone
        exact ⟨fates, hfates, by simp [hnames, hpath], hrecord⟩
      · obtain ⟨f, store, hsettles, rfl⟩ := emitOne_settles hpath hone
        rw [Emission.store_record] at hfates
        refine ⟨(a, f) :: fates, .cons hsettles hfates, by simp [hnames, hpath], ?_⟩
        rw [← Emission.recordAll_cons e fates store]
        exact hrecord

namespace SettlesAll

variable {fates : List (Artifact × Fate)}

theorem noNewDirectories (h : SettlesAll p program paths s fates s') : NoNewDirectories s s' := by
  induction h with
  | nil => exact .refl _
  | cons h _ ih => exact h.noNewDirectories.trans ih

theorem node?_eq (h : SettlesAll p program paths s fates s')
    (hq : ∀ x ∈ fates, s.locate (paths x.1) ≠ .ok q) : s'.node? q = s.node? q := by
  induction h with
  | nil => rfl
  | cons h _ ih =>
    rw [List.forall_mem_cons] at hq
    rw [ih fun x hx hlater => hq.2 x hx (FileStore.locate_of_later h.noNewDirectories hlater),
      h.node?_eq hq.1]

/-- A place that no path of a written file leads to is as it was, or nothing is there. -/
theorem node?_eq_or (h : SettlesAll p program paths s fates s')
    (hq : ∀ x ∈ fates, x.1.isWritten program = true → s.locate (paths x.1) ≠ .ok q) :
    s'.node? q = s.node? q ∨ s'.node? q = none := by
  induction h with
  | nil => exact .inl rfl
  | @cons s s₁ s₂ a f rest h _ ih =>
    rw [List.forall_mem_cons] at hq
    have hone : s₁.node? q = s.node? q ∨ s₁.node? q = none := by
      cases hwritten : a.isWritten program with
      | true => exact .inl (h.node?_eq (hq.1 hwritten))
      | false =>
        cases hnode : s₁.node? q with
        | none => exact .inr rfl
        | some node => exact .inl (h.within hwritten q node hnode).symm
    rcases ih fun x hx hw hlater =>
      hq.2 x hx hw (FileStore.locate_of_later h.noNewDirectories hlater) with hrest | hrest
    · rw [hrest]
      exact hone
    · exact .inr hrest

theorem within (h : SettlesAll p program paths s fates s')
    (hwritten : ∀ x ∈ fates, x.1.isWritten program = false) : Within s' s := by
  induction h with
  | nil => exact .refl _
  | cons h _ ih =>
    rw [List.forall_mem_cons] at hwritten
    exact (ih hwritten.2).trans (h.within hwritten.1)

theorem isSome_node? (h : SettlesAll p program paths s fates s')
    (hwritten : ∀ x ∈ fates, x.1.isWritten program = true) (hq : (s.node? q).isSome = true) :
    (s'.node? q).isSome = true := by
  induction h with
  | nil => exact hq
  | cons h _ ih =>
    rw [List.forall_mem_cons] at hwritten
    exact ih hwritten.2 (h.isSome_node? hwritten.1 hq)

theorem exists_of_mem (h : SettlesAll p program paths s fates s') (hmem : (a, f) ∈ fates) :
    ∃ s₁ s₂, Settles p program a (paths a) s₁ f s₂ := by
  induction h with
  | nil => cases hmem
  | cons h _ ih =>
    rcases List.mem_cons.mp hmem with heq | hmem
    · cases heq
      exact ⟨_, _, h⟩
    · exact ih hmem

theorem turn (h : SettlesAll p program paths s fates s') (ha : a ∈ fates.map Prod.fst) :
    ∃ before f after s₁ s₂, fates = before ++ (a, f) :: after ∧
      SettlesAll p program paths s before s₁ ∧ Settles p program a (paths a) s₁ f s₂ ∧
      SettlesAll p program paths s₂ after s' := by
  induction h with
  | nil => cases ha
  | @cons s s₁ s₂ b g rest h hrest ih =>
    rw [List.map_cons, List.mem_cons] at ha
    by_cases hab : a = b
    · subst hab
      exact ⟨[], g, rest, s, s₁, rfl, .nil, h, hrest⟩
    · obtain ⟨before, f, after, t₁, t₂, rfl, hbefore, hsettles, hafter⟩ := ih (ha.resolve_left hab)
      exact ⟨(b, g) :: before, f, after, t₁, t₂, rfl, .cons h hbefore, hsettles, hafter⟩

end SettlesAll

theorem mem_requested : a ∈ requested paths ↔ paths a ≠ [] := by
  cases a <;> simp [requested, Artifact.all]

theorem pairwise_requested (paths : Paths) :
    (requested paths).Pairwise fun a b => a ≠ b ∧ b ≠ .listing :=
  List.Pairwise.filter _ (by decide)

/-! ## There is a result -/

theorem exists_cardDeck {m : Memory} (hsize : m.cells.size ≤ 100000) : ∃ deck, cardDeck m = .ok deck := by
  obtain ⟨records, htiles, hcards⟩ := tiles_dataCards m.cells.size firstCardAddress
    (m.cells.toList.drop firstCardAddress)
  have hrender : (dataCards m).mapM Card.render =
      .ok (((dataCards m).map Card.text).map (· ++ ascii "\n")) := mapM_render fun c hc => by
    rw [dataCards, hcards] at hc
    obtain ⟨r, hr, rfl⟩ := List.mem_map.mp hc
    -- a record is not empty, so it starts in core, and it stops there or at its beginning
    have hstands : StandsIn m r := .of_tiles htiles hr
    obtain ⟨first, rest, hrecord, -⟩ := hstands.record.defined
    have hlength := hstands.length_le
    rw [hrecord, List.length_cons] at hlength
    have hstop : (Card.ofRecord m.cells.size r.1 r.2).stop < m.cells.size :=
      Nat.mod_lt _ (by omega)
    refine ⟨?_, by omega⟩
    change r.1 < 100000
    omega
  exact ⟨_, cardDeck_eq hrender⟩

theorem Artifact.exists_content (p : Provenance) (hsize : program.memory.cells.size ≤ 100000)
    (a : Artifact) : ∃ content, a.content p program = .ok content := by
  cases a with
  | cards => exact exists_cardDeck hsize
  | _ => exact ⟨_, rfl⟩

theorem exists_emitOne (hsize : program.memory.cells.size ≤ 100000) (e : Emission) (a : Artifact) :
    ∃ e', emitOne p program paths e a = .ok e' := by
  obtain ⟨content, hcontent⟩ := a.exists_content p hsize
  rw [emitOne]
  split
  · exact ⟨_, rfl⟩
  split
  · split
    · exact ⟨_, rfl⟩
    · exact ⟨_, by rw [hcontent]; rfl⟩
  · exact ⟨_, rfl⟩

theorem exists_foldlM (hsize : program.memory.cells.size ≤ 100000) (as : List Artifact)
    (e : Emission) : ∃ e', as.foldlM (emitOne p program paths) e = .ok e' := by
  induction as generalizing e with
  | nil => exact ⟨e, rfl⟩
  | cons a as ih =>
    obtain ⟨e₁, hone⟩ := exists_emitOne hsize e a
    obtain ⟨e', hrest⟩ := ih e₁
    refine ⟨e', ?_⟩
    rw [List.foldlM_cons, hone]
    exact hrest

/-! ## The failures -/

/-- The error tells of an output file. -/
def Emission.Names (e : Emission) (a : Artifact) (path : Text) : Prop :=
  ∃ message, e.error? = some message ∧ a.mention path <:+: message

theorem infix_bullets {failure : Text} {failures : List Text} (h : failure ∈ failures) :
    failure <:+: Text.bullets failures := by
  have hitem : failure <:+: failures.flatMap (ascii "\n\t* " ++ ·) := by
    obtain ⟨before, after, rfl⟩ := List.append_of_mem h
    exact ⟨before.flatMap (ascii "\n\t* " ++ ·) ++ ascii "\n\t* ",
      after.flatMap (ascii "\n\t* " ++ ·), by simp⟩
  exact hitem.trans ⟨_, _, rfl⟩

namespace Emission

variable {e : Emission} {fates : List (Artifact × Fate)} {store store' : FileStore}

theorem error?_eq_none : e.error? = none ↔ e.failures = [] := by
  rw [error?]
  cases e.failures <;> simp

theorem names_recordAll (h : (a, f) ∈ fates) (hf : f.isFailure = true) :
    (e.recordAll paths fates store).Names a (paths a) := by
  cases f with
  | failed action reason =>
    have hmem : a.failure action (paths a) reason ∈ (e.recordAll paths fates store).failures :=
      List.mem_append_right _ (List.mem_filterMap.mpr ⟨_, h, rfl⟩)
    have hmention : a.mention (paths a) <:+: a.failure action (paths a) reason := ⟨_, _, rfl⟩
    refine ⟨_, if_neg ?_, hmention.trans (infix_bullets hmem)⟩
    simpa using List.ne_nil_of_mem hmem
  | _ => cases hf

theorem error?_recordAll :
    (({ store } : Emission).recordAll paths fates store').error? = none ↔
      ∀ x ∈ fates, x.2.isFailure = false := by
  rw [error?_eq_none]
  change fates.filterMap _ = [] ↔ _
  rw [List.filterMap_eq_nil_iff]
  refine forall₂_congr fun x _ => ?_
  cases x.2 <;> simp [Fate.isFailure]

end Emission

/-! ## The files afterwards -/

/-- The paths of two output files never lead to the same place. A blank path leads nowhere. -/
def Paths.Distinct (paths : Paths) (store : FileStore) : Prop :=
  ∀ a b at_, a ≠ b → store.locate (paths a) = .ok at_ → store.locate (paths b) ≠ .ok at_

/-- **What handling the output files leaves behind.** -/
structure Emitted (p : Provenance) (program : Program) (paths : Paths) (store : FileStore)
    (e : Emission) : Prop where
  /-- Every file that is asked for is handled, whatever came of the others. There is an error exactly
  if a file could not be created, written or removed. -/
  handled : ∃ fates, SettlesAll p program paths store fates e.store ∧
    fates.map Prod.fst = requested paths ∧
    e = ({ store } : Emission).recordAll paths fates e.store ∧
    (e.error? = none ↔ ∀ x ∈ fates, x.2.isFailure = false)
  /-- A file to be written has its content, or the error tells of it. -/
  written : ∀ a, paths a ≠ [] → a = .listing ∨ program.ok = true →
    (paths a ∈ e.created ∧ ∃ at_ content, store.locate (paths a) = .ok at_ ∧
      a.content p program = .ok content ∧ e.store.node? at_ = some (.file content)) ∨
    e.Names a (paths a)
  /-- Places that no path leads to are as they were. -/
  unchanged : ∀ at_, (∀ a, store.locate (paths a) ≠ .ok at_) → e.store.node? at_ = store.node? at_
  /-- Without errors in the program nothing is removed. -/
  kept : program.ok = true → e.removed = [] ∧
    ∀ at_, (store.node? at_).isSome = true → (e.store.node? at_).isSome = true
  /-- With errors in the program only the listing is created, all else is at most removed, -/
  only_listing : program.ok = false → (∀ path ∈ e.created, path = paths .listing) ∧
    ∀ at_, store.locate (paths .listing) ≠ .ok at_ →
      e.store.node? at_ = store.node? at_ ∨ e.store.node? at_ = none
  /-- and no image is left but those that the error tells of. -/
  no_image : program.ok = false → ∀ a, a ≠ .listing → paths a ≠ [] →
    e.store.has (paths a) = false ∨ e.Names a (paths a)

section

variable {store : FileStore} {e : Emission} {fates : List (Artifact × Fate)}

theorem Artifact.isWritten_iff : a.isWritten program = true ↔ a = .listing ∨ program.ok = true := by
  simp [isWritten]

/-- The turn of a file: nothing behind it is the same file, or the listing. -/
theorem exists_turn (hfates : SettlesAll p program paths store fates e.store)
    (hnames : fates.map Prod.fst = requested paths) (ha : paths a ≠ []) :
    ∃ f s₁ s₂ after, (a, f) ∈ fates ∧ NoNewDirectories store s₁ ∧
      Settles p program a (paths a) s₁ f s₂ ∧ SettlesAll p program paths s₂ after e.store ∧
      ∀ x ∈ after, a ≠ x.1 ∧ x.1 ≠ .listing := by
  obtain ⟨before, f, after, s₁, s₂, rfl, hbefore, hturn, hafter⟩ :=
    hfates.turn (hnames ▸ mem_requested.mpr ha)
  refine ⟨f, s₁, s₂, after, by simp, hbefore.noNewDirectories, hturn, hafter, ?_⟩
  have hpairwise := hnames ▸ pairwise_requested paths
  rw [List.pairwise_map, List.pairwise_append, List.pairwise_cons] at hpairwise
  exact hpairwise.2.1.1

/-- What is written without a failure stays: no later file is at the same place. -/
theorem node?_written (hdistinct : paths.Distinct store)
    (hfates : SettlesAll p program paths store fates e.store)
    (hnames : fates.map Prod.fst = requested paths) (ha : paths a ≠ [])
    (hwritten : a.isWritten program = true) :
    ((a, .created) ∈ fates ∧ ∃ at_ content, store.locate (paths a) = .ok at_ ∧
      a.content p program = .ok content ∧ e.store.node? at_ = some (.file content)) ∨
      ∃ f, (a, f) ∈ fates ∧ f.isFailure = true := by
  obtain ⟨f, s₁, s₂, after, hmem, hbefore, hturn, hafter, hothers⟩ := exists_turn hfates hnames ha
  cases hf : f.isFailure with
  | true => exact .inr ⟨f, hmem, hf⟩
  | false =>
    obtain ⟨rfl, at_, content, hlocate, hcontent, hnode⟩ := hturn.content_eq hwritten hf
    have hplace : store.locate (paths a) = .ok at_ := FileStore.locate_of_later hbefore hlocate
    refine .inl ⟨hmem, at_, content, hplace, hcontent, ?_⟩
    rw [hafter.node?_eq fun x hx hlater => ?_, hnode]
    have hsince := hbefore.trans hturn.noNewDirectories
    exact hdistinct a x.1 at_ (hothers x hx).1 hplace (FileStore.locate_of_later hsince hlater)

/-- What is removed without a failure does not come back: only the listing would be written, and it
comes first. -/
theorem has_removed (hfates : SettlesAll p program paths store fates e.store)
    (hnames : fates.map Prod.fst = requested paths) (hok : program.ok = false)
    (hlisting : a ≠ .listing) (ha : paths a ≠ []) :
    e.store.has (paths a) = false ∨ ∃ f, (a, f) ∈ fates ∧ f.isFailure = true := by
  have hremoved : ∀ b : Artifact, b ≠ .listing → b.isWritten program = false := fun b hb => by
    simp [Artifact.isWritten, hb, hok]
  obtain ⟨f, s₁, s₂, after, hmem, -, hturn, hafter, hothers⟩ := exists_turn hfates hnames ha
  cases hf : f.isFailure with
  | true => exact .inr ⟨f, hmem, hf⟩
  | false =>
    left
    have hgone := hturn.has_eq_false (hremoved a hlisting) hf
    have hlater := hafter.within fun x hx => hremoved x.1 (hothers x hx).2
    exact Bool.eq_false_iff.mpr fun hhas => by
      simp [FileStore.has_of_within hlater hhas] at hgone

theorem isWritten_of_mem (hfates : SettlesAll p program paths store fates e.store) :
    (∀ a, (a, .created) ∈ fates → a.isWritten program = true) ∧
      ∀ a, (a, .removed) ∈ fates → a.isWritten program = false := by
  refine ⟨fun a hmem => ?_, fun a hmem => ?_⟩
  · obtain ⟨s₁, s₂, h⟩ := hfates.exists_of_mem hmem
    cases h with
    | created hwritten => exact hwritten
  · obtain ⟨s₁, s₂, h⟩ := hfates.exists_of_mem hmem
    cases h with
    | removed hwritten => exact hwritten

end

/-- **A failing run leaves no stale image.** -/
theorem emit_emitted (p : Provenance) (program : Program) (paths : Paths) (store : FileStore)
    (hdistinct : paths.Distinct store) :
    (program.memory.cells.size ≤ 100000 → ∃ e, emit p program paths store = .ok e) ∧
      ∀ e, emit p program paths store = .ok e → Emitted p program paths store e := by
  refine ⟨fun hsize => exists_foldlM hsize _ _, fun e h => ?_⟩
  obtain ⟨fates, hfates, hnames, hrecord⟩ := foldlM_emitOne h
  have hnamed : ∀ a f, (a, f) ∈ fates → f.isFailure = true → e.Names a (paths a) :=
    fun a f hmem hf => hrecord ▸ Emission.names_recordAll hmem hf
  have hcreated : ∀ path, path ∈ e.created ↔ ∃ a, (a, .created) ∈ fates ∧ paths a = path := by
    intro path
    rw [hrecord]
    simp [Emission.recordAll]
  have hremoved : ∀ path, path ∈ e.removed ↔ ∃ a, (a, .removed) ∈ fates ∧ paths a = path := by
    intro path
    rw [hrecord]
    simp [Emission.recordAll]
  obtain ⟨honlyWritten, honlyRemoved⟩ := isWritten_of_mem hfates
  constructor
  case handled =>
    refine ⟨fates, hfates, hnames, hrecord, ?_⟩
    rw [hrecord]
    exact Emission.error?_recordAll
  case written =>
    intro a ha hwritten
    rcases node?_written hdistinct hfates hnames ha (Artifact.isWritten_iff.mpr hwritten) with
      ⟨hmem, hcontent⟩ | ⟨f, hmem, hf⟩
    · exact .inl ⟨(hcreated _).mpr ⟨a, hmem, rfl⟩, hcontent⟩
    · exact .inr (hnamed a f hmem hf)
  case unchanged =>
    exact fun at_ hat => hfates.node?_eq fun x _ => hat x.1
  case kept =>
    intro hok
    have hwritten : ∀ a : Artifact, a.isWritten program = true :=
      fun a => Artifact.isWritten_iff.mpr (.inr hok)
    refine ⟨?_, fun at_ => hfates.isSome_node? fun x _ => hwritten x.1⟩
    refine List.eq_nil_iff_forall_not_mem.mpr fun path hpath => ?_
    obtain ⟨a, hmem, -⟩ := (hremoved path).mp hpath
    have hfalse := honlyRemoved a hmem
    rw [hwritten a] at hfalse
    cases hfalse
  case only_listing =>
    intro hok
    have hlisting : ∀ a : Artifact, a.isWritten program = true → a = .listing := fun a ha => by
      simpa [hok] using Artifact.isWritten_iff.mp ha
    refine ⟨fun path hpath => ?_, fun at_ hat => hfates.node?_eq_or fun x _ hx => ?_⟩
    · obtain ⟨a, hmem, rfl⟩ := (hcreated path).mp hpath
      rw [hlisting a (honlyWritten a hmem)]
    · rw [hlisting x.1 hx]
      exact hat
  case no_image =>
    intro hok a hlisting ha
    rcases has_removed hfates hnames hok hlisting ha with hgone | ⟨f, hmem, hf⟩
    · exact .inl hgone
    · exact .inr (hnamed a f hmem hf)

/-- An image of an earlier run, in a directory where there is no listing yet. -/
def staleStore : FileStore := { entries := [([ascii "a.cmem"], .file (ascii "old"))] }

/-- A listing and an image are asked for. -/
def stalePaths : Paths
  | .listing => ascii "a.lst"
  | .core => ascii "a.cmem"
  | _ => []

/-- A single source file. -/
def staleProvenance : Provenance := ⟨[ascii "a.sps"], false, ⟨2024, 1, 1, 0, 0⟩⟩

/-- A program with an error. -/
def failingProgram : Program where
  options := {}
  memory := ⟨#[]⟩
  symbols := { divide := true }
  outcomes := []
  trailing := []
  entry := 0
  lines := 1
  pass1 := ⟨1, 0⟩
  pass2 := ⟨0, 0⟩
  layout1 := []
  layout2 := []
  startup := []

theorem distinct_stalePaths : stalePaths.Distinct staleStore := by
  have hlisting : staleStore.locate (ascii "a.lst") = .ok [ascii "a.lst"] := by rfl
  have hcore : staleStore.locate (ascii "a.cmem") = .ok [ascii "a.cmem"] := by rfl
  have hblank : staleStore.locate [] = .error .notFound := rfl
  have hne : ascii "a.lst" ≠ ascii "a.cmem" := by decide
  intro a b at_ hab ha hb
  have hsame := ha.trans hb.symm
  cases a <;> cases b <;> simp [stalePaths, hlisting, hcore, hblank, hne, hne.symm] at hab ha hsame

/-- The listing is written and the old image is gone. -/
theorem emit_emitted_stale : ∃ e, emit staleProvenance failingProgram stalePaths staleStore = .ok e ∧
    Emitted staleProvenance failingProgram stalePaths staleStore e ∧
    staleStore.has (ascii "a.cmem") = true ∧ e.error? = none ∧ e.store.has (ascii "a.lst") = true ∧
    e.store.has (ascii "a.cmem") = false := by
  obtain ⟨hresult, hemitted⟩ :=
    emit_emitted staleProvenance failingProgram stalePaths staleStore distinct_stalePaths
  obtain ⟨e, he⟩ := hresult (by decide)
  have hcomputed : (emit staleProvenance failingProgram stalePaths staleStore).toOption.map
      (fun e => (e.error?, e.store.has (ascii "a.lst"), e.store.has (ascii "a.cmem"))) =
        some (none, true, false) := by decide +kernel
  rw [he, Except.toOption, Option.map_some, Option.some.injEq, Prod.mk.injEq, Prod.mk.injEq]
    at hcomputed
  exact ⟨e, he, hemitted e he, by decide +kernel, hcomputed⟩

end SpsAssembler
