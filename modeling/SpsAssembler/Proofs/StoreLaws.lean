import SpsAssembler.Files.Store

/-!
# Laws of the file store

What creating, writing and removing a file do to the rest of a store. Directories are never created,
so a path that leads somewhere in a later store led to the same place before.

* `node?_set`, `node?_erase`: what is at a place after a change;
* `NoNewDirectories`, **`locate_of_later`**: paths in a later store;
* `Within`, `has_of_within`: stores that have lost files;
* `locate_of_holder`: a path whose directory cannot be reached;
* **`create_write_spec`**, **`remove_spec`**, `has_of_notFound`: where a file is written or removed.
-/

namespace SpsAssembler.FileStore

variable {s s' s'' : FileStore} {at_ q : Place} {node : Node} {path : Text}

/-! ## Places -/

theorem node?_of_isBase (h : Place.isBase at_ = true) : s.node? at_ = some .directory := by
  rw [node?, if_pos h]

theorem isBase_of_node? (h : s.node? at_ ≠ some .directory) : Place.isBase at_ = false :=
  Bool.eq_false_iff.mpr fun hbase => h (node?_of_isBase hbase)

theorem node?_of_not_isBase (h : Place.isBase at_ = false) :
    s.node? at_ = (s.entries.find? fun e => e.1 == at_).map Prod.snd := by
  rw [node?, h, if_neg Bool.false_ne_true]

theorem find?_replace {entries : List (Place × Node)}
    (h : ((entries.find? fun e => e.1 == at_).map Prod.snd).isSome = true) :
    ((entries.map fun e => if e.1 == at_ then (at_, node) else e).find? fun e => e.1 == q).map
      Prod.snd = if q = at_ then some node else (entries.find? fun e => e.1 == q).map Prod.snd := by
  -- an entry keeps its place when it is replaced, so the same one is found
  have hplace : ((fun e : Place × Node => e.1 == q) ∘ fun e => if e.1 == at_ then (at_, node) else e) =
      fun e => e.1 == q := by
    funext e
    rw [Function.comp_apply]
    split <;> rename_i he
    · rw [eq_of_beq he]
    · rfl
  rw [List.find?_map, hplace]
  by_cases hq : q = at_
  · subst hq
    rw [if_pos rfl]
    obtain ⟨e, he⟩ := Option.isSome_iff_exists.mp (Option.isSome_map ▸ h)
    have hfound := List.find?_some he
    simp_all
  · rw [if_neg hq]
    cases he : entries.find? fun e => e.1 == q with
    | none => rfl
    | some e =>
      have hfound : (e.1 == q) = true := List.find?_some (p := fun e : Place × Node => e.1 == q) he
      simp [eq_of_beq hfound, hq]

theorem node?_set (hbase : Place.isBase at_ = false) :
    (s.set at_ node).node? q = if q = at_ then some node else s.node? q := by
  cases hq : Place.isBase q with
  | true =>
    have hne : q ≠ at_ := fun heq => by simp [heq, hbase] at hq
    rw [node?_of_isBase hq, node?_of_isBase hq, if_neg hne]
  | false =>
    rw [node?_of_not_isBase hq, node?_of_not_isBase hq, set, node?_of_not_isBase hbase]
    split <;> rename_i hsome
    · exact find?_replace hsome
    · -- nothing was there, so the new entry at the end is found
      rw [Option.isSome_map, Bool.not_eq_true, Option.isSome_eq_false_iff, Option.isNone_iff_eq_none]
        at hsome
      rw [List.find?_append]
      by_cases heq : q = at_
      · simp [heq, hsome]
      · simp [heq, Ne.symm heq]

theorem node?_erase (hbase : Place.isBase at_ = false) :
    (s.erase at_).node? q = if q = at_ then none else s.node? q := by
  cases hq : Place.isBase q with
  | true =>
    have hne : q ≠ at_ := fun heq => by simp [heq, hbase] at hq
    rw [node?_of_isBase hq, node?_of_isBase hq, if_neg hne]
  | false =>
    rw [node?_of_not_isBase hq, node?_of_not_isBase hq, erase, List.find?_filter]
    by_cases heq : q = at_
    · simp [heq]
    · rw [if_neg heq]
      congr 2
      funext e
      by_cases he : e.1 = q <;> simp [he, heq]

/-! ## Paths in a later store -/

/-- No directory has come to a store since an earlier one. -/
def NoNewDirectories (s s' : FileStore) : Prop :=
  ∀ q, s'.node? q = some .directory → s.node? q = some .directory

/-- A store has nothing but what an earlier one had. -/
def Within (s' s : FileStore) : Prop := ∀ q node, s'.node? q = some node → s.node? q = some node

namespace NoNewDirectories

theorem refl (s : FileStore) : NoNewDirectories s s := fun _ => id

theorem trans (h : NoNewDirectories s s') (h' : NoNewDirectories s' s'') : NoNewDirectories s s'' :=
  fun q hq => h q (h' q hq)

end NoNewDirectories

namespace Within

theorem refl (s : FileStore) : Within s s := fun _ _ => id

theorem trans (h : Within s'' s') (h' : Within s' s) : Within s'' s :=
  fun q node hq => h' q node (h q node hq)

theorem noNewDirectories (h : Within s' s) : NoNewDirectories s s' := fun q => h q .directory

end Within

theorem enter_of_later {name : Text} (h : NoNewDirectories s s') (hq : s'.enter at_ name = .ok q) :
    s.enter at_ name = .ok q := by
  rw [enter] at hq ⊢
  split at hq <;> rename_i hnode
  · cases hq
  · cases hq
  · rw [h at_ hnode]
    exact hq

theorem foldlM_enter_of_later {names : List Text} (h : NoNewDirectories s s') {at_ : Place}
    (hq : names.foldlM s'.enter at_ = .ok q) : names.foldlM s.enter at_ = .ok q := by
  induction names generalizing at_ with
  | nil => exact hq
  | cons name names ih =>
    rw [List.foldlM_cons] at hq ⊢
    cases hname : s'.enter at_ name with
    | error e =>
      rw [hname] at hq
      cases hq
    | ok next =>
      rw [hname] at hq
      rw [enter_of_later h hname]
      exact ih hq

theorem follow_of_fold {names names' : List Text} {r : Except SystemError Place}
    (h : s'.follow path names' = r)
    (hfold : names'.foldlM s'.enter [] = r → names.foldlM s.enter [] = r) :
    s.follow path names = r := by
  rw [follow] at h ⊢
  split <;> rename_i hnul
  · rwa [if_pos hnul] at h
  rw [if_neg hnul] at h
  split <;> rename_i hempty
  · rwa [if_pos hempty] at h
  rw [if_neg hempty] at h
  split <;> rename_i hlong
  · rwa [if_pos hlong] at h
  rw [if_neg hlong] at h
  exact hfold h

/-- **A path leads where it led before**, if it leads anywhere in the later store. -/
theorem locate_of_later (h : NoNewDirectories s s') (hq : s'.locate path = .ok q) :
    s.locate path = .ok q :=
  follow_of_fold hq (foldlM_enter_of_later h)

theorem has_iff : s.has path = true ↔ ∃ q node, s.locate path = .ok q ∧ s.node? q = some node := by
  rw [has]
  cases s.locate path with
  | error e => simp
  | ok q => simp [Option.isSome_iff_exists]

theorem has_of_within (h : Within s' s) (hhas : s'.has path = true) : s.has path = true := by
  obtain ⟨q, node, hq, hnode⟩ := has_iff.mp hhas
  exact has_iff.mpr ⟨q, node, locate_of_later h.noNewDirectories hq, h q node hnode⟩

/-! ## Writing and removing -/

theorem names_eq (path : Text) :
    (∃ blanks, Place.names path =
      (Place.splitLast path).1 ++ (Place.splitLast path).2 :: blanks) ∨
      (Place.splitLast path).1 = [] := by
  have hsplit : Place.names path = ((Place.names path).reverse.dropWhile List.isEmpty).reverse ++
      ((Place.names path).reverse.takeWhile List.isEmpty).reverse := by
    rw [← List.reverse_append, List.takeWhile_append_dropWhile, List.reverse_reverse]
  rw [Place.splitLast]
  generalize ((Place.names path).reverse.dropWhile List.isEmpty).reverse = all at hsplit ⊢
  rcases List.eq_nil_or_concat all with rfl | ⟨front, last, rfl⟩
  · exact .inr rfl
  · left
    refine ⟨((Place.names path).reverse.takeWhile List.isEmpty).reverse, ?_⟩
    simpa using hsplit

theorem enter_blank {e : SystemError} (h : s.enter at_ [] = .error e) (name : Text) :
    s.enter at_ name = .error e := by
  rw [enter] at h ⊢
  split at h <;> rename_i hnode
  · exact h
  · exact h
  · cases h

/-- A path leads nowhere if the directory that holds its last name cannot be reached. -/
theorem locate_of_holder {e : SystemError} (h : s.holder path = .error e) :
    s.locate path = .error e := by
  refine follow_of_fold h fun hfold => ?_
  rcases names_eq path with ⟨blanks, hnames⟩ | hnil
  · rw [hnames, List.foldlM_append]
    rw [List.foldlM_append] at hfold
    cases hway : (Place.splitLast path).1.foldlM s.enter [] with
    | error e' =>
      rw [hway] at hfold
      exact hfold
    | ok way =>
      rw [hway] at hfold
      have hblank : s.enter way [] = .error e := by
        change ([[]] : List Text).foldlM s.enter way = _ at hfold
        simpa using hfold
      change (s.enter way _ >>= _) = _
      rw [enter_blank hblank]
      rfl
  · rw [hnil] at hfold
    cases hfold

theorem locate_of_writable (h : s.writable path = .ok at_) :
    s.locate path = .ok at_ ∧ s.node? at_ ≠ some .directory := by
  rw [writable] at h
  split at h
  · cases h
  dsimp only at h
  split at h
  · cases h
  split at h
  · cases h
  rename_i q hq
  split at h
  · cases h
  all_goals
    rename_i hnode
    split at h
    · cases h
    · cases h
      exact ⟨hq, by simp [hnode]⟩

/-- **A file is created where its path leads**, and nothing else changes. -/
theorem create_spec (h : s.create path = .ok (s', at_)) :
    s.locate path = .ok at_ ∧ s.node? at_ ≠ some .directory ∧
      ∀ q, s'.node? q = if q = at_ then some (.file []) else s.node? q := by
  rw [create] at h
  cases hw : s.writable path with
  | error e =>
    rw [hw] at h
    cases h
  | ok place =>
    rw [hw] at h
    obtain ⟨rfl, rfl⟩ : s.set place (.file []) = s' ∧ place = at_ := by
      simpa [Except.map] using h
    obtain ⟨hlocate, hnode⟩ := locate_of_writable hw
    exact ⟨hlocate, hnode, fun q => node?_set (isBase_of_node? hnode)⟩

/-- A new file has the beginning of its content, as far as it was written. -/
theorem create_write_spec {content : Text} {n : Nat} (hcreate : s.create path = .ok (s', at_))
    (hwrite : s'.write at_ content = (s'', n)) :
    s.locate path = .ok at_ ∧ s.node? at_ ≠ some .directory ∧
      ∀ q, s''.node? q = if q = at_ then some (.file (content.take n)) else s.node? q := by
  obtain ⟨hlocate, hnode, hs'⟩ := create_spec hcreate
  have hempty : s'.contentAt at_ = [] := by rw [contentAt, hs', if_pos rfl]
  rw [write, hempty, Prod.mk.injEq] at hwrite
  obtain ⟨rfl, rfl⟩ := hwrite
  refine ⟨hlocate, hnode, fun q => ?_⟩
  rw [node?_set (isBase_of_node? hnode), hs', List.nil_append]
  split <;> rfl

/-- **What is removed is where its path leads**, and nothing else changes. -/
theorem remove_spec (h : s.remove path = .ok s') :
    ∃ at_, s.locate path = .ok at_ ∧ ∀ q, s'.node? q = if q = at_ then none else s.node? q := by
  simp only [remove] at h
  split at h
  · cases h
  iterate 3
    split at h
    · cases h
  split at h
  · cases h
  rename_i at_ hat
  split at h
  · cases h
  rename_i node hnode
  split at h
  · cases h
  split at h <;> rename_i hkept
  · cases h
  cases h
  refine ⟨at_, hat, fun q => node?_erase (Bool.eq_false_iff.mpr fun hbase => hkept ?_)⟩
  have hdirectory : node = .directory := by simpa [node?_of_isBase hbase] using hnode.symm
  simp [hdirectory, hbase]

/-- **What cannot be found to be removed is not there.** -/
theorem has_of_notFound {e : FileError} (h : s.remove path = .error e) (hcause : e.cause = .notFound) :
    s.has path = false := by
  simp only [remove] at h
  rw [has]
  split at h <;> rename_i hholder
  · rw [locate_of_holder hholder]
  -- the path is there in words, so only a place with nothing at it is left
  iterate 3
    split at h
    · cases h
      cases hcause
  split at h <;> rename_i hlocate
  · rw [hlocate]
  rw [hlocate]
  split at h <;> rename_i hnode
  · simp [hnode]
  split at h
  · cases h
    cases hcause
  split at h
  · cases h
    cases hcause
  · cases h

end SpsAssembler.FileStore
