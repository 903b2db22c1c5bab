import Mathlib.Algebra.Group.Int.Defs
import Mathlib.Algebra.Group.Nat.Defs
import Mathlib.Data.List.Range
import SpsAssembler.Source.Stream

/-!
# A stream replays its files

A reader is asked for one line after the other. It answers with the lines of each file in order, then
with the failure of that file if it had one, and with nothing once the last file is done; on the way
it opens every file once. Where the reader stood before the pass does not matter.

* `FileStore.scan`, `FileStore.Openable`: what a file is read as;
* `Reply`, `Reader.call`, `Stream.calls`: asking for the next line, once and again and again;
* `Reader.answers`, `Reader.awaited`: what is left to answer, and the files left to open;
* `Reader.call_eq`, **`Stream.calls_eq`**: one call, and a row of calls; `Reader.drain_eq`: a pass;
* `and_lineMask`, `toInt_lineKey`, **`ascending_lines`**: the keys of lines;
* **`stream_replays`**: a stream over files that can be opened.
-/

namespace SpsAssembler

variable {α β : Type}

/-! ## Tab stops -/

namespace TabStops

/-- Stops that can be given: columns of a line. -/
def InRange (stops : TabStops) : Prop := ∀ n ∈ stops.toList, 1 ≤ n ∧ n ≤ maxColumn

instance (stops : TabStops) : Decidable stops.InRange :=
  decidable_of_iff (stops.toList.all fun n => 1 ≤ n && n ≤ maxColumn)
    (by simp [InRange, List.all_eq_true])

theorem toNatClampNeg_le {n : Word} (h : n ≤ maxColumn) : n.toNatClampNeg ≤ 80 := by
  have hle := Int64.le_iff_toInt_le.mp h
  have hmax : maxColumn.toInt = 80 := rfl
  rw [Int64.toNatClampNeg]
  omega

theorem spaces_le {stops : TabStops} (h : stops.InRange) (pos : Nat) : stops.spaces pos ≤ 80 := by
  cases stops with
  | every n =>
    have hn := toNatClampNeg_le (h n (by simp [toList])).2
    simp only [spaces]
    omega
  | columns stops =>
    simp only [spaces]
    split
    · rename_i stop hstop
      have hn := toNatClampNeg_le (h stop (List.mem_of_find?_eq_some hstop)).2
      omega
    · omega

theorem widest_le {stops : TabStops} (h : stops.InRange) (line : Text) : stops.widest line ≤ 80 := by
  have hfold : ∀ reached : Nat × Nat, reached.2 ≤ 80 →
      (line.foldl stops.widenByte reached).2 ≤ 80 := by
    induction line with
    | nil => exact fun _ hle => hle
    | cons b line ih =>
      intro reached hle
      refine ih _ ?_
      unfold widenByte
      split
      · exact Nat.max_le.mpr ⟨hle, spaces_le h _⟩
      · exact hle
  exact hfold (0, 0) (by decide)

theorem expand_ok {stops : TabStops} (h : stops.InRange) (line : Text) :
    ∃ text, stops.expand line = .ok text := by
  have hpositive : stops ≠ every 0 ∧ stops.isNegative = false := by
    cases stops with
    | every n =>
      have hn := Int64.le_iff_toInt_le.mp (h n (by simp [toList])).1
      have hone : (1 : Word).toInt = 1 := rfl
      have hzero : (0 : Word).toInt = 0 := rfl
      refine ⟨fun heq => ?_, ?_⟩
      · rw [every.inj heq] at hn
        omega
      · simp only [isNegative, decide_eq_false_iff_not, Int64.lt_iff_toInt_lt]
        omega
    | columns stops => exact ⟨by simp, rfl⟩
  have hwidest : ¬ maxSize < stops.widest line := by
    have := widest_le h line
    rw [maxSize]
    omega
  unfold expand
  rw [if_neg hpositive.1, hpositive.2, if_neg hwidest]
  split
  · exact ⟨_, rfl⟩
  · exact ⟨_, rfl⟩

end TabStops

theorem tokenize_ok {format : SourceFormat} {tabs : TabStops}
    (h : format = .fixed ∨ tabs.InRange) (raw : Text) : ∃ line, tokenize format tabs raw = .ok line := by
  cases format with
  | fixed => exact ⟨_, rfl⟩
  | freeform =>
    obtain ⟨text, htext⟩ := TabStops.expand_ok (h.resolve_left (by simp)) raw.toUpper
    unfold tokenize
    rw [htext]
    exact ⟨_, rfl⟩

/-! ## Files -/

namespace FileStore

/-- A name that leads to something. -/
def Openable (store : FileStore) (name : Text) : Prop := ∃ node, store.open? name = .ok node

/-- What is read from a file: its lines, and why they end too soon. A directory has no lines. -/
def scan (store : FileStore) (name : Text) : List Text × Option Text :=
  match store.open? name with
  | .error _ => ([], none)
  | .ok .directory => ([], some (unreadable name).message)
  | .ok (.file content) => splitLines content

/-- A file of which nothing has been read. -/
def fresh (store : FileStore) (number : Nat) (name : Text) : OpenFile where
  number := number
  name := name
  lines := (store.scan name).1
  failure := (store.scan name).2

theorem openFile_eq {store : FileStore} {name : Text} (h : store.Openable name) (number : Nat) :
    store.openFile number name = .ok (store.fresh number name) := by
  obtain ⟨node, hnode⟩ := h
  unfold openFile fresh scan
  cases node with
  | directory => simp [hnode]
  | file content => simp [hnode]

end FileStore

/-! ## Calls -/

/-- Whether an item answers a call for the next line. -/
def Item.isAnswer : Item α → Bool
  | opened _ _ => false
  | line _ => true
  | unreadable _ _ => true

/-- The same item with another line. -/
def Item.map (f : α → β) : Item α → Item β
  | opened file name => .opened file name
  | line a => .line (f a)
  | unreadable name reason => .unreadable name reason

theorem Item.traverse_of_ok {f : α → Except Fault β} {g : α → β} (h : ∀ x, f x = .ok (g x))
    (item : Item α) : item.traverse f = .ok (item.map g) := by
  cases item with
  | line a => simp [traverse, map, h, Except.map]
  | opened file name => rfl
  | unreadable name reason => rfl

/-- What a call for the next line does: it opens files on the way, and it answers with a line, with
the failure of a file, or with nothing at the end. -/
structure Reply (α : Type) where
  opened : List (Nat × Text) := []
  answer : Option (Item α) := none
  deriving DecidableEq, Repr

namespace Reader

/-- A call for the next line: steps are taken until one of them answers. -/
def call (store : FileStore) (r : Reader) : Except Text (Reply RawLine × Reader) :=
  match _step : r.next store with
  | .error reason => .error reason
  | .ok none => .ok ({}, r)
  | .ok (some (r', items)) =>
    match items.find? Item.isAnswer with
    | some answer => .ok (⟨items.filterMap Item.file?, some answer⟩, r')
    | none => (call store r').map fun (reply, r'') =>
        ({ reply with opened := items.filterMap Item.file? ++ reply.opened }, r'')
termination_by r.work store
decreasing_by exact work_lt_of_next _step

end Reader

/-- Why a stream gives no line: a file cannot be opened, or a line cannot be cut. -/
inductive StreamFailure where
  | unopened (reason : Text)
  | fault (fault : Fault)
  deriving DecidableEq, Repr

namespace Stream

/-- A call for the next line, cut into its fields. -/
def call (s : Stream) (store : FileStore) (r : Reader) :
    Except StreamFailure (Reply Line × Reader) :=
  match r.call store with
  | .error reason => .error (.unopened reason)
  | .ok (⟨opened, none⟩, r') => .ok (⟨opened, none⟩, r')
  | .ok (⟨opened, some item⟩, r') =>
    match item.traverse s.lineOf with
    | .error f => .error (.fault f)
    | .ok item => .ok (⟨opened, some item⟩, r')

/-- A number of calls in a row. -/
def calls (s : Stream) (store : FileStore) :
    Nat → Reader → Except StreamFailure (List (Reply Line) × Reader)
  | 0, r => .ok ([], r)
  | n + 1, r =>
    match s.call store r with
    | .error e => .error e
    | .ok (reply, r) => (s.calls store n r).map fun (replies, r) => (reply :: replies, r)

end Stream

/-! ## What is left to answer -/

/-- The lines of a file that are left, and its failure. -/
def OpenFile.answers (f : OpenFile) : List (Item RawLine) :=
  (f.lines.zipIdx (f.count + 1)).map (fun (text, k) => .line ⟨f.number, k, text⟩) ++
    Reader.farewell f

/-- The answers of whole files, the first of which has the given number. -/
def FileStore.answers (store : FileStore) (names : List Text) (number : Nat) :
    List (Item RawLine) :=
  (names.zipIdx number).flatMap fun (name, i) => (store.fresh i name).answers

/-- Names with their numbers. -/
def numbered (names : List Text) (number : Nat) : List (Nat × Text) :=
  (names.zipIdx number).map Prod.swap

namespace Reader

variable {store : FileStore} {r : Reader}

/-- The answers that are left. -/
def answers (store : FileStore) (r : Reader) : List (Item RawLine) :=
  match r.current with
  | none => []
  | some f => f.answers ++ store.answers r.rest (f.number + 1)

/-- The files that are left to open. -/
def awaited (r : Reader) : List (Nat × Text) :=
  match r.current with
  | none => []
  | some f => numbered r.rest (f.number + 1)

/-- The steps of a reader whose files can be opened: at the end there is none; a line that is left is
read; and behind the last line of a file the next one is opened, if there is one. -/
theorem next_cases (h : ∀ name ∈ r.rest, store.Openable name) :
    (r.current = none ∧ r.next store = .ok none) ∨
    ∃ f, r.current = some f ∧
      ((∃ text lines, f.lines = text :: lines ∧ r.next store = .ok (some
          (⟨some { f with count := f.count + 1, lines }, r.rest⟩,
            [.line ⟨f.number, f.count + 1, text⟩]))) ∨
        (f.lines = [] ∧ r.rest = [] ∧ r.next store = .ok (some (⟨none, []⟩, farewell f))) ∨
        ∃ name rest, f.lines = [] ∧ r.rest = name :: rest ∧ r.next store = .ok (some
          (⟨some (store.fresh (f.number + 1) name), rest⟩,
            .opened (f.number + 1) name :: farewell f))) := by
  obtain ⟨current, rest⟩ := r
  cases current with
  | none => exact .inl ⟨rfl, rfl⟩
  | some f =>
    refine .inr ⟨f, rfl, ?_⟩
    cases hlines : f.lines with
    | cons text lines => exact .inl ⟨text, lines, rfl, by simp [next, hlines]⟩
    | nil =>
      cases rest with
      | nil => exact .inr (.inl ⟨rfl, rfl, by simp [next, hlines, advance]⟩)
      | cons name rest =>
        refine .inr (.inr ⟨name, rest, rfl, rfl, ?_⟩)
        have hopen := store.openFile_eq (h name List.mem_cons_self) (f.number + 1)
        simp [next, hlines, advance, hopen]

theorem answers_line {f : OpenFile} {text : Text} {lines rest : List Text}
    (h : f.lines = text :: lines) : answers store ⟨some f, rest⟩ =
      .line ⟨f.number, f.count + 1, text⟩ ::
        answers store ⟨some { f with count := f.count + 1, lines }, rest⟩ := by
  simp [answers, OpenFile.answers, h, farewell]

theorem answers_farewell {f : OpenFile} {rest : List Text} (h : f.lines = []) :
    answers store ⟨some f, rest⟩ = farewell f ++ store.answers rest (f.number + 1) := by
  simp [answers, OpenFile.answers, h]

theorem fresh_answers (store : FileStore) (number : Nat) (name : Text) (rest : List Text) :
    answers store ⟨some (store.fresh number name), rest⟩ = store.answers (name :: rest) number := by
  simp [answers, FileStore.answers, FileStore.fresh]

theorem fresh_awaited (store : FileStore) (number : Nat) (name : Text) (rest : List Text) :
    (number, name) :: awaited ⟨some (store.fresh number name), rest⟩ =
      numbered (name :: rest) number := by
  simp [awaited, numbered, FileStore.fresh]

/-- What a step or a call does to what is left: it gives the first answers and opens the first
files, and all files behind can still be opened. -/
structure Leaves (store : FileStore) (r : Reader) (opened : List (Nat × Text))
    (given : List (Item RawLine)) (r' : Reader) : Prop where
  answers : r.answers store = given ++ r'.answers store
  awaited : r.awaited = opened ++ r'.awaited
  openable : ∀ name ∈ r'.rest, store.Openable name

theorem Leaves.trans {r' r'' : Reader} {opened opened' : List (Nat × Text)}
    {given given' : List (Item RawLine)} (h : Leaves store r opened given r')
    (g : Leaves store r' opened' given' r'') :
    Leaves store r (opened ++ opened') (given ++ given') r'' where
  answers := by rw [h.answers, g.answers, List.append_assoc]
  awaited := by rw [h.awaited, g.awaited, List.append_assoc]
  openable := g.openable

/-- **A step** of a reader that is not at its end gives what it opens and answers. -/
theorem leaves_of_next (h : ∀ name ∈ r.rest, store.Openable name) :
    (r.current = none ∧ r.next store = .ok none) ∨
    ∃ r' items, r.next store = .ok (some (r', items)) ∧
      (items.filter Item.isAnswer).length ≤ 1 ∧
      Leaves store r (items.filterMap Item.file?) (items.filter Item.isAnswer) r' := by
  have hfarewell : ∀ f : OpenFile, (farewell f).filter Item.isAnswer = farewell f ∧
      (farewell f).filterMap Item.file? = [] ∧ (farewell f).length ≤ 1 := by
    intro f
    unfold farewell
    cases f.failure <;> simp [Item.isAnswer, Item.file?]
  rcases next_cases h with hend | ⟨f, hf, ⟨text, lines, hlines, hnext⟩ | ⟨hlines, hrest, hnext⟩ |
      ⟨name, rest, hlines, hrest, hnext⟩⟩
  · exact .inl hend
  · refine .inr ⟨_, _, hnext, Nat.le_refl 1, ?_, ?_, h⟩
    · obtain ⟨current, rest⟩ := r
      cases hf
      exact answers_line hlines
    · simp [awaited, hf, Item.file?]
  · obtain ⟨hfilter, hfiles, hlength⟩ := hfarewell f
    refine .inr ⟨_, _, hnext, by rw [hfilter]; exact hlength, ?_, ?_, by simp⟩
    · obtain ⟨current, rest⟩ := r
      cases hf
      cases hrest
      rw [answers_farewell hlines, hfilter]
      simp [answers, FileStore.answers]
    · simp [awaited, hf, hfiles, hrest, numbered]
  · obtain ⟨hfilter, hfiles, hlength⟩ := hfarewell f
    refine .inr ⟨_, _, hnext, ?_, ?_, ?_, ?_⟩
    · simpa [Item.isAnswer, hfilter] using hlength
    · obtain ⟨current, rest'⟩ := r
      cases hf
      cases hrest
      rw [answers_farewell hlines, fresh_answers]
      simp [Item.isAnswer, hfilter]
    · rw [awaited, hf]
      dsimp only
      rw [hrest, ← fresh_awaited store]
      simp [Item.file?, hfiles]
    · intro other hmem
      exact h other (by rw [hrest]; exact List.mem_cons_of_mem _ hmem)

theorem call_of_done (h : r.next store = .ok none) : r.call store = .ok ({}, r) := by
  rw [call]
  split
  · rename_i hstep; rw [h] at hstep; cases hstep
  · rfl
  · rename_i hstep; rw [h] at hstep; cases hstep

theorem call_of_step {r' : Reader} {items : List (Item RawLine)}
    (h : r.next store = .ok (some (r', items))) :
    r.call store = match items.find? Item.isAnswer with
      | some answer => .ok (⟨items.filterMap Item.file?, some answer⟩, r')
      | none => (r'.call store).map fun (reply, r'') =>
          ({ reply with opened := items.filterMap Item.file? ++ reply.opened }, r'') := by
  rw [call]
  split
  · rename_i hstep; rw [h] at hstep; cases hstep
  · rename_i hstep; rw [h] at hstep; cases hstep
  · rename_i hstep; rw [h] at hstep; cases hstep; rfl

theorem filter_isAnswer {items : List (Item RawLine)} {answer : Item RawLine}
    (hone : (items.filter Item.isAnswer).length ≤ 1) (h : items.find? Item.isAnswer = some answer) :
    items.filter Item.isAnswer = [answer] := by
  rw [← List.head?_filter] at h
  match hlist : items.filter Item.isAnswer with
  | [] => rw [hlist] at h; cases h
  | [first] => rw [hlist] at h; cases h; rfl
  | first :: second :: rest => rw [hlist] at hone; simp at hone

/-- **A call** answers with the first answer that is left, or with nothing if none is left; then
every file has been opened. -/
theorem call_eq (h : ∀ name ∈ r.rest, store.Openable name) :
    ∃ opened r', r.call store = .ok (⟨opened, (r.answers store).head?⟩, r') ∧
      Leaves store r opened ((r.answers store).take 1) r' ∧
      (r.answers store = [] → r'.awaited = []) := by
  induction hwork : r.work store using Nat.strong_induction_on generalizing r with
  | h n ih =>
    subst hwork
    rcases leaves_of_next h with ⟨hend, hnext⟩ | ⟨r', items, hnext, hone, hleaves⟩
    · have hnone : r.answers store = [] := by rw [answers, hend]
      refine ⟨[], r, ?_, ⟨by simp [hnone], by simp, h⟩, fun _ => by rw [awaited, hend]⟩
      rw [call_of_done hnext, hnone]
      rfl
    · rw [call_of_step hnext]
      cases hfind : items.find? Item.isAnswer with
      | some answer =>
        rw [filter_isAnswer hone hfind] at hleaves
        have hanswers := hleaves.answers
        refine ⟨_, r', by rw [hanswers]; rfl, by rw [hanswers]; exact hleaves, fun hnone => ?_⟩
        rw [hnone] at hanswers
        cases hanswers
      | none =>
        have hfilter : items.filter Item.isAnswer = [] := by
          rw [List.filter_eq_nil_iff]
          exact List.find?_eq_none.mp hfind
        rw [hfilter] at hleaves
        obtain ⟨opened, r'', hrest, hthen, hlast⟩ :=
          ih _ (work_lt_of_next hnext) hleaves.openable rfl
        have hanswers : r.answers store = r'.answers store := hleaves.answers
        refine ⟨_, r'', by simp only [hrest, Except.map, hanswers]; rfl, ?_, ?_⟩
        · rw [hanswers]
          exact hleaves.trans hthen
        · rw [hanswers]
          exact hlast

/-- **A pass** opens all that is left to open and gives all that is left to answer. -/
theorem drain_eq (h : ∀ name ∈ r.rest, store.Openable name) :
    ∃ items, r.drain store = { items } ∧ items.filter Item.isAnswer = r.answers store ∧
      items.filterMap Item.file? = r.awaited := by
  induction hwork : r.work store using Nat.strong_induction_on generalizing r with
  | h n ih =>
    subst hwork
    rcases leaves_of_next h with ⟨hend, hnext⟩ | ⟨r', items, hnext, -, hleaves⟩
    · refine ⟨[], ?_, by simp [answers, hend], by simp [awaited, hend]⟩
      rw [drain]
      split
      · rename_i hstep; rw [hnext] at hstep; cases hstep
      · rfl
      · rename_i hstep; rw [hnext] at hstep; cases hstep
    · obtain ⟨later, hlater, hanswers, hfiles⟩ :=
        ih _ (work_lt_of_next hnext) hleaves.openable rfl
      refine ⟨items ++ later, ?_, ?_, ?_⟩
      · rw [drain]
        split
        · rename_i hstep; rw [hnext] at hstep; cases hstep
        · rename_i hstep; rw [hnext] at hstep; cases hstep
        · rename_i hstep; rw [hnext] at hstep; cases hstep; rw [hlater]
      · rw [List.filter_append, hanswers, hleaves.answers]
      · rw [List.filterMap_append, hfiles, hleaves.awaited]

end Reader

namespace Stream

/-- A line cut from a text, as a line of the stream. -/
def place (s : Stream) (line : Line) (file fileLine : Nat) : Line :=
  { line with
    file := Int64.ofNat file
    fileLine := Int64.ofNat fileLine
    number := lineKey (Int64.ofNat file) (Int64.ofNat fileLine) s.multi }

/-- The line of a stream that a line of a file becomes. -/
def placed (s : Stream) (cut : Text → Line) (raw : RawLine) : Line :=
  s.place (cut raw.text) raw.file raw.fileLine

/-- All that a pass answers: for each file in order its lines, and then its failure. -/
def answers (s : Stream) (store : FileStore) (cut : Text → Line) : List (Item Line) :=
  (s.files.zipIdx 1).flatMap fun (name, i) =>
    ((store.scan name).1.zipIdx 1).map (fun (text, k) => .line (s.place (cut text) i k)) ++
      (store.scan name).2.toList.map (.unreadable name)

variable {s : Stream} {store : FileStore} {cut : Text → Line}

theorem lineOf_eq (hcut : ∀ text, tokenize s.format s.tabs text = .ok (cut text)) (raw : RawLine) :
    s.lineOf raw = .ok (s.placed cut raw) := by
  rw [lineOf, hcut]
  rfl

theorem answers_eq :
    s.answers store cut = (store.answers s.files 1).map (Item.map (s.placed cut)) := by
  unfold answers FileStore.answers
  rw [List.map_flatMap]
  congr 1
  funext ⟨name, i⟩
  simp only [OpenFile.answers, FileStore.fresh, Reader.farewell, List.map_append, List.map_map]
  rfl

theorem call_eq {r : Reader} (hcut : ∀ text, tokenize s.format s.tabs text = .ok (cut text))
    {opened : List (Nat × Text)} {answer : Option (Item RawLine)} {r' : Reader}
    (h : r.call store = .ok (⟨opened, answer⟩, r')) :
    s.call store r = .ok (⟨opened, answer.map (Item.map (s.placed cut))⟩, r') := by
  unfold call
  rw [h]
  cases answer with
  | none => rfl
  | some item => simp only [Item.traverse_of_ok (lineOf_eq hcut), Option.map_some]

/-- **A row of calls** answers with what is left, one answer after the other, and then with nothing. -/
theorem calls_eq {r : Reader} (hcut : ∀ text, tokenize s.format s.tabs text = .ok (cut text))
    (h : ∀ name ∈ r.rest, store.Openable name) (n : Nat) :
    ∃ replies r', s.calls store n r = .ok (replies, r') ∧
      replies.map Reply.answer =
        (List.range n).map (fun i => ((r.answers store).map (Item.map (s.placed cut)))[i]?) ∧
      r.awaited = replies.flatMap Reply.opened ++ r'.awaited ∧
      ((r.answers store).length < n → r'.awaited = []) := by
  induction n generalizing r with
  | zero => exact ⟨[], r, rfl, rfl, rfl, fun hlt => absurd hlt (by omega)⟩
  | succ n ih =>
    obtain ⟨opened, r', hcall, hleaves, hlast⟩ := Reader.call_eq h
    obtain ⟨replies, r'', hcalls, hanswers, hawaited, hdone⟩ := ih hleaves.openable
    have htail : r'.answers store = (r.answers store).tail := by
      have hsplit := hleaves.answers
      cases hr : r.answers store with
      | nil => rw [hr] at hsplit; simpa using hsplit.symm
      | cons first rest => rw [hr] at hsplit; simpa using hsplit.symm
    refine ⟨⟨opened, (r.answers store).head?.map (Item.map (s.placed cut))⟩ :: replies, r'', ?_, ?_, ?_,
      fun hlt => ?_⟩
    · rw [calls, call_eq hcut hcall]
      dsimp only
      rw [hcalls]
      rfl
    · rw [List.map_cons, hanswers, htail, List.range_succ_eq_map, List.map_cons, List.map_map]
      congr 1
      · rw [List.head?_eq_getElem?, List.getElem?_map]
      · refine List.map_congr_left fun i _ => ?_
        rw [List.getElem?_map, List.getElem?_tail]
        simp
    · rw [hleaves.awaited, hawaited, List.flatMap_cons, List.append_assoc]
    · cases hr : r.answers store with
      | nil =>
        have hnone := hlast hr
        rw [hawaited] at hnone
        exact (List.append_eq_nil_iff.mp hnone).2
      | cons first rest =>
        refine hdone ?_
        rw [htail, hr, List.tail_cons]
        rw [hr, List.length_cons] at hlt
        omega

end Stream

/-! ## Keys of lines -/

theorem and_lineMask {n : Nat} (hn : n < 2 ^ 63) :
    Int64.ofNat n &&& lineMask = Int64.ofNat (n % 2 ^ 18) := by
  have hmask : (Int64.ofNat n &&& lineMask).toBitVec = BitVec.ofNat 64 n &&& 262143#64 := by
    rw [Int64.toBitVec_and]
    rfl
  refine Int64.toBitVec_inj.mp (BitVec.eq_of_toNat_eq ?_)
  change _ = (BitVec.ofNat 64 (n % 2 ^ 18)).toNat
  rw [hmask, BitVec.toNat_and, BitVec.toNat_ofNat, BitVec.toNat_ofNat, BitVec.toNat_ofNat,
    Nat.mod_eq_of_lt (by omega : n < 2 ^ 64), Nat.mod_eq_of_lt (by omega : 262143 < 2 ^ 64),
    Nat.mod_eq_of_lt (by omega : n % 2 ^ 18 < 2 ^ 64)]
  exact Nat.and_two_pow_sub_one_eq_mod n 18

/-- The file fills the bits above those of the line, so that a key adds the two up. -/
theorem bits_lineKey {i k : Nat} (hi : i < 2 ^ 40) (hk : k < 2 ^ 18) :
    (lineKey (Int64.ofNat i) (Int64.ofNat k) true).toBitVec.toNat = i * 2 ^ 18 + k := by
  have hshift : (Int64.ofNat i <<< lineShift).toBitVec = BitVec.ofNat 64 i <<< 18 := by
    rw [Int64.toBitVec_shiftLeft]
    rfl
  rw [lineKey, if_pos rfl, and_lineMask (by omega), Nat.mod_eq_of_lt hk, Int64.toBitVec_or, hshift]
  change (BitVec.ofNat 64 i <<< 18 ||| BitVec.ofNat 64 k).toNat = _
  simp only [BitVec.toNat_or, BitVec.toNat_shiftLeft, BitVec.toNat_ofNat]
  rw [Nat.mod_eq_of_lt (by omega : k < 2 ^ 64), Nat.mod_eq_of_lt (by omega : i < 2 ^ 64),
    Nat.shiftLeft_eq, Nat.mod_eq_of_lt (by omega), ← Nat.shiftLeft_eq,
    Nat.shiftLeft_add_eq_or_of_lt hk]

theorem toInt_lineKey {i k : Nat} (hi : i < 2 ^ 40) (hk : k < 2 ^ 18) :
    (lineKey (Int64.ofNat i) (Int64.ofNat k) true).toInt = i * 2 ^ 18 + k := by
  have hbits := bits_lineKey hi hk
  change (lineKey (Int64.ofNat i) (Int64.ofNat k) true).toBitVec.toInt = _
  rw [BitVec.toInt_eq_toNat_of_lt (by rw [hbits]; omega), hbits]
  omega

/-- **A key** of several files gives back the file and the line. -/
theorem splitLineKey_lineKey {i k : Nat} (hi : i < 2 ^ 40) (hk : k < 2 ^ 18) :
    splitLineKey (lineKey (Int64.ofNat i) (Int64.ofNat k) true) =
      (Int64.ofNat i, Int64.ofNat k) := by
  have hkey := toInt_lineKey hi hk
  unfold splitLineKey
  generalize lineKey (Int64.ofNat i) (Int64.ofNat k) true = key at hkey
  refine Prod.ext (Int64.toInt_inj.mp ?_) ?_
  · have hshift : (key >>> lineShift).toBitVec = key.toBitVec.sshiftRight 18 := by
      rw [Int64.toBitVec_shiftRight]
      rfl
    have hint : (key >>> lineShift).toInt = key.toInt >>> (18 : Nat) := by
      change (key >>> lineShift).toBitVec.toInt = _
      rw [hshift, BitVec.toInt_sshiftRight]
      rfl
    rw [hint, hkey, Int.shiftRight_eq_div_pow, Int64.toInt_ofNat_of_lt (by omega)]
    omega
  · have hnat : key = Int64.ofNat (i * 2 ^ 18 + k) := by
      apply Int64.toInt_inj.mp
      rw [hkey, Int64.toInt_ofNat_of_lt (by omega)]
      omega
    rw [hnat, and_lineMask (by omega), show (i * 2 ^ 18 + k) % 2 ^ 18 = k by omega]

/-- Keys follow the order of files and of lines in a file. -/
theorem lineKey_lt {multi : Bool} {i j k l : Nat} (hi : i < 2 ^ 40) (hj : j < 2 ^ 40)
    (hk : k < 2 ^ 18) (hl : l < 2 ^ 18) (h : (multi = true ∧ i < j) ∨ (i = j ∧ k < l)) :
    lineKey (Int64.ofNat i) (Int64.ofNat k) multi < lineKey (Int64.ofNat j) (Int64.ofNat l) multi := by
  rw [Int64.lt_iff_toInt_lt]
  cases multi with
  | true =>
    rw [toInt_lineKey hi hk, toInt_lineKey hj hl]
    omega
  | false =>
    change (Int64.ofNat k).toInt < (Int64.ofNat l).toInt
    have hlt : k < l := (h.resolve_left fun hfalse => by simp at hfalse).2
    rw [Int64.toInt_ofNat_of_lt (by omega), Int64.toInt_ofNat_of_lt (by omega)]
    omega

theorem zipIdx_ascending (xs : List α) (n : Nat) :
    (xs.zipIdx n).Pairwise fun a b => a.2 < b.2 := by
  rw [← List.pairwise_map (f := Prod.snd) (R := (· < ·)), List.zipIdx_map_snd]
  exact List.pairwise_lt_range'

namespace Stream

variable {s : Stream} {store : FileStore} {cut : Text → Line}

theorem lines_answers : (s.answers store cut).filterMap Item.line? =
    (s.files.zipIdx 1).flatMap fun (name, i) =>
      ((store.scan name).1.zipIdx 1).map fun (text, k) => s.place (cut text) i k := by
  have hfailure : ∀ (name : Text) (failure : Option Text),
      (failure.toList.map (Item.unreadable name)).filterMap (Item.line? (α := Line)) = [] := by
    intro name failure
    cases failure <;> simp [Item.line?]
  unfold answers
  rw [List.filterMap_flatMap]
  congr 1
  funext ⟨name, i⟩
  rw [List.filterMap_append, hfailure, List.append_nil, List.filterMap_map]
  exact congrFun List.filterMap_eq_map _

/-- What is known of a line of a stream: its file, its place there, and its key. -/
theorem mem_lines {line : Line} (h : line ∈ (s.answers store cut).filterMap Item.line?) :
    ∃ name i k text, name ∈ s.files ∧ i < 1 + s.files.length ∧
      k < 1 + (store.scan name).1.length ∧ line = s.place (cut text) i k := by
  rw [lines_answers, List.mem_flatMap] at h
  obtain ⟨⟨name, i⟩, hfile, hline⟩ := h
  obtain ⟨⟨text, k⟩, htext, rfl⟩ := List.mem_map.mp hline
  obtain ⟨-, hi, hname⟩ := List.mem_zipIdx hfile
  obtain ⟨-, hk, -⟩ := List.mem_zipIdx htext
  exact ⟨name, i, k, text, hname ▸ List.getElem_mem _, hi, hk, rfl⟩

/-- **The keys of lines** ascend over a whole pass. -/
theorem ascending_lines (hfiles : s.files.length ≤ maxFiles)
    (hlines : ∀ name ∈ s.files, (store.scan name).1.length < 2 ^ 18) :
    (((s.answers store cut).filterMap Item.line?).map Line.number).Pairwise (· < ·) := by
  rw [List.pairwise_map, lines_answers, List.pairwise_flatMap]
  have hbound : ∀ {name : Text} {i k : Nat} {text : Text}, (name, i) ∈ s.files.zipIdx 1 →
      (text, k) ∈ (store.scan name).1.zipIdx 1 → i < 2 ^ 40 ∧ k < 2 ^ 18 := by
    intro name i k text hfile htext
    obtain ⟨-, hi, hname⟩ := List.mem_zipIdx hfile
    obtain ⟨-, hk, -⟩ := List.mem_zipIdx htext
    have hlength := hlines name (hname ▸ List.getElem_mem _)
    rw [maxFiles] at hfiles
    exact ⟨by omega, by omega⟩
  constructor
  · rintro ⟨name, i⟩ hfile
    rw [List.pairwise_map]
    refine (zipIdx_ascending _ 1).imp_of_mem ?_
    rintro ⟨text, k⟩ ⟨text', k'⟩ htext htext' hlt
    obtain ⟨hi, hk⟩ := hbound hfile htext
    exact lineKey_lt hi hi hk (hbound hfile htext').2 (.inr ⟨rfl, hlt⟩)
  · refine (zipIdx_ascending _ 1).imp_of_mem ?_
    rintro ⟨name, i⟩ ⟨name', i'⟩ hfile hfile' hlt line hline line' hline'
    obtain ⟨⟨text, k⟩, htext, rfl⟩ := List.mem_map.mp hline
    obtain ⟨⟨text', k'⟩, htext', rfl⟩ := List.mem_map.mp hline'
    obtain ⟨hi, hk⟩ := hbound hfile htext
    obtain ⟨hi', hk'⟩ := hbound hfile' htext'
    -- Two files are needed for two numbers of files.
    have hmulti : s.multi = true := by
      obtain ⟨hlo, -, -⟩ := List.mem_zipIdx hfile
      obtain ⟨-, hhi, -⟩ := List.mem_zipIdx hfile'
      dsimp only at hlt
      simp only [multi, decide_eq_true_eq]
      omega
    exact lineKey_lt hi hi' hk hk' (.inl ⟨hmulti, hlt⟩)

theorem splitLineKey_number (hfiles : s.files.length ≤ maxFiles)
    (hlines : ∀ name ∈ s.files, (store.scan name).1.length < 2 ^ 18) (hmulti : s.multi = true)
    {line : Line} (h : line ∈ (s.answers store cut).filterMap Item.line?) :
    splitLineKey line.number = (line.file, line.fileLine) := by
  obtain ⟨name, i, k, text, hname, hi, hk, rfl⟩ := mem_lines h
  have hlength := hlines name hname
  rw [maxFiles] at hfiles
  simp only [place, hmulti]
  exact splitLineKey_lineKey (by omega) (by omega)

end Stream

/-! ## Passes -/

theorem Reading.traverse_of_ok {f : α → Except Fault β} {g : α → β} (h : ∀ x, f x = .ok (g x))
    (r : Reading α) :
    r.traverse f = .ok { items := r.items.map (Item.map g), failure := r.failure } := by
  have hall : Item.traverse f = fun item => pure (Item.map g item) :=
    funext (Item.traverse_of_ok h)
  rw [Reading.traverse, hall, List.mapM_pure]
  rfl

theorem Item.filter_map (g : α → β) (items : List (Item α)) :
    (items.map (Item.map g)).filter Item.isAnswer = (items.filter Item.isAnswer).map (Item.map g) := by
  rw [List.filter_map]
  congr 2
  funext item
  cases item <;> rfl

theorem Item.files_map (g : α → β) (items : List (Item α)) :
    (items.map (Item.map g)).filterMap Item.file? = items.filterMap Item.file? := by
  rw [List.filterMap_map]
  congr 1
  funext item
  cases item <;> rfl

theorem Stream.ofNames_eq {names : List Text} (hpos : names ≠ []) (hmax : names.length ≤ maxFiles)
    (format : SourceFormat) (tabs : TabStops) :
    Stream.ofNames names format tabs = .ok ⟨names.map sourceName, format, tabs⟩ := by
  unfold Stream.ofNames
  rw [if_neg (by simpa using hpos), if_neg (by omega)]

theorem Stream.reopen_eq {s : Stream} {store : FileStore} {name : Text} {rest : List Text}
    (hfiles : s.files = name :: rest) (h : store.Openable name) (earlier : Reader) :
    s.reopen store earlier =
      .ok (⟨some (store.fresh 1 name), rest⟩, [.opened 1 name]) := by
  unfold Stream.reopen Reader.rewind
  simp only [hfiles, Reader.advance, store.openFile_eq h]

/-- **A stream replays its files.** Over one to fifteen files that can be opened, a pass begins anew
wherever the reader stood before. The calls for lines answer one by one with the lines of each file
in order, cut and numbered, and then with the failure of that file if it had one; every further call
answers with nothing. By then each file was opened once, in order. Reading the stream as a whole
gives the same. If no file has `2 ^ 18` lines, the keys of the lines ascend, and with several files a
key gives back the file and the line. -/
theorem stream_replays {names : List Text} {format : SourceFormat} {tabs : TabStops}
    {store : FileStore} (hpos : names ≠ []) (hmax : names.length ≤ maxFiles)
    (hopen : ∀ name ∈ names, store.Openable (sourceName name))
    (htabs : format = .fixed ∨ tabs.InRange) :
    ∃ (s : Stream) (cut : Text → Line), Stream.ofNames names format tabs = .ok s ∧
      s.files = names.map sourceName ∧ (∀ text, tokenize format tabs text = .ok (cut text)) ∧
      (∀ earlier : Reader, ∃ r first, s.reopen store earlier = .ok (r, first) ∧
        ∀ n, ∃ replies r', s.calls store n r = .ok (replies, r') ∧
          replies.map Reply.answer = (List.range n).map (fun i => (s.answers store cut)[i]?) ∧
          first.filterMap Item.file? ++ replies.flatMap Reply.opened <+: numbered s.files 1 ∧
          ((s.answers store cut).length < n →
            first.filterMap Item.file? ++ replies.flatMap Reply.opened = numbered s.files 1)) ∧
      (∃ items, s.read store = .ok { items } ∧
        items.filter Item.isAnswer = s.answers store cut ∧
        items.filterMap Item.file? = numbered s.files 1) ∧
      ((∀ name ∈ s.files, (store.scan name).1.length < 2 ^ 18) →
        (((s.answers store cut).filterMap Item.line?).map Line.number).Pairwise (· < ·) ∧
        (s.multi = true → ∀ line ∈ (s.answers store cut).filterMap Item.line?,
          splitLineKey line.number = (line.file, line.fileLine))) := by
  obtain ⟨cut, hcut⟩ := Classical.skolem.mp (tokenize_ok htabs)
  obtain ⟨first, others, rfl⟩ := List.exists_cons_of_ne_nil hpos
  have hfiles : (Stream.mk ((first :: others).map sourceName) format tabs).files =
      sourceName first :: others.map sourceName := rfl
  generalize hs : Stream.mk ((first :: others).map sourceName) format tabs = s at hfiles
  have hline : ∀ text, tokenize s.format s.tabs text = .ok (cut text) := by
    rw [← hs]
    exact hcut
  have hlength : s.files.length ≤ maxFiles := by
    rw [hfiles]
    simpa using hmax
  have hfirst : store.Openable (sourceName first) := hopen first List.mem_cons_self
  have hrest : ∀ name ∈ others.map sourceName, store.Openable name := by
    intro name hmem
    obtain ⟨other, hother, rfl⟩ := List.mem_map.mp hmem
    exact hopen other (List.mem_cons_of_mem _ hother)
  have hanswers : s.answers store cut = (Reader.answers store
      ⟨some (store.fresh 1 (sourceName first)), others.map sourceName⟩).map
        (Item.map (s.placed cut)) := by
    rw [Stream.answers_eq, hfiles, Reader.fresh_answers]
  have hnumbered := Reader.fresh_awaited store 1 (sourceName first) (others.map sourceName)
  rw [← hfiles] at hnumbered
  refine ⟨s, cut, by rw [Stream.ofNames_eq hpos hmax, hs], hfiles, hcut, fun earlier => ?_, ?_,
    fun hlines => ⟨Stream.ascending_lines hlength hlines,
      fun hmulti line hmem => Stream.splitLineKey_number hlength hlines hmulti hmem⟩⟩
  · refine ⟨_, _, Stream.reopen_eq hfiles hfirst earlier, fun n => ?_⟩
    obtain ⟨replies, r', hcalls, hreplies, hawaited, hdone⟩ := Stream.calls_eq hline
      (r := ⟨some (store.fresh 1 (sourceName first)), others.map sourceName⟩) hrest n
    rw [← hanswers] at hreplies
    have hall : [(1, sourceName first)] ++ replies.flatMap Reply.opened ++ r'.awaited =
        numbered s.files 1 := by
      rw [List.append_assoc, ← hawaited]
      exact hnumbered
    refine ⟨replies, r', hcalls, hreplies, ⟨_, hall⟩, fun hlt => ?_⟩
    rw [hdone (by rwa [hanswers, List.length_map] at hlt), List.append_nil] at hall
    exact hall
  · obtain ⟨items, hdrain, hgiven, hopened⟩ := Reader.drain_eq
      (r := ⟨some (store.fresh 1 (sourceName first)), others.map sourceName⟩) hrest
    have hraw : s.readRaw store = { items := .opened 1 (sourceName first) :: items } := by
      unfold Stream.readRaw
      rw [Stream.reopen_eq hfiles hfirst]
      dsimp only
      rw [hdrain]
      rfl
    refine ⟨(.opened 1 (sourceName first) :: items).map (Item.map (s.placed cut)), ?_, ?_, ?_⟩
    · rw [Stream.read, hraw, Reading.traverse_of_ok (Stream.lineOf_eq hline)]
    · rw [Item.filter_map, hanswers, ← hgiven]
      rfl
    · rw [Item.files_map, ← hnumbered, ← hopened]
      rfl

/-- A file of two lines, an empty one, and a directory, which cannot be read. -/
def mixedStore : FileStore where
  entries := [
    ([ascii "a.sps"], .file (ascii "*\n B\r\n")),
    ([ascii "b.sps"], .file []),
    ([ascii "d.sps"], .directory)]

/-- The reader of another pass, which was given up. -/
def abandonedReader : Reader where
  current := some { number := 2, name := ascii "b.sps", count := 7, lines := [ascii " H"] }
  rest := [ascii "d.sps"]

theorem stream_replays_mixedStore :
    (∀ name ∈ [ascii "a", ascii "b", ascii "d.sps"], mixedStore.Openable (sourceName name)) ∧
    ∃ (s : Stream) (cut : Text → Line) (r r' : Reader) (first : List (Item RawLine))
      (replies : List (Reply Line)),
      Stream.ofNames [ascii "a", ascii "b", ascii "d.sps"] .freeform .default = .ok s ∧
      s.reopen mixedStore abandonedReader = .ok (r, first) ∧
      s.calls mixedStore 5 r = .ok (replies, r') ∧
      replies.map Reply.answer =
        [some (.line (s.place (cut (ascii "*")) 1 1)), some (.line (s.place (cut (ascii " B")) 1 2)),
          some (.unreadable (ascii "d.sps") (ascii "read d.sps: is a directory")), none, none] ∧
      first.filterMap Item.file? ++ replies.flatMap Reply.opened =
        [(1, ascii "a.sps"), (2, ascii "b.sps"), (3, ascii "d.sps")] := by
  have hopen : ∀ name ∈ [ascii "a", ascii "b", ascii "d.sps"],
      mixedStore.Openable (sourceName name) := by
    simp only [List.forall_mem_cons, List.not_mem_nil, false_implies, implies_true, and_true]
    exact ⟨⟨.file (ascii "*\n B\r\n"), by decide⟩, ⟨.file [], by decide⟩, ⟨.directory, by decide⟩⟩
  obtain ⟨s, cut, hs, hfiles, -, hpass, -⟩ := stream_replays (by simp) (by decide) hopen
    (.inr (by decide : TabStops.default.InRange))
  obtain ⟨r, first, hreopen, hcalls⟩ := hpass abandonedReader
  obtain ⟨replies, r', hreplies, hanswers, -, hall⟩ := hcalls 5
  have hgiven : s.answers mixedStore cut =
      [.line (s.place (cut (ascii "*")) 1 1), .line (s.place (cut (ascii " B")) 1 2),
        .unreadable (ascii "d.sps") (ascii "read d.sps: is a directory")] := by
    have hnames : s.files = [ascii "a.sps", ascii "b.sps", ascii "d.sps"] := by
      rw [hfiles]
      decide
    rw [Stream.answers, hnames]
    rfl
  rw [hgiven] at hanswers hall
  refine ⟨hopen, s, cut, r, r', first, replies, hs, hreopen, hreplies, hanswers, ?_⟩
  rw [hall (by simp), hfiles]
  decide

end SpsAssembler
