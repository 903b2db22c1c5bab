import SpsAssembler.Files.Store
import SpsAssembler.Source.Card
import SpsAssembler.Source.Reading

/-!
# Source files as one stream

The files of a run are read one behind the other. A file that cannot be opened ends the reading; a
file that cannot be read on is left, and that is told once the next file is open.

* `sourceName`: the name of a source file;
* `splitLines`: the lines of a file;
* `Stream`, `Stream.ofNames`;
* `Reader`, `Reader.advance`, `Reader.next`: reading step by step;
* `Stream.reopen`: the beginning of a pass;
* `Reader.drain`, `Stream.read`: reading to the end.
-/

namespace SpsAssembler

/-- The name of a source file; one without an extension gets the usual one. -/
def sourceName (name : Text) : Text :=
  if (Path.extension name).isEmpty then name ++ ascii ".sps" else name

/-- The most bytes a line may have before its end. -/
def maxLineLength : Nat := 65535

/-- The carriage return. -/
def carriageReturn : Byte := '\r'.toUInt8

/-- A line without one carriage return at its end. -/
def dropReturn (line : Text) : Text :=
  if line.getLast? == some carriageReturn then line.dropLast else line

/-- The rows of a file; what follows the last end of line is a row if there is any. -/
def rows (content : Text) : List Text :=
  let parts := content.fields Byte.newline
  if parts.getLast? == some [] then parts.dropLast else parts

/-- The lines of a file up to the first that is too long, and why they end there. -/
def splitLines (content : Text) : List Text × Option Text :=
  let fits (line : Text) : Bool := line.length ≤ maxLineLength
  let lines := ((rows content).takeWhile fits).map dropReturn
  let failure :=
    if (rows content).all fits then none else some (ascii "bufio.Scanner: token too long")
  (lines, failure)

/-- A line of a file, as it stands there. -/
structure RawLine where
  file : Nat
  fileLine : Nat
  text : Text
  deriving DecidableEq, Repr

/-- The files of a run and how their lines are cut. -/
structure Stream where
  files : List Text
  format : SourceFormat
  tabs : TabStops
  deriving DecidableEq, Repr

/-- The most files that a run accepts. -/
def maxFiles : Nat := 15

/-- A stream over named files, or why there is none. -/
def Stream.ofNames (names : List Text) (format : SourceFormat) (tabs : TabStops) :
    Except Text Stream :=
  if names.isEmpty then .error (ascii "no source files")
  else if maxFiles < names.length then
    .error (ascii "too many source files (" ++ Text.ofNat names.length ++ ascii "), at most " ++
      Text.ofNat maxFiles)
  else .ok ⟨names.map sourceName, format, tabs⟩

/-- Whether the keys of lines carry the number of the file. -/
def Stream.multi (s : Stream) : Bool := 1 < s.files.length

/-- A file that is being read. -/
structure OpenFile where
  number : Nat
  name : Text
  count : Nat := 0
  lines : List Text
  failure : Option Text := none
  deriving DecidableEq, Repr

/-- Opens a file. A directory can be opened, but not read. -/
def FileStore.openFile (store : FileStore) (number : Nat) (name : Text) :
    Except Text OpenFile :=
  match store.open? name with
  | .error e => .error (ascii "open source " ++ name ++ ascii ": " ++ e.message)
  | .ok .directory =>
    .ok { number, name, lines := [], failure := some (FileStore.unreadable name).message }
  | .ok (.file content) =>
    let (lines, failure) := splitLines content
    .ok { number, name, lines, failure }

/-- A place in a stream: the open file, if there is one, and the names behind it. -/
structure Reader where
  current : Option OpenFile
  rest : List Text
  deriving DecidableEq, Repr

namespace Reader

/-- Opens the next of the files behind, which gets the given number. -/
def advance (store : FileStore) (number : Nat) :
    List Text → Except Text (Reader × List (Item RawLine))
  | [] => .ok (⟨none, []⟩, [])
  | name :: rest =>
    match store.openFile number name with
    | .error reason => .error reason
    | .ok file => .ok (⟨some file, rest⟩, [.opened number name])

/-- Leaves the open file, if there is one, and goes back before the first of the given files. -/
def rewind (r : Reader) (files : List Text) : Reader := { r with current := none, rest := files }

/-- What is left to tell about a file that was read to its end. -/
def farewell (file : OpenFile) : List (Item RawLine) :=
  file.failure.toList.map (Item.unreadable file.name)

/-- The next line, or what happens between two files: the next one is opened, and then it is told
if the last one could not be read. At the end there is nothing. -/
def next (store : FileStore) (r : Reader) : Except Text (Option (Reader × List (Item RawLine))) :=
  match r.current with
  | none => .ok none
  | some file =>
    match file.lines with
    | text :: lines =>
      let count := file.count + 1
      .ok (some (⟨some { file with count, lines }, r.rest⟩, [.line ⟨file.number, count, text⟩]))
    | [] =>
      match advance store (file.number + 1) r.rest with
      | .error reason => .error reason
      | .ok (r, items) => .ok (some (r, items ++ farewell file))

/-- The number of steps that reading a file takes. -/
def steps (store : FileStore) (name : Text) : Nat :=
  match store.openFile 1 name with
  | .error _ => 0
  | .ok file => file.lines.length + 1

/-- The number of steps that are left. -/
def work (store : FileStore) (r : Reader) : Nat :=
  match r.current with
  | none => 0
  | some file => file.lines.length + 1 + (r.rest.map (steps store)).foldr (· + ·) 0

/-- The lines of a file do not depend on its number. -/
theorem lines_openFile {store : FileStore} {m n : Nat} {name : Text} {f : OpenFile}
    (h : store.openFile m name = .ok f) :
    ∃ g, store.openFile n name = .ok g ∧ g.lines = f.lines := by
  unfold FileStore.openFile at h ⊢
  split at h <;> simp_all
  all_goals (subst h; rfl)

/-- Every step leaves fewer steps. -/
theorem work_lt_of_next {store : FileStore} {r r' : Reader} {items : List (Item RawLine)}
    (h : r.next store = .ok (some (r', items))) : r'.work store < r.work store := by
  obtain ⟨current, rest⟩ := r
  unfold next at h
  cases current with
  | none => simp at h
  | some file =>
    obtain ⟨number, name, count, lines, failure⟩ := file
    cases lines with
    | cons text lines =>
      simp only [Except.ok.injEq, Option.some.injEq, Prod.mk.injEq] at h
      obtain ⟨rfl, -⟩ := h
      simp [work]
    | nil =>
      cases rest with
      | nil =>
        simp only [advance, Except.ok.injEq, Option.some.injEq, Prod.mk.injEq] at h
        obtain ⟨rfl, -⟩ := h
        simp [work]
      | cons name rest =>
        cases hf : store.openFile (number + 1) name with
        | error reason => simp [advance, hf] at h
        | ok file =>
          simp only [advance, hf, Except.ok.injEq, Option.some.injEq, Prod.mk.injEq] at h
          obtain ⟨rfl, -⟩ := h
          obtain ⟨g, hg, hl⟩ := lines_openFile (n := 1) hf
          simp [work, steps, hg, hl]

/-- Reads to the end. -/
def drain (store : FileStore) (r : Reader) : Reading RawLine :=
  match _step : r.next store with
  | .error reason => { failure := some reason }
  | .ok none => {}
  | .ok (some (r', items)) =>
    let later := drain store r'
    { later with items := items ++ later.items }
termination_by r.work store
decreasing_by exact work_lt_of_next _step

end Reader

namespace Stream

/-- Opens the first file anew, wherever the reader stands. -/
def reopen (s : Stream) (store : FileStore) (r : Reader) :
    Except Text (Reader × List (Item RawLine)) :=
  Reader.advance store 1 (r.rewind s.files).rest

/-- All that one pass over the files reads. -/
def readRaw (s : Stream) (store : FileStore) : Reading RawLine :=
  match s.reopen store ⟨none, []⟩ with
  | .error reason => { failure := some reason }
  | .ok (r, items) =>
    let later := r.drain store
    { later with items := items ++ later.items }

/-- A line of a file, cut into its fields and numbered. -/
def lineOf (s : Stream) (raw : RawLine) : Except Fault Line :=
  (tokenize s.format s.tabs raw.text).map fun line =>
    let file := Int64.ofNat raw.file
    let fileLine := Int64.ofNat raw.fileLine
    { line with file, fileLine, number := lineKey file fileLine s.multi }

/-- All that one pass over the files reads, with the lines cut into their fields. -/
def read (s : Stream) (store : FileStore) : Except Fault (Reading Line) :=
  (s.readRaw store).traverse s.lineOf

end Stream

end SpsAssembler
