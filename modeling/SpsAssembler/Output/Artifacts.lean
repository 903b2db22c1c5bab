import SpsAssembler.Files.Store
import SpsAssembler.Output.CoreDump
import SpsAssembler.Output.Listing
import SpsAssembler.Output.Media
import SpsAssembler.Text.Numeral

/-!
# Output files

The files that a run writes. The listing is always written; the others only if the program has no
errors, and old copies of them are removed otherwise, so that no failing run leaves an image behind.
A failure with one file does not keep the others from being written.

* `Artifact`, `Artifact.content`;
* `Paths`: which files are asked for;
* `Emission`, `emit`: writing them;
* `Emission.error?`: their failures as one.
-/

namespace SpsAssembler

/-- The kinds of output files. -/
inductive Artifact where
  | listing
  | core
  | cards
  | tape
  | symbols
  deriving DecidableEq, Repr

namespace Artifact

/-- All kinds, in the order they are written. -/
def all : List Artifact := [listing, core, cards, tape, symbols]

/-- The name of a kind in messages. -/
def name : Artifact → String
  | listing => "list"
  | core => "cmem"
  | cards => "crd"
  | tape => "pt"
  | symbols => "symbols"

/-- The content of an output file. -/
def content (p : Provenance) (program : Program) : Artifact → Except Fault Text
  | listing => .ok (SpsAssembler.listing p program)
  | core => .ok (coreDump p program)
  | cards => cardDeck program.memory
  | tape => .ok (paperTape program.memory)
  | symbols => .ok (symbolMap p program)

/-- How a failure mentions an output file. -/
def mention (a : Artifact) (path : Text) : Text :=
  ascii a.name ++ ascii " file (" ++ path ++ ascii "): "

/-- What is said when an output file cannot be written or removed. -/
def failure (a : Artifact) (action : String) (path reason : Text) : Text :=
  ascii "cannot " ++ ascii action ++ ascii " " ++ a.mention path ++ reason

/-- Files are written in pieces of this size. -/
def pieceSize : Nat := 4096

/-- What is said of a file of which only the first `n` bytes were written. The symbol map has words
of its own for a failure before its last piece. -/
def cutShort (a : Artifact) (path content : Text) (n : Nat) : Text :=
  let early := pieceSize * (n / pieceSize + 1) < content.length
  (if a == symbols && early then ascii "yaml: write error: " else []) ++
    (FileError.mk "write" path .noSpace).message

end Artifact

/-- The paths of output files; an empty path asks for none. -/
abbrev Paths := Artifact → Text

/-- What has been done to a store: its state, the files written and removed, and the failures. -/
structure Emission where
  store : FileStore
  created : List Text := []
  removed : List Text := []
  failures : List Text := []

namespace Emission

/-- Notes a failure. -/
def fail (e : Emission) (action : String) (a : Artifact) (path reason : Text) : Emission :=
  { e with failures := e.failures ++ [a.failure action path reason] }

/-- Fills a file that was created. -/
def write (e : Emission) (a : Artifact) (path : Text) (at_ : Place) (content : Text) : Emission :=
  match e.store.write at_ content with
  | (store, n) =>
    if n < content.length then { e with store }.fail "write" a path (a.cutShort path content n)
    else { e with store, created := e.created ++ [path] }

/-- Removes a file, if there is one. -/
def remove (e : Emission) (a : Artifact) (path : Text) : Emission :=
  match e.store.remove path with
  | .ok store => { e with store, removed := e.removed ++ [path] }
  | .error error => if error.cause == .notFound then e else e.fail "remove" a path error.message

/-- The failures as one message. -/
def error? (e : Emission) : Option Text :=
  if e.failures.isEmpty then none else some (Text.bullets e.failures)

end Emission

/-- Writes or removes one file. -/
def emitOne (p : Provenance) (program : Program) (paths : Paths) (e : Emission) (a : Artifact) :
    Except Fault Emission :=
  if (paths a).isEmpty then .ok e
  else if a == .listing || program.ok then
    match e.store.create (paths a) with
    | .error error => .ok (e.fail "write" a (paths a) error.message)
    | .ok (store, at_) =>
      (a.content p program).map fun content => { e with store }.write a (paths a) at_ content
  else .ok (e.remove a (paths a))

/-- Writes the files that are asked for. -/
def emit (p : Provenance) (program : Program) (paths : Paths) (store : FileStore) :
    Except Fault Emission :=
  Artifact.all.foldlM (emitOne p program paths) { store }

end SpsAssembler
