import SpsAssembler.Fault

/-!
# What is read from a source

A line of source is cut into the fields of a statement. Lines are numbered by a key, so that keys
ascend over all the files of a run.

One pass over the files of a source, as a list of what happens: files are opened, lines are read,
and a file may turn out to be unreadable from some place on, which does not end the pass. A failure
does.

* `lineKey`, `splitLineKey`: the key of a line and what it stands for;
* `Line`, `Item`, `Reading`;
* `Reading.traverse`: the same pass with other lines.
-/

namespace SpsAssembler

/-- How far the number of the file stands above the number of the line. -/
def lineShift : Word := 18

/-- The bits of the number of the line. -/
def lineMask : Word := (1 <<< lineShift) - 1

/-- The key of a line of a file. With a single file it is the number of the line. -/
def lineKey (file line : Word) (multi : Bool) : Word :=
  if multi then (file <<< lineShift) ||| (line &&& lineMask) else line

/-- The file and the line that a key of several files stands for. -/
def splitLineKey (key : Word) : Word × Word := (key >>> lineShift, key &&& lineMask)

/-- One line of source. `invalid` marks characters outside the source alphabet. -/
structure Line where
  number : Word := 0
  file : Word := 0
  fileLine : Word := 0
  text : Text := []
  label : Text := []
  operation : Text := []
  operands : Text := []
  comment : Bool := false
  invalid : Bool := false
  deriving DecidableEq, Repr

/-- What happens while a source is read. Files count from 1. -/
inductive Item (α : Type) where
  | opened (file : Nat) (name : Text)
  | line (line : α)
  | unreadable (name reason : Text)
  deriving DecidableEq, Repr

/-- One pass over a source; `failure` says why it ended early. -/
structure Reading (α : Type) where
  items : List (Item α) := []
  failure : Option Text := none
  deriving DecidableEq, Repr

variable {α β : Type}

/-- The same item with another line. -/
def Item.traverse (f : α → Except Fault β) : Item α → Except Fault (Item β)
  | opened file name => .ok (.opened file name)
  | line a => (f a).map Item.line
  | unreadable name reason => .ok (.unreadable name reason)

/-- The line that was read. -/
def Item.line? : Item α → Option α
  | line a => some a
  | _ => none

/-- The file that was opened, with its number. -/
def Item.file? : Item α → Option (Nat × Text)
  | opened file name => some (file, name)
  | _ => none

namespace Reading

/-- The lines of a pass. -/
def lines (r : Reading α) : List α := r.items.filterMap Item.line?

/-- The files opened in a pass, with their numbers. -/
def opened (r : Reading α) : List (Nat × Text) := r.items.filterMap Item.file?

/-- The same pass with other lines. -/
def traverse (f : α → Except Fault β) (r : Reading α) : Except Fault (Reading β) :=
  (r.items.mapM (Item.traverse f)).map fun items => { items, failure := r.failure }

end Reading

end SpsAssembler
