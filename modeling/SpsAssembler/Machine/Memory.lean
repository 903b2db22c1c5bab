import SpsAssembler.Machine.Cell

/-!
# Core memory

Core is a row of cells, all undefined at first. A value is stored as a whole or, when it does not
fit, not at all.

* `memorySizes`: the sizes the machine was offered in;
* `Memory.blank`, `Memory.clear`, `Memory.cell`, `Memory.fits`;
* `Memory.admits`, `Memory.written`, `Memory.store`: storing a value;
* `Memory.lastDefined`, `Memory.runs`: what is stored where.
-/

namespace SpsAssembler

/-- The sizes the machine was offered in. -/
def memorySizes : List Word := [20000, 40000, 60000, 80000, 100000]

/-- The size of a machine that nothing else is said about. -/
def defaultMemorySize : Word := 60000

/-- Core memory, one cell for each decimal digit. -/
structure Memory where
  cells : Array Cell
  deriving DecidableEq, Repr

namespace Memory

/-- A memory of undefined cells. -/
def blank (size : Word) : Except Fault Memory :=
  match allocate size with
  | .error f => .error f
  | .ok n => .ok ⟨Array.replicate n Cell.undefined⟩

/-- Marks every cell undefined. -/
def clear (m : Memory) : Memory := ⟨Array.replicate m.cells.size Cell.undefined⟩

/-- The number of cells. -/
def size (m : Memory) : Word := Int64.ofNat m.cells.size

/-- The cell at an address, undefined outside core. -/
def cell (m : Memory) (addr : Word) : Cell :=
  if addr < 0 then Cell.undefined else m.cells.getD addr.toNatClampNeg Cell.undefined

/-- Whether `length` cells from `addr` on lie inside core. -/
def fits (m : Memory) (addr length : Word) : Bool := 0 ≤ addr && addr + length ≤ m.size

/-- Replaces the cells from position `i` on. -/
def write (cells : Array Cell) : Nat → Value → Array Cell
  | _, [] => cells
  | i, c :: rest => write (cells.setIfInBounds i c) (i + 1) rest

/-- Whether a value can be stored at an address. The end of a value may wrap to an address below the
end of core; storing such a value is a fault. -/
def admits (m : Memory) (addr : Word) (v : Value) : Except Fault Bool :=
  if v.isEmpty then .ok true
  else if !m.fits addr (Word.ofLength v) then .ok false
  else if m.size < addr then .error .positionOutOfRange
  else .ok true

/-- The memory with a value at an address. -/
def written (m : Memory) (addr : Word) (v : Value) : Memory :=
  ⟨write m.cells addr.toNatClampNeg v⟩

/-- Stores a value at an address, `none` if it does not fit. -/
def store (m : Memory) (addr : Word) (v : Value) : Except Fault (Option Memory) :=
  (m.admits addr v).map fun ok => if ok then some (m.written addr v) else none

/-- Stores a value at a fixed position if it fits there. -/
def place (m : Memory) (i : Nat) (v : Value) : Memory :=
  if i + v.length ≤ m.cells.size then ⟨write m.cells i v⟩ else m

/-- The highest defined position below `n`. -/
def lastDefinedBelow (cells : Array Cell) : Nat → Option Nat
  | 0 => none
  | n + 1 =>
    if cells.getD n Cell.undefined != Cell.undefined then some n else lastDefinedBelow cells n

/-- The highest defined position. -/
def lastDefined (m : Memory) : Option Nat := lastDefinedBelow m.cells m.cells.size

/-- Adds the cell at `i`, below all the others, to runs of cells. -/
def extendRuns (i : Nat) (c : Cell) (runs : List (Nat × Value)) : List (Nat × Value) :=
  if c == Cell.undefined then runs
  else match runs with
    | (start, v) :: rest => if start == i + 1 then (i, c :: v) :: rest else (i, [c]) :: runs
    | [] => [(i, [c])]

/-- The longest runs of defined cells below `n`, before the given ones. -/
def runsBelow (cells : Array Cell) : Nat → List (Nat × Value) → List (Nat × Value)
  | 0, runs => runs
  | n + 1, runs => runsBelow cells n (extendRuns n (cells.getD n Cell.undefined) runs)

/-- The longest runs of defined cells with their addresses, in ascending order. -/
def runs (m : Memory) : List (Nat × Value) := runsBelow m.cells m.cells.size []

end Memory

end SpsAssembler
