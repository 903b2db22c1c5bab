import SpsAssembler.Text.Basic

/-!
# Words and faults

Addresses, lengths and operand values are signed words of 64 bits whose arithmetic wraps. A step
that no word can answer ends the computation with a fault.

* `Word`, `Word.lowByte`;
* `Fault`: a store of negative size, a position outside a store, a division by zero, a negative
  number of copies;
* `maxSize`, `allocate`: the size of a new store;
* `fetch`, `slice`, `assign`: positions in a store;
* `Word.quotient`: division.
-/

namespace SpsAssembler

/-- A signed word of 64 bits. -/
abbrev Word := Int64

/-- The low eight bits of a word. -/
def Word.lowByte (w : Word) : Byte := w.toUInt64.toUInt8

/-- The length of a list as a word. -/
def Word.ofLength {α : Type} (xs : List α) : Word := Int64.ofNat xs.length

/-- Why a computation cannot go on. -/
inductive Fault where
  | sizeOutOfRange
  | positionOutOfRange
  | divisionByZero
  | negativeRepeat
  deriving DecidableEq, Repr

/-- The most cells that a store has, `2 ^ 48`. -/
def maxSize : Nat := 281474976710656

/-- The number of cells of a new store. -/
def allocate (size : Word) : Except Fault Nat :=
  if size < 0 || maxSize < size.toNatClampNeg then .error .sizeOutOfRange
  else .ok size.toNatClampNeg

section Positions

variable {α : Type}

/-- The element at a position. -/
def fetch (xs : Array α) (i : Int) : Except Fault α :=
  if h : 0 ≤ i ∧ i.toNat < xs.size then .ok (xs[i.toNat]) else .error .positionOutOfRange

/-- The elements from position `i` up to position `j`. -/
def slice (xs : Array α) (i j : Int) : Except Fault (Array α) :=
  if 0 ≤ i ∧ i ≤ j ∧ j ≤ xs.size then .ok (xs.extract i.toNat j.toNat)
  else .error .positionOutOfRange

/-- Puts an element in place of the one at a position. -/
def assign (xs : Array α) (i : Int) (x : α) : Except Fault (Array α) :=
  if h : 0 ≤ i ∧ i.toNat < xs.size then .ok (xs.set i.toNat x) else .error .positionOutOfRange

end Positions

/-- The quotient of two words, cut towards zero. -/
def Word.quotient (n divisor : Word) : Except Fault Word :=
  if divisor == 0 then .error .divisionByZero else .ok (n / divisor)

end SpsAssembler
