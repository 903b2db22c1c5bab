import SpsAssembler.Catalog.Basic
import SpsAssembler.Symbol.Name

/-!
# The symbol table

Symbols by key, each with its address, the statement that defined it and the lines that refer to
it. The first definition of a symbol holds.

The lines that refer to a symbol come in mostly ascending order, once in each pass. A set of lines
keeps the place of the last line that was added, so that the next line is near it.

* `LineSet`, `LineSet.toList`, `LineSet.insert`: sets of lines;
* `Symbol`, `Symbol.isResolved`, `Symbol.referTo`;
* `SymbolTable.define`, `SymbolTable.verify`, `SymbolTable.lookup`: definition and reference;
* `SymbolTable.sorted`: all symbols in byte order.
-/

namespace SpsAssembler

/-- A set of lines, divided at a place: the lines before it, the last one first, and the lines
behind it. -/
structure LineSet where
  before : List Word := []
  behind : List Word := []
  deriving DecidableEq, Repr

namespace LineSet

/-- The lines in ascending order. -/
def toList (s : LineSet) : List Word := s.before.reverse ++ s.behind

/-- Whether there are no lines. -/
def isEmpty (s : LineSet) : Bool := s.before.isEmpty && s.behind.isEmpty

/-- Moves the place down until no line before it is above `n`. -/
def lower (n : Word) : List Word → List Word → LineSet
  | m :: before, behind => if n < m then lower n before (m :: behind) else ⟨m :: before, behind⟩
  | [], behind => ⟨[], behind⟩

/-- Moves the place up until every line behind it is above `n`. -/
def raise (n : Word) : List Word → List Word → LineSet
  | before, m :: behind => if m ≤ n then raise n (m :: before) behind else ⟨before, m :: behind⟩
  | before, [] => ⟨before, []⟩

/-- Moves the place to `n`. -/
def seek (s : LineSet) (n : Word) : LineSet :=
  let s := lower n s.before s.behind
  raise n s.before s.behind

/-- Adds a line, unless it is there. -/
def insert (s : LineSet) (n : Word) : LineSet :=
  let s := s.seek n
  if s.before.head? == some n then s else { s with before := n :: s.before }

end LineSet

/-- A symbol and the lines that refer to it. -/
structure Symbol where
  name : Text
  address : Word := 0
  kind : Kind := .unknown
  defined : Word := 0
  references : LineSet := {}
  deriving DecidableEq, Repr

namespace Symbol

/-- Whether a label defined the symbol. A symbol that none defined is kept for its references. -/
def isResolved (s : Symbol) : Bool := 0 < s.defined

/-- Notes that `line` refers to the symbol. -/
def referTo (s : Symbol) (line : Word) : Symbol :=
  { s with references := s.references.insert line }

end Symbol

/-- The symbols of a run, in the order they were entered; no two have the same name. -/
structure SymbolTable where
  divide : Bool
  symbols : List Symbol := []
  deriving DecidableEq, Repr

/-- What a reference comes to: a value, the table with the reference noted, and what there is to
report. -/
structure Resolution where
  value : Word
  table : SymbolTable
  reports : List (Report Cause) := []
  deriving DecidableEq, Repr

namespace SymbolTable

/-- The symbol stored under a key. -/
def get? (t : SymbolTable) (key : Text) : Option Symbol := t.symbols.find? (·.name == key)

/-- Enters a symbol. -/
def enter (t : SymbolTable) (s : Symbol) : SymbolTable := { t with symbols := t.symbols ++ [s] }

/-- Notes that `line` refers to the symbol under a key. -/
def referTo (t : SymbolTable) (key : Text) (line : Word) : SymbolTable :=
  { t with symbols := t.symbols.map fun s => if s.name == key then s.referTo line else s }

/-- Defines a label at an address. -/
def define (t : SymbolTable) (name : Text) (address : Word) (kind : Kind) (line : Word)
    (head : Byte) : SymbolTable × List (Report Cause) :=
  if name.isBlank then (t, [])
  else if !isLabel t.divide name then (t, [error (.invalidLabel name)])
  else
    let key := headKey head name
    if (t.get? key).isSome then (t, [error (.duplicateLabel key)])
    else (t.enter { name := key, address, kind, defined := line }, [])

/-- Checks that a label is the one defined on `line`. -/
def verify (t : SymbolTable) (name : Text) (line : Word) (head : Byte) : List (Report Cause) :=
  if name.isBlank then []
  else if !isSymbol t.divide name then [error (.invalidLabel name)]
  else
    let key := headKey head name
    match t.get? key with
    | some s =>
      if s.isResolved && s.defined != line then [error (.duplicateLabel key)] else []
    | none => []

/-- What a key stands for on `line`. With `ordered` a symbol defined further down has no value, and
with `entering` a key that is not in the table is entered for its references. -/
def resolve (t : SymbolTable) (key : Text) (line : Word) (ordered entering : Bool) : Resolution :=
  match t.get? key with
  | some s =>
    if !s.isResolved then ⟨0, t.referTo key line, [error (.undefinedSymbol key)]⟩
    else if ordered && line < s.defined then ⟨0, t, [error (.forwardReference key)]⟩
    else ⟨s.address, t.referTo key line, []⟩
  | none =>
    let table := if entering then t.enter (({ name := key } : Symbol).referTo line) else t
    ⟨0, table, [error (.undefinedSymbol key)]⟩

/-- What a name stands for on `line` where `head` is in force. -/
def lookup (t : SymbolTable) (name : Text) (line : Word) (ordered : Bool) (head : Byte)
    (entering : Bool) : Resolution :=
  if name.isBlank then ⟨0, t, []⟩
  else match referenceKey t.divide head name with
    | .error c => ⟨0, t, [error c]⟩
    | .ok key => t.resolve key line ordered entering

/-- The number of symbols. -/
def size (t : SymbolTable) : Nat := t.symbols.length

/-- All symbols in byte order of their names. -/
def sorted (t : SymbolTable) : List Symbol :=
  t.symbols.mergeSort fun a b => !Text.before b.name a.name

end SymbolTable

end SpsAssembler
