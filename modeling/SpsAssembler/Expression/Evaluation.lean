import SpsAssembler.Expression.Basic
import SpsAssembler.Expression.Check
import SpsAssembler.Symbol.Table

/-!
# Evaluation of operands

Multiplications and divisions are carried out first, from left to right, then additions and
subtractions, all in words that wrap. The terms stand on a stack with the operators between them,
and a multiplication or division puts one term in place of two. Whatever is wrong with an operand is
reported and gives the value zero; references to symbols are noted in the table on the way.

* `Scope`: what the value of an operand depends on besides its text;
* `Stack`, `Stack.fold`: the value of a row of terms;
* `evaluateIn`: the value and the index of an operand.
-/

namespace SpsAssembler

/-- The place of an operand in a run: the head and the line it stands under, whether unknown
symbols are entered into the table, and the size of core. -/
structure Scope where
  head : Byte
  line : Word
  entering : Bool
  memorySize : Word
  deriving DecidableEq, Repr

/-- How an operand is read: the value of `*`, whether it may have an index, whether its symbols
must be defined further up, and what it is used as. -/
structure Usage where
  star : Word
  indexed : Bool := false
  ordered : Bool := false
  check : Check := .none
  deriving DecidableEq, Repr

/-- A row of values, each with the operator before it. -/
abbrev Chain := List (Operator × Word)

/-- Terms and the operators between them. -/
structure Stack where
  terms : Array Word := #[]
  operators : Array Operator := #[]
  deriving DecidableEq, Repr

namespace Stack

/-- The stack of a term and those behind it. -/
def of (first : Word) (rest : Chain) : Stack :=
  ⟨(first :: rest.map Prod.snd).toArray, (rest.map Prod.fst).toArray⟩

/-- The stack of a row of terms; a minus in front takes the first one away from zero. -/
def ofChain : Chain → Stack
  | [] => {}
  | (.sub, v) :: rest => of 0 ((.sub, v) :: rest)
  | (_, v) :: rest => of v rest

/-- Puts a value in place of the terms at a position and behind it, and takes out the operator
between them. -/
def collapse (s : Stack) (i : Nat) (v : Word) : Except Fault Stack := do
  let terms ← assign s.terms i v
  let before ← slice terms 0 (i + 1)
  let behind ← slice terms (i + 2) terms.size
  let firsts ← slice s.operators 0 i
  let lasts ← slice s.operators (i + 1) s.operators.size
  pure ⟨before ++ behind, firsts ++ lasts⟩

/-- Looks at the operator at a position: a multiplication or division is carried out and the position
stays, any other operator is passed over. There is no stack if a divisor is zero. -/
def round (s : Stack) (i : Nat) : Except Fault (Option (Stack × Nat)) := do
  match ← fetch s.operators i with
  | .mul =>
    let v := (← fetch s.terms i) * (← fetch s.terms (i + 1))
    pure (some (← s.collapse i v, i))
  | .div =>
    let divisor ← fetch s.terms (i + 1)
    if divisor == 0 then pure none
    else
      let v ← (← fetch s.terms i).quotient divisor
      pure (some (← s.collapse i v, i))
  | _ => pure (some (s, i + 1))

/-- Carries out the multiplications and divisions from a position on, where so many operators are
left. -/
def carryOut : Nat → Stack → Nat → Except Fault (Option Stack)
  | 0, s, _ => pure (some s)
  | left + 1, s, i => do
    match ← s.round i with
    | none => pure none
    | some (s, i) => carryOut left s i

/-- Adds up the terms from the first on. -/
def sum (s : Stack) : Except Fault Word := do
  let add (acc : Word) (item : Operator × Nat) : Except Fault Word := do
    match item.1 with
    | .add => pure (acc + (← fetch s.terms (item.2 + 1)))
    | .sub => pure (acc - (← fetch s.terms (item.2 + 1)))
    | _ => pure acc
  s.operators.toList.zipIdx.foldlM add (← fetch s.terms 0)

/-- Folds a stack in place to one value; there is none if a divisor is zero. -/
def fold (s : Stack) : Except Fault (Option Word) := do
  match ← carryOut s.operators.size s 0 with
  | none => pure none
  | some s => some <$> s.sum

end Stack

/-- The value of a term. -/
def Term.value (scope : Scope) (usage : Usage) (table : SymbolTable) : Term → Resolution
  | star => ⟨usage.star, table, []⟩
  | literal n => ⟨n, table, []⟩
  | symbol name => table.lookup name scope.line usage.ordered scope.head scope.entering

/-- The values of terms up to the first that is none, for which there are no values. -/
structure Values where
  chain : Option Chain
  table : SymbolTable
  reports : List (Report Cause) := []

/-- The values of a row of terms, from left to right. -/
def valuesOf (scope : Scope) (usage : Usage) : SymbolTable → List (Operator × Text) → Values
  | table, [] => ⟨some [], table, []⟩
  | table, (op, t) :: rest =>
    match Term.read? table.divide t with
    | none => ⟨none, table, []⟩
    | some term =>
      let r := term.value scope usage table
      let vs := valuesOf scope usage r.table rest
      ⟨vs.chain.map ((op, r.value) :: ·), vs.table, r.reports ++ vs.reports⟩

/-- The value and the index of an operand, the table with its references noted, and what there is
to report. `fault` is why there is no answer; the value is a stand-in then. -/
structure Evaluation where
  value : Word
  index : Index := {}
  table : SymbolTable
  reports : List (Report Cause) := []
  fault : Option Fault := none
  deriving DecidableEq, Repr

/-- The index behind an operand, if it may have one. -/
def cutIndex (indexed : Bool) (operand index : Text) : Except Fault (Index × List (Report Cause)) :=
  if !indexed || index.isEmpty then pure ({}, [])
  else if isIndex index then do
    let i ← Index.cut operand.toArray index.toArray
    pure (i, [])
  else pure ({}, [error (.invalidIndex index)])

/-- Evaluates an operand that is not blank. A lone minus is zero. -/
def evaluateTerms (scope : Scope) (usage : Usage) (table : SymbolTable) (operand : Text) :
    Except Fault Evaluation := do
  let e ← Expression.cut table.divide operand.toArray
  if e.terms.isEmpty then pure { value := 0, table }
  else
    let vs := valuesOf scope usage table e.terms
    let fail (reports : List (Report Cause)) : Except Fault Evaluation :=
      pure { value := 0, table := vs.table, reports }
    match vs.chain with
    | none => fail (vs.reports ++ [error (.invalidOperand operand)])
    | some chain =>
      let refused :=
        if !e.index.isEmpty && !usage.indexed then [error (.indexNotSupported e.index)] else []
      let reports := vs.reports ++ refused
      if e.dangling then fail (reports ++ [error (.invalidOperand operand)])
      else match ← (Stack.ofChain chain).fold with
        | none => fail (reports ++ [error .divideByZero])
        | some v =>
          let (checked, verdict) := usage.check.apply scope.memorySize v
          let (index, wrong) ← cutIndex usage.indexed operand e.index
          pure { value := checked, index, table := vs.table, reports := reports ++ verdict ++ wrong }

/-- Evaluates an operand. A blank operand is zero. -/
def evaluateIn (scope : Scope) (usage : Usage) (table : SymbolTable) (operand : Text) :
    Evaluation :=
  if operand.isBlank then { value := 0, table }
  else match evaluateTerms scope usage table operand with
    | .ok e => e
    | .error f => { value := 0, table, fault := some f }

end SpsAssembler
