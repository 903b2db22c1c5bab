import SpsAssembler.Symbol.Name

/-!
# Operand expressions

An operand is a row of terms with operators between them, perhaps with a sign in front and an index
behind. Every term has at least one character: what stands where a term starts belongs to it, so
that `**3` is the location counter times three. An operand is read by position; to look outside it
is a fault.

* `Operator`, `Term`, `Term.read?`;
* `Expression`, `Expression.cut`: the terms of an operand;
* `Index`, `Index.cut`: the index behind an operand.
-/

namespace SpsAssembler

/-- What joins two terms. -/
inductive Operator where
  | add
  | sub
  | mul
  | div
  deriving DecidableEq, Repr

/-- The operator of a character. The slash is one only where it is no character of names. -/
def Operator.read? (divide : Bool) (b : Byte) : Option Operator :=
  if b == '+'.toUInt8 then some .add
  else if b == '-'.toUInt8 then some .sub
  else if b == '*'.toUInt8 then some .mul
  else if b == '/'.toUInt8 && !divide then some .div
  else none

/-- The place of a term: the location counter, a number or a symbol. -/
inductive Term where
  | star
  | literal (n : Word)
  | symbol (name : Text)
  deriving DecidableEq, Repr

/-- The term that a text spells. -/
def Term.read? (divide : Bool) (t : Text) : Option Term :=
  if t == ascii "*" then some .star
  else if t.isNumber then
    if t.digitsValue < 0x8000000000000000 then some (.literal (Int64.ofNat t.digitsValue)) else none
  else if isSymbol divide t then some (.symbol t)
  else none

/-- The parts of an operand. Each term stands with the operator before it. `dangling` means that
the operand ends in an operator, and `index` is what follows from the first bracket on. -/
structure Expression where
  terms : List (Operator × Text) := []
  dangling : Bool := false
  index : Text := []
  deriving DecidableEq, Repr

namespace Expression

/-- The start of an index. -/
def openBracket : Byte := '('.toUInt8

/-- The expression with one more term in front. -/
def cons (op : Operator) (term : Text) (e : Expression) : Expression :=
  { e with terms := (op, term) :: e.terms }

/-- Cuts an operand into terms from position `pos` on, where `left` characters are left. The term
that `pos` stands in has `op` before it and starts at `start`. -/
def cutFrom (divide : Bool) (operand : Array Byte) :
    Nat → Operator → Nat → Nat → Except Fault Expression
  | 0, op, start, pos => do
    let term ← slice operand start pos
    pure { terms := [(op, term.toList)] }
  | left + 1, op, start, pos => do
    let b ← fetch operand pos
    if b == openBracket then
      let term ← slice operand start pos
      let index ← slice operand pos operand.size
      pure { terms := [(op, term.toList)], index := index.toList }
    else match Operator.read? divide b with
      | none => cutFrom divide operand left op start (pos + 1)
      | some next =>
        let term ← slice operand start pos
        match left with
        | 0 => pure { terms := [(op, term.toList)], dangling := true }
        | left + 1 =>
          -- The character behind an operator starts a term, whatever it is.
          let e ← cutFrom divide operand left next (pos + 1) (pos + 2)
          pure (e.cons op term.toList)

/-- The expression of an operand. A minus in front takes the first term away from zero. -/
def cut (divide : Bool) (operand : Array Byte) : Except Fault Expression := do
  let b ← fetch operand 0
  if b == '-'.toUInt8 then
    if operand.size == 1 then pure {}
    else cutFrom divide operand (operand.size - 2) .sub 1 2
  else cutFrom divide operand (operand.size - 1) .add 0 1

end Expression

/-- The index register of an operand; the band is given or not. -/
structure Index where
  register : Word := 0
  band : Option Byte := none
  deriving DecidableEq, Repr

/-- Whether a text is an index such as `(3)` or `(B5)`. -/
def isIndex : Text → Bool
  | [l, d, r] => l == '('.toUInt8 && Byte.within '0' '7' d && r == ')'.toUInt8
  | [l, b, d, r] =>
    l == '('.toUInt8 && (b == 'A'.toUInt8 || b == 'B'.toUInt8) && Byte.within '0' '7' d &&
      r == ')'.toUInt8
  | _ => false

/-- The index behind an operand: its last but one character is the register. -/
def Index.cut (operand index : Array Byte) : Except Fault Index := do
  let digit ← fetch operand (operand.size - 2)
  let register := Int64.ofNat (digit - '0'.toUInt8).toNat
  if index.size == 4 then
    let band ← fetch index 1
    pure { register, band := some band }
  else pure { register }

end SpsAssembler
