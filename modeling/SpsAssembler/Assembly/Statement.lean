import SpsAssembler.Assembly.State
import SpsAssembler.Catalog.Table
import SpsAssembler.Source.Reading

/-!
# Statements

A line becomes a statement by the description of its operation, which also says how the operand
text is cut. A line that cannot be understood becomes a statement of the unknown kind.

* `Statement`, `Statement.operand`;
* `splitOperands`: the operands of an operand text;
* `parse`: the statement of a line.
-/

namespace SpsAssembler

/-- A line with the description of its operation and its operands. -/
structure Statement where
  line : Line
  descriptor : Descriptor := Descriptor.unknown
  operands : List Text := []
  deriving DecidableEq, Repr

namespace Statement

/-- The label of a statement. -/
def label (s : Statement) : Text := s.line.label

/-- The kind of a statement. -/
def kind (s : Statement) : Kind := s.descriptor.kind

/-- The operand at a place, empty when it is absent. -/
def operand (s : Statement) (i : Nat) : Text :=
  if h : i < s.operands.length then s.operands[i] else []

end Statement

/-- The largest number of operands of a row of addresses. -/
def maxAddressOperands : Nat := 10

/-- Cuts `length,text,address`: the text is taken as it stands, commas and blanks included, for as
many characters as the length says. -/
def splitText (text : Text) : Step (List Text) := do
  match text.findIdx? (· == Byte.comma) with
  | none => pure [Text.strip text, [], []]
  | some comma =>
    let chars := text.toArray
    let length := Text.strip (← settle (slice chars 0 comma)).toList
    let a ← get
    let n ← evaluateQuietly length { star := a.last, ordered := true }
    let start := comma + 1
    let stop : Int :=
      if 0 ≤ n && n < Int64.ofNat (chars.size - start) then start + n.toInt else chars.size
    let value := (← settle (slice chars start stop)).toList
    if stop = chars.size then pure [length, value, []]
    else
      let behind := (Text.fields Byte.comma (← settle (slice chars stop chars.size)).toList).toArray
      let first ← settle (fetch behind 0)
      reportIf (!first.isBlank) (error .operandTextTooLong)
      if 1 < behind.size then
        let address ← settle (fetch behind 1)
        pure [length, value, Text.strip address]
      else pure [length, value, []]

/-- Cuts a row of addresses. -/
def splitAddresses (text : Text) : Step (List Text) := do
  let parts := text.fields Byte.comma
  if maxAddressOperands < parts.length then
    report [error (.tooManyOperands maxAddressOperands)]
    let parts ← settle (slice parts.toArray 0 maxAddressOperands)
    pure (parts.toList.map Text.strip)
  else pure (parts.map Text.strip)

/-- Cuts a fixed number of operands; what is missing is empty and what is left over is dropped. -/
def splitFixed (n : Nat) (text : Text) : List Text :=
  let parts := text.fields Byte.comma
  (List.range n).map fun i => if h : i < parts.length then Text.strip parts[i] else []

/-- The operands of an operand text. -/
def splitOperands (d : Descriptor) (text : Text) : Step (List Text) :=
  match d.kind with
  | .dac | .dsac => splitText text
  | .dsa => splitAddresses text
  | _ => pure (splitFixed d.operands text)

/-- What is wrong with an operation that is not in the catalog, by its first character. -/
def unknownOperation (first : Byte) (operation : Text) : Cause :=
  if first.isDigit then .invalidNumericOperation operation else .invalidOperation operation

/-- The statement of a line. -/
def parse (line : Line) : Step Statement := do
  let a ← get
  if line.invalid then
    report [error .invalidCharacters]
    pure { line }
  else if a.ending != .running then pure { line }
  else if line.comment then pure { line, descriptor := Descriptor.comment }
  else if line.operation.isBlank then
    report [error .missingOperation]
    pure { line }
  else match Descriptor.find? line.operation with
    | none =>
      let first ← settle (fetch line.operation.toArray 0)
      report [error (unknownOperation first line.operation)]
      pure { line }
    | some descriptor =>
      reportIf (descriptor.model == .two && a.options.model != .two)
        (warning (.needsModel2 line.operation))
      let operands ← splitOperands descriptor line.operands
      pure { line, descriptor, operands }

end SpsAssembler
