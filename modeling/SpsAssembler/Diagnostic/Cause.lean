import SpsAssembler.Diagnostic.Log
import SpsAssembler.Text.Numeral

/-!
# What the assembler reports

Every message of the assembler by its cause, with one function for the wording.

* `Cause`, `Cause.message`;
* `error`, `warning`: reports of a cause;
* `Diagnostic.render`: a message with its severity.
-/

namespace SpsAssembler

/-- Why the assembler reports something. -/
inductive Cause where
  -- lines
  | invalidCharacters
  | missingOperation
  | invalidNumericOperation (operation : Text)
  | invalidOperation (operation : Text)
  | needsModel2 (operation : Text)
  | tooManyOperands (limit : Nat)
  | operandTextTooLong
  -- operands
  | invalidOperand (operand : Text)
  | indexNotSupported (index : Text)
  | invalidIndex (index : Text)
  | divideByZero
  | addressNotPositive (value : Word)
  | addressNotEven (value : Word)
  | addressNotOdd (value : Word)
  | addressTooLarge (value : Word)
  | valueNotPositive (value : Word)
  | valueTooLarge (value : Word)
  -- symbols
  | invalidLabel (name : Text)
  | duplicateLabel (key : Text)
  | invalidSymbol (name : Text)
  | invalidSymbolHead (head : Text)
  | undefinedSymbol (key : Text)
  | forwardReference (key : Text)
  -- statements
  | unexpectedLabel (label : Text)
  | invalidHead (head : Text)
  | unsupportedControl (mnemonic : Text)
  | outsideMemory
  | cannotStore (address : Word)
  | constantTooLong (limit : Nat)
  | totalTooLong (limit : Nat)
  | powerNegative
  | powerTooLarge (limit : Nat)
  | sectorTooLarge (limit : Nat)
  | sectorCountZero
  | sectorCountTooLarge (limit : Nat)
  | invalidConstant (text : Text)
  | constantOverflow
  | invalidFlags (digits : Text)
  | pIgnored (operand : Text)
  | qIgnored (operand : Text)
  | qOverrides (operand : Text)
  | bitAddressTooLarge (value : Word)
  | skipOutOfRange (limit : Nat) (value : Word)
  | spaceOutOfRange (limit : Nat) (value : Word)
  -- runs
  | unreadable (reason : Text)
  | beyondEnd
  | missingEnd
  deriving DecidableEq, Repr

namespace Cause

/-- A phrase with its subject in brackets. -/
def about (phrase : String) (subject : Text) : Text :=
  ascii phrase ++ ascii " (" ++ subject ++ ascii ")"

/-- A phrase with a limit at its end. -/
def beyond (phrase : String) (limit : Nat) : Text := ascii phrase ++ ascii " " ++ Text.ofNat limit

/-- The range of a selector and the value that missed it. -/
def notInRange (what : String) (limit : Nat) (value : Word) : Text :=
  ascii what ++ ascii " not in range 1 - " ++ Text.ofNat limit ++ about "" (Text.ofWord value)

/-- The wording of a cause. -/
def message : Cause → Text
  | invalidCharacters => ascii "invalid character(s) in statement"
  | missingOperation => ascii "missing operation"
  | invalidNumericOperation op => about "invalid numeric operation code" op
  | invalidOperation op => about "invalid operation" op
  | needsModel2 op => about "model 2 instruction" op
  | tooManyOperands limit => ascii "more than " ++ Text.ofNat limit ++ ascii " operands"
  | operandTextTooLong => ascii "operand value too long"
  | invalidOperand op => about "invalid operand" op
  | indexNotSupported index => ascii "indexing not supported " ++ index
  | invalidIndex index => ascii "invalid index " ++ index
  | divideByZero => ascii "divide by zero"
  | addressNotPositive v => about "address must be positive" (Text.ofWord v)
  | addressNotEven v => about "address must be even" (Text.ofWord v)
  | addressNotOdd v => about "address must be odd" (Text.ofWord v)
  | addressTooLarge v => about "address too large" (Text.ofWord v)
  | valueNotPositive v => about "value must be positive" (Text.ofWord v)
  | valueTooLarge v => about "value too large" (Text.ofWord v)
  | invalidLabel name => about "invalid label" name
  | duplicateLabel key => about "duplicate label" key
  | invalidSymbol name => about "invalid symbol" name
  | invalidSymbolHead head => about "invalid symbol head" head
  | undefinedSymbol key => about "undefined symbol" key
  | forwardReference key => about "undefined [forward reference] symbol" key
  | unexpectedLabel label => about "unexpected label" label
  | invalidHead head => about "invalid head" head
  | unsupportedControl mnemonic => about "unsupported control operation" mnemonic
  | outsideMemory => ascii "outside memory bounds"
  | cannotStore addr => about "invalid address" (Text.ofWord addr)
  | constantTooLong limit => beyond "length greater than" limit
  | totalTooLong limit => beyond "total length greater than" limit
  | powerNegative => ascii "power less than 0"
  | powerTooLarge limit => beyond "power greater than" limit
  | sectorTooLarge limit => beyond "sector address greater than" limit
  | sectorCountZero => ascii "sector count zero"
  | sectorCountTooLarge limit => beyond "sector count greater than" limit
  | invalidConstant text => about "invalid value" text
  | constantOverflow => ascii "value too large"
  | invalidFlags digits => about "invalid flags" digits
  | pIgnored op => about "P operand is ignored" op
  | qIgnored op => about "Q operand is ignored" op
  | qOverrides op => about "Q operand overrides default" op
  | bitAddressTooLarge v => about "address greater than 9999" (Text.ofWord v)
  | skipOutOfRange limit v => notInRange "skip" limit v
  | spaceOutOfRange limit v => notInRange "space" limit v
  | unreadable reason => about "error reading source file" reason
  | beyondEnd => ascii "statement(s) beyond DEND"
  | missingEnd => ascii "DEND statement missing"

end Cause

/-- An error with its cause. -/
def error (c : Cause) : Report Cause := ⟨.error, c⟩

/-- A warning with its cause. -/
def warning (c : Cause) : Report Cause := ⟨.warning, c⟩

/-- The message of a diagnostic with its severity. -/
def Diagnostic.render (d : Diagnostic Cause) : Text :=
  ascii d.severity.name ++ ascii ": " ++ d.cause.message

end SpsAssembler
