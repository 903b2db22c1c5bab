import SpsAssembler.Text.Basic

/-!
# Operations

What a mnemonic stands for: its family, the rule its statements follow, the machine it needs, how
its operands are read and how its statements are listed.

* `Family`, `Kind`, `Model`, `PRule`, `QRule`, `Shape`: the parts of a description;
* `Descriptor`: the description of a mnemonic.
-/

namespace SpsAssembler

/-- The broad family of a statement. -/
inductive Family where
  | unknown
  | comment
  | declarative
  | imperative
  | control
  deriving DecidableEq, Repr

/-- The rule a statement follows. `unlisted` is the kind of no statement. -/
inductive Kind where
  | unknown
  | comment
  | dend
  | dorg
  | head
  | send
  | tcd
  | tra
  | dac
  | das
  | dc
  | dda
  | dgm
  | dnb
  | dot
  | ds
  | dsa
  | dsac
  | dsb
  | dsc
  | dss
  | dvlc
  | instruction
  | unlisted
  deriving DecidableEq, Repr

namespace Kind

/-- The kinds in their fixed order, without `unlisted`. -/
def all : List Kind :=
  [unknown, comment, dend, dorg, head, send, tcd, tra, dac, das, dc, dda, dgm, dnb, dot, ds, dsa,
   dsac, dsb, dsc, dss, dvlc, instruction]

/-- The kind at a place of the fixed order. -/
def ofNumber (n : Int) : Kind := if n < 0 then unlisted else all.getD n.toNat unlisted

/-- The name of a kind. -/
def name : Kind → String
  | unknown => "????"
  | comment => "*"
  | dend => "DEND"
  | dorg => "DORG"
  | head => "HEAD"
  | send => "SEND"
  | tcd => "TCD"
  | tra => "TRA"
  | dac => "DAC"
  | das => "DAS"
  | dc => "DC"
  | dda => "DDA"
  | dgm => "DGM"
  | dnb => "DNB"
  | dot => "DOT"
  | ds => "DS"
  | dsa => "DSA"
  | dsac => "DSAC"
  | dsb => "DSB"
  | dsc => "DSC"
  | dss => "DSS"
  | dvlc => "DVLC"
  | instruction => "<inst>"
  | unlisted => "unknown"

end Kind

/-- The machine model. -/
inductive Model where
  | any
  | one
  | two
  deriving DecidableEq, Repr

namespace Model

/-- The model of a number; other numbers are any model. -/
def ofNumber (n : Int) : Model := if n = 1 then one else if n = 2 then two else any

/-- The name of a model. -/
def name : Model → String
  | any => "any"
  | one => "model 1"
  | two => "model 2"

end Model

/-- How the P operand of an instruction is read. -/
inductive PRule where
  | none
  | reference
  | referenceEven
  | referenceOdd
  | value
  deriving DecidableEq, Repr

/-- How the Q operand of an instruction is read. A literal is used unless the source overrides
it. -/
inductive QRule where
  | none
  | reference
  | referenceBit
  | immediate
  | immediateIndex
  | value
  | skip
  | skipAfter
  | space
  | spaceAfter
  | literal
  deriving DecidableEq, Repr

/-- How a statement is listed. -/
inductive Shape where
  | unknown
  | comment
  | control
  | address
  | instruction
  | short2
  | short7
  | data
  | reserve1
  | reserve2
  deriving DecidableEq, Repr

/-- The description of a mnemonic. -/
structure Descriptor where
  mnemonic : Text
  family : Family
  kind : Kind
  model : Model := .any
  opcode : Nat := 0
  operands : Nat := 0
  p : PRule := .none
  q : QRule := .none
  qDefault : Nat := 0
  shape : Shape
  deriving DecidableEq, Repr

namespace Descriptor

/-- The description of lines that cannot be processed. -/
def unknown : Descriptor :=
  { mnemonic := ascii "????", family := .unknown, kind := .unknown, shape := .unknown }

/-- The description of comments and blank lines. -/
def comment : Descriptor :=
  { mnemonic := ascii "*", family := .comment, kind := .comment, shape := .comment }

/-- A control operation. -/
def control (mnemonic : String) (kind : Kind) (operands : Nat) (shape : Shape) : Descriptor :=
  { mnemonic := ascii mnemonic, family := .control, kind, operands, shape }

/-- A declarative operation. -/
def declare (mnemonic : String) (kind : Kind) (operands : Nat) (shape : Shape) : Descriptor :=
  { mnemonic := ascii mnemonic, family := .declarative, kind, operands, shape }

/-- An instruction of 12 digits. -/
def instr (mnemonic : String) (opcode : Nat) (p : PRule) (q : QRule) : Descriptor :=
  { mnemonic := ascii mnemonic, family := .imperative, kind := .instruction, opcode, operands := 3,
    p, q, shape := .instruction }

/-- An instruction whose Q field has a default. -/
def instrQ (mnemonic : String) (opcode : Nat) (p : PRule) (qDefault : Nat) : Descriptor :=
  { instr mnemonic opcode p .literal with qDefault }

/-- The same operation, only on a model 2. -/
def onModel2 (d : Descriptor) : Descriptor := { d with model := .two }

/-- The same operation with another number of operands. -/
def withOperands (d : Descriptor) (n : Nat) : Descriptor := { d with operands := n }

/-- The same operation, listed in another shape. -/
def withShape (d : Descriptor) (s : Shape) : Descriptor := { d with shape := s }

end Descriptor

end SpsAssembler
