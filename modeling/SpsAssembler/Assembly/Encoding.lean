import SpsAssembler.Assembly.Placement
import SpsAssembler.Machine.Constant

/-!
# Encoding of statements

The cells of a statement, built once it is placed.

* `encodeP`, `encodeQ`: the operands of an instruction;
* `encodeConstant`, `encodeAddresses`, `encodeDisk`, `encodeFields`, `encodeInstruction`: the cells of
  the kinds of statements;
* `encode`: the cells of a statement.
-/

namespace SpsAssembler

/-- Reports what is wrong with a constant. -/
def ConstantError.cause : ConstantError → Cause
  | invalidValue text => .invalidConstant text
  | tooLarge => .constantOverflow

/-- The cells of a constant, after reporting what is wrong with it. -/
def constantCells (c : Except Fault Constant) : Build Value := do
  let c ← MonadExcept.ofExcept c
  report (c.error.toList.map fun e => error e.cause)
  pure c.cells

/-- An alphameric constant, its first cell flagged. -/
def encodeAlpha (s : Statement) (p : Placement) : Build Value := do
  if 0 < p.length then
    let cells ← constantCells (encodeText (p.length / 2) (s.operand 1))
    pure (cells.flag 0)
  else pure []

/-- Whether a numeric constant is a record mark alone. -/
def isMarkAlone (length : Word) (cells : Value) : Except Fault Bool :=
  if 1 < length then pure false else (· == Cell.recordMark) <$> fetch cells.toArray 0

/-- A numeric constant. Its first cell is flagged, unless it is a record mark alone. -/
def encodeConstant (s : Statement) (p : Placement) : Build Value := do
  if p.length = 0 then pure []
  else
    let cells ← constantCells (encodeNumber p.length false (s.operand 1))
    let alone ← MonadExcept.ofExcept (isMarkAlone p.length cells)
    pure (if alone then cells else cells.flag 0)

/-- A numeric constant with flags of its own. -/
def encodeSpecial (s : Statement) (p : Placement) : Build Value := do
  if p.length = 0 then pure []
  else constantCells (encodeNumber p.length true (s.operand 1))

/-- Writes an address and its index into the field that ends at `i`. -/
def putAddress (v : Value) (i : Word) (flagFirst : Bool) (address : Word) (index : Index) : Value :=
  (v.setField i 5 flagFirst address).setIndexFlags i index.register

/-- Numeric blanks. -/
def encodeBlanks (p : Placement) : Build Value := do
  if 0 < p.length then
    let n ← MonadExcept.ofExcept (allocate p.length)
    pure (List.replicate n Cell.numericBlank)
  else pure []

/-- The end of the longest octal table. -/
def encodeOctal (p : Placement) : Build Value := do
  let table := (octalTable maxOctalPower).toArray
  let cells ← MonadExcept.ofExcept (slice table (table.size - p.length.toInt) table.size)
  pure cells.toList

/-- Writes a row of addresses, as fields of five digits. -/
def putAddresses (s : Statement) (p : Placement) (cells : Value) : Step Value := do
  let indexed := (← get).indexed
  let put (v : Value) (item : Text × Nat) : Step Value := do
    let (address, index) ← evaluate item.1 { star := p.star, indexed, check := .reference }
    pure (putAddress v (Int64.ofNat (5 * item.2 + 4)) true address index)
  s.operands.zipIdx.foldlM put cells

/-- A row of addresses. -/
def encodeAddresses (s : Statement) (p : Placement) : Build Value := do
  let n ← MonadExcept.ofExcept (allocate p.length)
  putAddresses s p (List.replicate n 0)

/-- The highest disk sector. -/
def maxSector : Nat := 79999

/-- The largest number of disk sectors. -/
def maxSectorCount : Nat := 200

/-- The sector operand of a disk control field. -/
def sectorOperand (operand : Text) : Step Word := do
  let (sector, _) ← evaluate operand { star := 0, check := .positive }
  if Int64.ofNat maxSector < sector then
    report [error (.sectorTooLarge maxSector)]
    pure (Int64.ofNat maxSector)
  else pure sector

/-- The number of sectors of a disk control field. -/
def sectorCountOperand (operand : Text) : Step Word := do
  let (count, _) ← evaluate operand { star := 0, check := .positive }
  if count = 0 then
    report [error .sectorCountZero]
    pure 1
  else if Int64.ofNat maxSectorCount < count then
    report [error (.sectorCountTooLarge maxSectorCount)]
    pure (Int64.ofNat maxSectorCount)
  else pure count

/-- A disk control field: drive, sector, number of sectors and core address. -/
def encodeDisk (s : Statement) : Step Value := do
  let (drive, _) ← evaluate (s.operand 1) { star := 0, check := .positive }
  let sector ← sectorOperand (s.operand 2)
  let count ← sectorCountOperand (s.operand 3)
  let address ← evaluateLayout (s.operand 4) .addressEven
  let v : Value := List.replicate diskLength.toNatClampNeg 0
  let v := v.setField 0 1 false drive
  let v := v.setField 5 5 true sector
  let v := v.setField 8 3 true count
  pure (v.setField 13 5 true address)

/-- The fields of a variable constant, one behind the other; `stop` is where the last one ended. -/
def encodeFieldsFrom (s : Statement) : List (Word × Nat) → Word → Value → Step Value
  | [], _, v => pure v
  | (width, j) :: rest, stop, v => do
    let (n, _) ← evaluate (s.operand (2 + 2 * j)) { star := 0, check := .double }
    encodeFieldsFrom s rest (stop + width) (v.setField (stop + width) width true n)

/-- A variable constant. -/
def encodeFields (s : Statement) (p : Placement) : Build Value := do
  if p.length = 0 then pure []
  else
    let n ← MonadExcept.ofExcept (allocate p.length)
    encodeFieldsFrom s p.widths.zipIdx (-1) (List.replicate n 0)

/-- The operand that lists the flags of an instruction. -/
def flagsOperand (s : Statement) : Text :=
  if s.descriptor.q == .referenceBit then s.operand 3 else s.operand 2

/-- The P operand. With a flag on digit 6 its address may be odd or even. -/
def encodeP (s : Statement) (star : Word) : Step (Word × Index) := do
  let indexed := (← get).indexed
  let op := s.operand 0
  let free := (flagsOperand s).contains '6'.toUInt8
  let read (check : Check) := evaluate op { star, indexed, check }
  match s.descriptor.p with
  | .none =>
    reportIf (!op.isBlank) (warning (.pIgnored op))
    pure (0, {})
  | .reference => read .reference
  | .referenceEven => read (if free then .reference else .referenceEven)
  | .referenceOdd => read (if free then .reference else .referenceOdd)
  | .value => read .value

/-- The Q field codes of a skip before printing, by channel. -/
def skipCodes : List Word := [971, 972, 973, 974, 975, 976, 977, 978, 979, 970, 933, 934]

/-- The Q field codes of a skip after printing, by channel. -/
def skipAfterCodes : List Word := [941, 942, 943, 944, 945, 946, 947, 948, 949, 940, 903, 904]

/-- The Q field codes of spacing before printing, by lines. -/
def spaceCodes : List Word := [951, 952, 953]

/-- The Q field codes of spacing after printing, by lines. -/
def spaceAfterCodes : List Word := [921, 962, 963]

/-- The code that a selector from 1 on names. -/
def selectCode (codes : List Word) (outOfRange : Nat → Word → Cause) (operand : Text)
    (star : Word) : Step (Word × Index) := do
  let (n, _) ← evaluate operand { star }
  if 1 ≤ n && n ≤ Word.ofLength codes then
    let code ← settle (fetch codes.toArray (n - 1).toInt)
    pure (code, {})
  else
    report [error (outOfRange codes.length n)]
    pure (0, {})

/-- A bit number before an address of four digits. -/
def bitAddress (s : Statement) (star : Word) : Step (Word × Index) := do
  let (q, _) ← evaluate (s.operand 1) { star }
  let (bit, _) ← evaluate (s.operand 2) { star := 0, check := .positive }
  let d := bit % 10
  if 10000 ≤ Value.magnitude q then
    report [error (.bitAddressTooLarge q)]
    pure (0, {})
  else if q < 0 then pure (-(10000 * d - q), {})
  else pure (10000 * d + q, {})

/-- The Q operand. -/
def encodeQ (s : Statement) (star : Word) : Step (Word × Index) := do
  let indexed := (← get).indexed
  let op := s.operand 1
  match s.descriptor.q with
  | .none =>
    reportIf (!op.isBlank) (warning (.qIgnored op))
    pure (0, {})
  | .reference => evaluate op { star, indexed, check := .reference }
  | .referenceBit => bitAddress s star
  | .immediate => evaluate op { star, check := .value }
  | .immediateIndex | .value => evaluate op { star, indexed, check := .value }
  | .skip => selectCode skipCodes .skipOutOfRange op star
  | .skipAfter => selectCode skipAfterCodes .skipOutOfRange op star
  | .space => selectCode spaceCodes .spaceOutOfRange op star
  | .spaceAfter => selectCode spaceAfterCodes .spaceOutOfRange op star
  | .literal =>
    if op.isBlank then pure (Int64.ofNat s.descriptor.qDefault, {})
    else
      report [warning (.qOverrides op)]
      evaluate op { star }

/-- Writes the Q field. An immediate operand flags its first digit, and one without flags of its
own has no index. -/
def putQ (s : Statement) (v : Value) (q : Word) (index : Index) : Value :=
  match s.descriptor.q with
  | .immediate =>
    if (s.operand 2).isBlank then v.setField Field.q 5 true q
    else putAddress v Field.q false q index
  | .immediateIndex => putAddress v Field.q true q index
  | _ => putAddress v Field.q false q index

/-- The twelve cells of an instruction. -/
def buildInstruction (s : Statement) (p : Placement) : Step Value := do
  let v := bareInstruction (Int64.ofNat s.descriptor.opcode)
  let (pValue, pIndex) ← encodeP s p.star
  let v := putAddress v Field.p false pValue pIndex
  let (qValue, qIndex) ← encodeQ s p.star
  let v := putQ s v qValue qIndex
  match v.setFlags (flagsOperand s) with
  | some v => pure v
  | none =>
    report [error (.invalidFlags (flagsOperand s))]
    pure v

/-- An instruction; some instructions are stored without their last cells. -/
def encodeInstruction (s : Statement) (p : Placement) : Build Value := do
  let cells ← buildInstruction s p
  let stored ← MonadExcept.ofExcept (slice cells.toArray 0 p.length.toInt)
  pure stored.toList

/-- The cells of a statement; most statements have none. -/
def encode (s : Statement) (p : Placement) : Build Value := do
  match s.kind with
  | .dac | .dsac => encodeAlpha s p
  | .dc => encodeConstant s p
  | .dsc => encodeSpecial s p
  | .dnb => encodeBlanks p
  | .dgm => pure [Cell.groupMark]
  | .dot => encodeOctal p
  | .dsa => encodeAddresses s p
  | .dda => encodeDisk s
  | .dvlc => encodeFields s p
  | .instruction => encodeInstruction s p
  | _ => pure []

end SpsAssembler
