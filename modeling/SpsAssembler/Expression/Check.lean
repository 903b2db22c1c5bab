import SpsAssembler.Diagnostic.Cause
import SpsAssembler.Machine.Cell

/-!
# Checks of operand values

An evaluated operand is checked for what it is used as. Checks of addresses and values put a wrong
value right and report an error; checks of references only warn, since such operands may be changed
after loading.

* `Check`, `Check.apply`.
-/

namespace SpsAssembler

/-- What an operand is used as. -/
inductive Check where
  | none
  | address
  | addressEven
  | addressOdd
  | reference
  | referenceEven
  | referenceOdd
  | value
  | positive
  | double
  deriving DecidableEq, Repr

/-- The largest value of a field of five digits. -/
def maxValue : Word := 99999

/-- The largest value of a field of ten digits. -/
def maxDoubleValue : Word := 9999999999

namespace Check

/-- A value and what was reported about it. -/
abbrev Verdict := Word × List (Report Cause)

/-- Whether a word is odd. -/
def isOdd (v : Word) : Bool := v &&& 1 == 1

/-- Corrects a value that has a fault, reporting it. -/
def correct (faulty : Word → Bool) (cause : Word → Cause) (mend : Word → Word) (v : Verdict) :
    Verdict :=
  if faulty v.1 then (mend v.1, v.2 ++ [error (cause v.1)]) else v

/-- Warns of a value that has a fault. -/
def caution (faulty : Word → Bool) (cause : Word → Cause) (v : Verdict) : Verdict :=
  if faulty v.1 then (v.1, v.2 ++ [warning (cause v.1)]) else v

/-- Replaces an address beyond core. -/
def inCore (size default : Word) : Verdict → Verdict :=
  correct (fun v => size ≤ v) .addressTooLarge fun _ => default

/-- Replaces a negative address by its magnitude. -/
def notNegative : Verdict → Verdict := correct (· < 0) .addressNotPositive (- ·)

/-- Warns of an address beyond core. -/
def nearCore (size : Word) : Verdict → Verdict :=
  caution (fun v => size ≤ Value.magnitude v) .addressTooLarge

/-- Replaces a value that is too large by zero. -/
def upTo (limit : Word) : Verdict → Verdict :=
  correct (fun v => limit < Value.magnitude v) .valueTooLarge fun _ => 0

/-- Checks a value on a machine with `size` cells. -/
def apply (check : Check) (size v : Word) : Verdict :=
  match check with
  | none => (v, [])
  | address => inCore size 0 (notNegative (v, []))
  | addressEven => inCore size 0 (correct isOdd .addressNotEven (· + 1) (notNegative (v, [])))
  | addressOdd =>
    inCore size 1 (correct (!isOdd ·) .addressNotOdd (· + 1) (notNegative (v, [])))
  | reference => nearCore size (v, [])
  | referenceEven =>
    nearCore size (caution (fun v => 0 ≤ v && isOdd v) .addressNotEven (v, []))
  | referenceOdd =>
    nearCore size (caution (fun v => 0 ≤ v && !isOdd v) .addressNotOdd (v, []))
  | value => upTo maxValue (v, [])
  | positive =>
    correct (maxValue < ·) .valueTooLarge (fun _ => 0)
      (correct (· < 0) .valueNotPositive (- ·) (v, []))
  | double => upTo maxDoubleValue (v, [])

end Check

end SpsAssembler
