import Mathlib.Algebra.GroupWithZero.Nat
import SpsAssembler.Proofs.Core
import SpsAssembler.Proofs.Layout

/-!
# How far the address counter gets

A check brings a length, a count or an address down to five digits, unless the value is the least
word, which has no magnitude. So a statement takes less than `maxStride` cells, and where it goes is
bounded by where the counter was.

* `Word.Short`, **`Check.short_apply`**: what checks make of a value;
* `Assembly.Tame`: no operand has the least word as its value;
* `Statement.isNamed`, `Situated`, **`place_situates`**: where every statement goes;
* `Ready`, `Placed`, **`place_placed`**: bounds before and after a statement.
-/

namespace SpsAssembler

/-! ## Checked values -/

/-- A number of at most five digits. -/
def Word.Short (w : Word) : Prop := 0 ≤ w.toInt ∧ w.toInt < 100000

theorem Word.short_zero : Word.Short 0 := ⟨by decide, by decide⟩

namespace Check

theorem correct_value (faulty : Word → Bool) (cause : Word → Cause) (mend : Word → Word)
    (v : Verdict) : (correct faulty cause mend v).1 = if faulty v.1 then mend v.1 else v.1 := by
  unfold correct
  split <;> rfl

theorem correct_sign {cause : Word → Cause} {v : Word} (h : v ≠ Int64.minValue) :
    0 ≤ (correct (· < 0) cause (- ·) (v, [])).1.toInt := by
  rw [correct_value]
  have hneg := Word.toInt_neg_of h
  have hzero : (0 : Word).toInt = 0 := rfl
  by_cases hv : v < 0
  · rw [if_pos (by simpa using hv)]
    rw [Int64.lt_iff_toInt_lt] at hv
    dsimp only
    omega
  · rw [if_neg (by simpa using hv)]
    rw [Int64.lt_iff_toInt_lt] at hv
    dsimp only
    omega

theorem inCore_lt {size default : Word} (hdefault : default < size) (v : Verdict) :
    (inCore size default v).1 < size := by
  unfold inCore
  rw [correct_value]
  split
  · exact hdefault
  · rename_i hv
    simpa using hv

theorem inCore_nonneg {size default : Word} (hdefault : 0 ≤ default.toInt) {v : Verdict}
    (hv : 0 ≤ v.1.toInt) : 0 ≤ (inCore size default v).1.toInt := by
  unfold inCore
  rw [correct_value]
  split
  · exact hdefault
  · exact hv

theorem correct_odd {v : Verdict} (hv : 0 ≤ v.1.toInt) :
    0 ≤ (correct (!isOdd ·) .addressNotOdd (· + 1) v).1.toInt := by
  rw [correct_value]
  split
  · rename_i heven
    have hne : v.1 ≠ Int64.maxValue := by
      intro heq
      rw [heq] at heven
      revert heven
      decide
    have hmax : v.1.toInt ≠ 2 ^ 63 - 1 := fun heq => hne (Int64.toInt_inj.mp heq)
    have hlt := v.1.toInt_lt
    have hone : (1 : Word).toInt = 1 := rfl
    rw [Word.toInt_add_of (by omega) (by omega)]
    omega
  · exact hv

/-- Checks of lengths and of addresses that name the last or the odd cell. -/
def isSafe : Check → Bool
  | positive | address | addressOdd => true
  | _ => false

/-- **A value other than the least word is short** once it is checked. -/
theorem short_apply {check : Check} (hcheck : check.isSafe = true) {size v : Word}
    (hsize : size ∈ memorySizes) (h : v ≠ Int64.minValue) : (check.apply size v).1.Short := by
  obtain ⟨hmin, hmax⟩ := toInt_of_mem_memorySizes hsize
  have hone : (1 : Word) < size := by
    rw [Int64.lt_iff_toInt_lt, show (1 : Word).toInt = 1 from rfl]
    omega
  have hzero : (0 : Word) < size := by
    rw [Int64.lt_iff_toInt_lt, show (0 : Word).toInt = 0 from rfl]
    omega
  have hsign : 0 ≤ (notNegative (v, [])).1.toInt := correct_sign h
  have hcore : ∀ w : Word, 0 ≤ w.toInt → w < size → w.Short := fun w hlo hhi => by
    rw [Int64.lt_iff_toInt_lt] at hhi
    exact ⟨hlo, by omega⟩
  cases check with
  | address => exact hcore _ (inCore_nonneg (by decide) hsign) (inCore_lt hzero _)
  | addressOdd => exact hcore _ (inCore_nonneg (by decide) (correct_odd hsign)) (inCore_lt hone _)
  | positive =>
    have hvalue : 0 ≤ (correct (· < 0) .valueNotPositive (- ·) (v, [])).1.toInt := correct_sign h
    unfold apply
    rw [correct_value]
    generalize (correct (· < 0) .valueNotPositive (- ·) (v, [])).1 = w at hvalue ⊢
    split
    · exact Word.short_zero
    · rename_i hlarge
      simp only [decide_eq_true_eq, Int64.lt_iff_toInt_lt] at hlarge
      have hlimit : maxValue.toInt = 99999 := rfl
      exact ⟨hvalue, by omega⟩
  | _ => cases hcheck

theorem addressEven_lt {size : Word} (hsize : size ∈ memorySizes) (v : Word) :
    (Check.addressEven.apply size v).1.toInt < 100000 := by
  obtain ⟨hmin, hmax⟩ := toInt_of_mem_memorySizes hsize
  have hzero : (0 : Word) < size := by
    rw [Int64.lt_iff_toInt_lt, show (0 : Word).toInt = 0 from rfl]
    omega
  have hlt := inCore_lt hzero (correct isOdd .addressNotEven (· + 1) (notNegative (v, [])))
  rw [Int64.lt_iff_toInt_lt] at hlt
  exact Int.lt_of_lt_of_le hlt hmax

end Check

/-! ## Evaluated operands -/

theorem chainOf_usage {usage usage' : Usage} (hstar : usage'.star = usage.star)
    (hordered : usage'.ordered = usage.ordered) (scope : Scope) (table : SymbolTable)
    (terms : List (Operator × Text)) :
    chainOf scope usage' table terms = chainOf scope usage table terms := by
  have hvalue : ∀ term : Term, term.value scope usage' table = term.value scope usage table := by
    intro term
    cases term <;> simp [Term.value, hstar, hordered]
  induction terms with
  | nil => rfl
  | cons first rest ih =>
    unfold chainOf
    simp only [ih, hvalue]

/-- What an operand comes to before its check depends on neither the check nor the index. -/
theorem rawValue_usage {usage usage' : Usage} (hstar : usage'.star = usage.star)
    (hordered : usage'.ordered = usage.ordered) (scope : Scope) (table : SymbolTable)
    (operand : Text) :
    rawValue scope usage' table operand = rawValue scope usage table operand := by
  unfold rawValue
  dsimp only
  rw [chainOf_usage hstar hordered]

/-- An operand that positions a statement, before it is checked. -/
def Assembly.layoutValue (a : Assembly) (operand : Text) : Option Word :=
  rawValue a.scope { star := a.last, ordered := true } a.symbols operand

/-- The machine has one of its sizes, and no operand has the least word as its value. -/
structure Assembly.Tame (operands : List Text) (a : Assembly) : Prop where
  size : a.options.memorySize ∈ memorySizes
  values : ∀ operand ∈ operands, a.layoutValue operand ≠ some Int64.minValue

open Assembly (Tame)

variable {operands : List Text} {a b : Assembly}

theorem Leads.layoutValue_eq (h : Leads .still a b) (operand : Text) :
    b.layoutValue operand = a.layoutValue operand := by
  unfold Assembly.layoutValue
  rw [h.rawValue_eq, (h.counter_eq rfl).2]

theorem Assembly.Tame.leads (h : Tame operands a) (hab : Leads .still a b) : Tame operands b where
  size := hab.frame.options ▸ h.size
  values operand hmem := by
    rw [hab.layoutValue_eq]
    exact h.values operand hmem

theorem evaluateLayout_value (operand : Text) (check : Check) (a : Assembly) :
    (evaluateLayout operand check a).1 =
      match a.layoutValue operand with
      | none => 0
      | some v => (check.apply a.options.memorySize v).1 := by
  have hraw : rawValue a.scope { star := a.last, ordered := true, check } a.symbols operand =
      a.layoutValue operand := rawValue_usage (by rfl) (by rfl) a.scope a.symbols operand
  change (evaluateIn a.scope { star := a.last, ordered := true, check } a.symbols operand).value = _
  rw [evaluateIn_value, hraw]
  rfl

theorem short_evaluateLayout (h : Tame operands a) {operand : Text} (hmem : operand ∈ operands)
    {check : Check} (hcheck : check.isSafe = true) : (evaluateLayout operand check a).1.Short := by
  have hvalue := h.values operand hmem
  rw [evaluateLayout_value]
  cases hv : a.layoutValue operand with
  | none => exact Word.short_zero
  | some v =>
    rw [hv] at hvalue
    exact Check.short_apply hcheck h.size fun heq => hvalue (by rw [heq])

theorem address_evaluateLayout (h : a.options.memorySize ∈ memorySizes) (operand : Text) :
    (evaluateLayout operand .address a).1 < a.options.memorySize := by
  have hzero : (0 : Word) < a.options.memorySize := by
    rw [Int64.lt_iff_toInt_lt, show (0 : Word).toInt = 0 from rfl]
    have hmin := (toInt_of_mem_memorySizes h).1
    omega
  rw [evaluateLayout_value]
  cases a.layoutValue operand with
  | none => exact hzero
  | some v => exact Check.inCore_lt hzero _

theorem addressEven_evaluateLayout (h : a.options.memorySize ∈ memorySizes) (operand : Text) :
    (evaluateLayout operand .addressEven a).1.toInt < 100000 := by
  rw [evaluateLayout_value]
  cases a.layoutValue operand with
  | none => exact Word.short_zero.2
  | some v => exact Check.addressEven_lt h v

theorem constantLength_value (operand : Text) (a : Assembly) : (constantLength operand a).1 =
    if maxConstantLength < (evaluateLength operand a).1 then maxConstantLength
    else (evaluateLength operand a).1 := rfl

theorem short_constantLength (h : Tame operands a) {operand : Text} (hmem : operand ∈ operands) :
    (constantLength operand a).1.Short := by
  have hn : (evaluateLength operand a).1.Short := short_evaluateLayout h hmem rfl
  rw [constantLength_value]
  split
  · exact ⟨by decide, by decide⟩
  · exact hn

/-! ## Numbers of cells -/

/-- A number of cells that a statement may take, at most ten thousand million. -/
def Word.Moderate (w : Word) : Prop := 0 ≤ w.toInt ∧ w.toInt ≤ 10000000000

namespace Word

variable {m n : Word}

theorem Short.moderate (h : n.Short) : n.Moderate := ⟨h.1, by have := h.2; omega⟩

theorem Short.moderate_mul (hm : m.Short) (hn : n.Short) : (m * n).Moderate := by
  have hlo : 0 ≤ m.toInt * n.toInt := Int.mul_nonneg hm.1 hn.1
  have hhi : m.toInt * n.toInt ≤ 100000 * 100000 :=
    Int.mul_le_mul (by have := hm.2; omega) (by have := hn.2; omega) hn.1 (by decide)
  rw [Moderate, toInt_mul_of (by omega) (by omega)]
  exact ⟨hlo, by omega⟩

theorem Short.toInt_double (h : n.Short) : (2 * n).toInt = 2 * n.toInt := by
  obtain ⟨hlo, hhi⟩ := h
  have htwo : (2 : Word).toInt = 2 := rfl
  rw [toInt_mul_of (by rw [htwo]; omega) (by rw [htwo]; omega), htwo]

theorem Short.moderate_double (h : n.Short) : (2 * n).Moderate :=
  Short.moderate_mul ⟨by decide, by decide⟩ h

theorem moderate_tailOf (n : Word) : (tailOf n).Moderate := by
  unfold tailOf
  split <;> exact ⟨by decide, by decide⟩

theorem Moderate.sub_tailOf (h : n.Moderate) : (n - tailOf n).Moderate := by
  obtain ⟨hlo, hhi⟩ := h
  have hzero : (0 : Word).toInt = 0 := rfl
  have hone : (1 : Word).toInt = 1 := rfl
  unfold tailOf
  split
  · rename_i hpos
    rw [Int64.lt_iff_toInt_lt] at hpos
    rw [Moderate, toInt_sub_of (by omega) (by omega)]
    omega
  · rw [Moderate, toInt_sub_of (by omega) (by omega)]
    omega

theorem moderate_ofLength {α : Type} {xs : List α} (h : xs.length ≤ 10000000000) :
    (ofLength xs).Moderate := by
  have hlength : (ofLength xs).toInt = xs.length := Int64.toInt_ofNat_of_lt (by omega)
  exact ⟨by omega, by omega⟩

theorem Short.sub_lt (hm : m.Short) (hn : n.Moderate) : (m - n).toInt < 100000 := by
  obtain ⟨hmlo, hmhi⟩ := hm
  obtain ⟨hnlo, hnhi⟩ := hn
  rw [toInt_sub_of (by omega) (by omega)]
  omega

end Word

/-! ## Powers and widths -/

theorem moderate_octalLength (operand : Text) (a : Assembly) :
    (octalLength operand a).1.Moderate := by
  have hall : ∀ n ∈ List.range 14, (octalTable n).length ≤ 10000000000 := by decide +kernel
  obtain ⟨power, hpower, hlength⟩ := octalLength_mem operand a
  rw [hlength]
  exact Word.moderate_ofLength (hall power (List.mem_range.mpr (Nat.lt_succ_of_le hpower)))

theorem short_mapM {f : Nat → Step Word} (hf : ∀ j, Step.Within .still (f j)) {js : List Nat}
    (hshort : ∀ j ∈ js, ∀ a, Tame operands a → (f j a).1.Short) {a : Assembly}
    (h : Tame operands a) :
    (∀ w ∈ (js.mapM f a).1, Word.Short w) ∧ (js.mapM f a).1.length = js.length := by
  induction js generalizing a with
  | nil => exact ⟨by simp [List.mapM_nil], rfl⟩
  | cons j js ih =>
    obtain ⟨hall, hlength⟩ := ih (fun k hk => hshort k (List.mem_cons_of_mem j hk)) (h.leads (hf j a))
    rw [List.mapM_cons]
    refine ⟨List.forall_mem_cons.mpr ⟨hshort j List.mem_cons_self a h, hall⟩, ?_⟩
    exact congrArg (· + 1) hlength

theorem toInt_foldl_add {widths : List Word} (h : ∀ w ∈ widths, Word.Short w) {acc : Word}
    (hlo : 0 ≤ acc.toInt) (hhi : acc.toInt + 100000 * widths.length < 2 ^ 63) :
    (widths.foldl (· + ·) acc).toInt = acc.toInt + (widths.map Int64.toNatClampNeg).sum := by
  induction widths generalizing acc with
  | nil => simp
  | cons w widths ih =>
    obtain ⟨⟨hwlo, hwhi⟩, hrest⟩ := List.forall_mem_cons.mp h
    rw [List.length_cons] at hhi
    have hsum : (acc + w).toInt = acc.toInt + w.toInt := Word.toInt_add_of (by omega) (by omega)
    have hwidth := Word.toInt_eq_clamp hwlo
    rw [List.foldl_cons, ih hrest (by omega) (by omega), List.map_cons, List.sum_cons]
    omega

theorem le_foldl_add {widths : List Word} (h : ∀ w ∈ widths, Word.Short w) {acc : Word}
    (hlo : 0 ≤ acc.toInt) (hhi : acc.toInt + 100000 * widths.length < 2 ^ 63) :
    acc.toInt ≤ (widths.foldl (· + ·) acc).toInt := by
  rw [toInt_foldl_add h hlo hhi]
  omega

theorem moderate_sum {widths : List Word} (h : ∀ w ∈ widths, Word.Short w)
    (hcount : widths.length ≤ 20) : (if maxConstantLength < widths.foldl (· + ·) 0
      then maxConstantLength else widths.foldl (· + ·) 0).Moderate := by
  have hsum : 0 ≤ (widths.foldl (· + ·) 0).toInt := by
    have hzero : (0 : Word).toInt = 0 := rfl
    exact le_foldl_add h (by omega) (by omega)
  generalize widths.foldl (· + ·) 0 = sum at hsum
  have hmax : maxConstantLength.toInt = 50 := rfl
  split
  · exact ⟨by omega, by omega⟩
  · rename_i hlong
    rw [Int64.lt_iff_toInt_lt] at hlong
    exact ⟨hsum, by omega⟩

/-! ## Placement -/

theorem placeAt_length (aligned : Bool) (check : Check) (length offset : Word) (address : Text)
    (a : Assembly) : (placeAt aligned check length offset address a).1.length = length := by
  unfold placeAt
  rw [Step.ite_apply]
  split
  · cases aligned <;> rfl
  · rfl

theorem toInt_addressCells {operands : List Text} (h : operands.length ≤ maxAddressOperands) :
    (5 * Word.ofLength operands).toInt = 5 * operands.length := by
  unfold maxAddressOperands at h
  have hn : (Word.ofLength operands).toInt = operands.length := Int64.toInt_ofNat_of_lt (by omega)
  have hfive : (5 : Word).toInt = 5 := rfl
  rw [Word.toInt_mul_of (by rw [hfive]; omega) (by rw [hfive]; omega), hfive, hn]

theorem moderate_addressCells {operands : List Text} (h : operands.length ≤ maxAddressOperands) :
    (5 * Word.ofLength operands).Moderate := by
  have hlength := toInt_addressCells h
  unfold maxAddressOperands at h
  exact ⟨by omega, by omega⟩

/-! ## Where statements go -/

/-- Which operand of a statement may name one of its cells. -/
def Kind.addressPlace? : Kind → Option Nat
  | dac | dsac | dc | dsc | dsb => some 2
  | das | dnb | dot | ds | dss => some 1
  | dgm | dda | dvlc => some 0
  | _ => none

/-- An address operand names one of the cells of the statement. -/
def Statement.isNamed (s : Statement) : Bool :=
  match s.kind.addressPlace? with
  | some i => !(s.operand i).isBlank
  | none => false

/-- The statement takes cells, and this is the operand that may name one of them. -/
def Statement.MayName (s : Statement) (address : Text) : Prop :=
  s.kind.takesCells = true ∧ s.isNamed = !address.isBlank

theorem Statement.mayName {s : Statement} {i : Nat} (h : s.kind.addressPlace? = some i) :
    s.MayName (s.operand i) := by
  refine ⟨?_, by rw [Statement.isNamed, h]⟩
  cases hk : s.kind <;> rw [hk] at h <;> first | rfl | cases h

/-- Where a statement goes, and the counter behind it: nowhere, to a new origin, on from the counter,
which may be moved to an even address before, or to where an address operand says, which leaves the
counter alone. A block stays at the counter even then. -/
inductive Situated (s : Statement) (a : Assembly) (p : Placement) (counter : Word) : Prop
  | nowhere (hlength : p.length = 0) (haddress : p.address.toInt < 100000)
      (hcounter : counter = a.counter) (htakes : s.kind.takesCells = false)
  | origin (hlength : p.length = 0) (hlo : 0 ≤ p.address.toInt)
      (hhi : p.address < a.options.memorySize) (hcounter : counter = p.address)
      (hkind : s.kind = .dorg)
  | counted (htakes : s.kind.takesCells = true) (hnamed : s.isNamed = false)
      (hlength : p.length.Moderate)
      (haddress : p.address = a.counter ∨
        Check.isOdd a.counter = true ∧ p.address = a.counter + 1)
      (hcounter : counter = p.address + p.length)
  | named (htakes : s.kind.takesCells = true) (hnamed : s.isNamed = true)
      (hlength : p.length.Moderate) (haddress : p.address.toInt < 100000)
      (hfirst : s.kind = .dss ∨ s.kind = .dsb → 0 ≤ p.address.toInt)
      (hcounter : counter = a.counter)
  | beside (hkind : s.kind = .dsb) (hlength : p.length.Moderate) (haddress : p.address = a.counter)
      (hcounter : counter = a.counter) (hnamed : s.isNamed = true)

variable {s : Statement} {p : Placement}

theorem Situated.leads {counter : Word} (hab : Leads .still a b) (h : Situated s b p counter) :
    Situated s a p counter := by
  have hcounter := (hab.counter_eq rfl).1
  cases h with
  | nowhere hlength haddress hc htakes =>
    exact .nowhere hlength haddress (hc.trans hcounter) htakes
  | origin hlength hlo hhi hc hkind =>
    exact .origin hlength hlo (hab.frame.options ▸ hhi) hc hkind
  | counted htakes hnamed hlength haddress hc =>
    exact .counted htakes hnamed hlength (hcounter ▸ haddress) hc
  | named htakes hnamed hlength haddress hfirst hc =>
    exact .named htakes hnamed hlength haddress hfirst (hc.trans hcounter)
  | beside hkind hlength haddress hc hnamed =>
    exact .beside hkind hlength (haddress.trans hcounter) (hc.trans hcounter) hnamed

theorem Situated.moderate {counter : Word} (h : Situated s a p counter) : p.length.Moderate := by
  cases h with
  | nowhere hlength => exact hlength ▸ Word.short_zero.moderate
  | origin hlength => exact hlength ▸ Word.short_zero.moderate
  | counted _ _ hlength => exact hlength
  | named _ _ hlength => exact hlength
  | beside _ hlength => exact hlength

theorem Situated.takesCells {counter : Word} (h : Situated s a p counter) (hpos : 0 < p.length.toInt) :
    s.kind.takesCells = true := by
  have hzero : (0 : Word).toInt = 0 := rfl
  cases h with
  | nowhere hlength =>
    rw [hlength] at hpos
    omega
  | origin hlength =>
    rw [hlength] at hpos
    omega
  | counted htakes => exact htakes
  | named htakes => exact htakes
  | beside hkind => rw [hkind]; rfl

/-- The step places the statement. -/
def Step.Situates (s : Statement) (operands : List Text) (x : Step Placement) : Prop :=
  ∀ a, Tame operands a → Situated s a (x a).1 (x a).2.counter

namespace Step.Situates

variable {α : Type}

theorem bind {x : Step α} {f : α → Step Placement} (hx : Step.Within .still x) {P : α → Prop}
    (hP : ∀ a, Tame operands a → P (x a).1) (hf : ∀ v, P v → Step.Situates s operands (f v)) :
    Step.Situates s operands (x >>= f) :=
  fun a h => (hf _ (hP a h) _ (h.leads (hx a))).leads (hx a)

theorem nowhere {x : Step Placement} {reach : Reach} (htakes : s.kind.takesCells = false)
    (hx : Step.Within reach x) (hreach : reach.counts = false)
    (hp : ∀ a, Tame operands a → (x a).1.length = 0 ∧ (x a).1.address.toInt < 100000) :
    Step.Situates s operands x := fun a h =>
  .nowhere (hp a h).1 (hp a h).2 ((hx a).counter_eq hreach).1 htakes

theorem map {x : Step Placement} {g : Placement → Placement} (hx : Step.Situates s operands x)
    (hlength : ∀ p, (g p).length = p.length) (haddress : ∀ p, (g p).address = p.address) :
    Step.Situates s operands (x >>= fun p => pure (g p)) := by
  intro a h
  rw [Step.bind_apply, Step.pure_apply]
  have hsituated := hx a h
  generalize (x a).1 = p at hsituated
  have hl := hlength p
  have ha := haddress p
  generalize g p = q at hl ha
  cases hsituated with
  | nowhere hlength haddress hc htakes =>
    exact .nowhere (hl ▸ hlength) (ha ▸ haddress) hc htakes
  | origin hlength hlo hhi hc hkind =>
    exact .origin (hl ▸ hlength) (ha ▸ hlo) (ha ▸ hhi) (ha ▸ hc) hkind
  | counted htakes hnamed hlength haddress hc =>
    exact .counted htakes hnamed (hl ▸ hlength) (ha ▸ haddress) (by rw [ha, hl]; exact hc)
  | named htakes hnamed hlength haddress hfirst hc =>
    exact .named htakes hnamed (hl ▸ hlength) (ha ▸ haddress) (ha ▸ hfirst) hc
  | beside hkind hlength haddress hc hnamed =>
    exact .beside hkind (hl ▸ hlength) (ha ▸ haddress) hc hnamed

end Step.Situates

theorem alignEven_counter (a : Assembly) : (alignEven a).2.counter = a.counter ∨
    Check.isOdd a.counter = true ∧ (alignEven a).2.counter = a.counter + 1 := by
  have happly : (alignEven a).2 =
      if Check.isOdd a.counter then { a with counter := a.counter + 1 } else a := rfl
  rw [happly]
  split
  · exact .inr ⟨‹_›, rfl⟩
  · exact .inl rfl

theorem placeAt_situates {aligned : Bool} {check : Check} {length offset : Word} {address : Text}
    (hname : s.MayName address) (hlength : length.Moderate)
    (haddress : ∀ a, Tame operands a →
      ((evaluateLayout address check a).1 - offset).toInt < 100000 ∧
        (s.kind = .dss ∨ s.kind = .dsb →
          0 ≤ ((evaluateLayout address check a).1 - offset).toInt)) :
    Step.Situates s operands (placeAt aligned check length offset address) := by
  intro a h
  obtain ⟨htakes, hnamed⟩ := hname
  unfold placeAt
  rw [Step.ite_apply]
  split
  · rename_i hblank
    have hcounted : s.isNamed = false := by rw [hnamed, hblank]; rfl
    cases aligned with
    | true => exact .counted htakes hcounted hlength (alignEven_counter a) rfl
    | false => exact .counted htakes hcounted hlength (.inl rfl) rfl
  · rename_i hblank
    obtain ⟨hhi, hfirst⟩ := haddress a h
    have hstill : Leads .still a (evaluateLayout address check a).2 := evaluateLayout_within a
    exact .named htakes (by simp [hnamed, hblank]) hlength hhi hfirst (hstill.counter_eq rfl).1

theorem placeAt_situates_safe {aligned : Bool} {check : Check} {length offset : Word}
    {address : Text} (hname : s.MayName address) (hlength : length.Moderate)
    (hoffset : offset.Moderate) (hcheck : check.isSafe = true) (hmem : address ∈ operands)
    (hfirst : s.kind = .dss ∨ s.kind = .dsb → offset = 0) :
    Step.Situates s operands (placeAt aligned check length offset address) := by
  refine placeAt_situates hname hlength fun a h => ?_
  have hshort : (evaluateLayout address check a).1.Short := short_evaluateLayout h hmem hcheck
  refine ⟨hshort.sub_lt hoffset, fun hkind => ?_⟩
  rw [hfirst hkind, Int64.sub_zero]
  exact hshort.1

theorem placeEnd_situates (htakes : s.kind.takesCells = false) :
    Step.Situates s operands (placeEnd s) := by
  refine .nowhere htakes (placeEnd_within s) rfl fun a h => ⟨rfl, ?_⟩
  exact addressEven_evaluateLayout (a := (unexpectedLabel s { a with ending := .ended }).2) h.size _

theorem placeOrigin_situates (hkind : s.kind = .dorg) (h0 : s.operand 0 ∈ operands) :
    Step.Situates s operands (placeOrigin s) := by
  intro a h
  have hshort : (evaluateLayout (s.operand 0) .address a).1.Short := short_evaluateLayout h h0 rfl
  exact .origin rfl hshort.1 (address_evaluateLayout h.size _) rfl hkind

theorem placeBlock_situates (hkind : s.kind = .dsb) (hname : s.MayName (s.operand 2))
    (h0 : s.operand 0 ∈ operands) (h1 : s.operand 1 ∈ operands) :
    Step.Situates s operands (placeBlock s) := by
  obtain ⟨htakes, hnamed⟩ := hname
  refine .bind evaluateLength_within (fun a h => short_evaluateLayout h h0 rfl) fun size hsize =>
    .bind evaluateLength_within (fun a h => short_evaluateLayout h h1 rfl) fun count hcount => ?_
  have hlength := hsize.moderate_mul hcount
  intro a h
  rw [Step.ite_apply]
  split
  · rename_i hblank
    exact .counted htakes (by rw [hnamed, hblank]; rfl) hlength (.inl rfl) rfl
  · rename_i hblank
    rw [Step.bind_apply, Step.get_apply, Step.bind_apply, Step.pure_apply]
    have hstill : Leads .still a (evaluateLayout (s.operand 2) .address a).2 :=
      evaluateLayout_within a
    exact .beside hkind hlength rfl (hstill.counter_eq rfl).1 (by simp [hnamed, hblank])

theorem placeAddresses_situates (hkind : s.kind = .dsa)
    (hs : s.operands.length ≤ maxAddressOperands) :
    Step.Situates s operands (placeAddresses s) := by
  have hlength : (5 * Word.ofLength s.operands).Moderate := moderate_addressCells hs
  have hnamed : s.isNamed = false := by rw [Statement.isNamed, hkind]; rfl
  exact fun a _ => .counted (by rw [hkind]; rfl) hnamed hlength (.inl rfl) rfl

theorem widths_within (s : Statement) : Step.Within .still
    ((List.range maxFields).mapM fun j => evaluateLength (s.operand (1 + 2 * j))) :=
  .mapM (fun _ => evaluateLength_within) _

theorem short_widths {a : Assembly} (h : Tame operands a)
    (h1 : ∀ j ∈ List.range maxFields, s.operand (1 + 2 * j) ∈ operands) :
    (∀ w ∈ ((List.range maxFields).mapM (fun j => evaluateLength (s.operand (1 + 2 * j))) a).1,
      Word.Short w) ∧
    ((List.range maxFields).mapM (fun j => evaluateLength (s.operand (1 + 2 * j))) a).1.length =
      20 := by
  obtain ⟨hshort, hlength⟩ := short_mapM
    (fun j => (evaluateLength_within : Step.Within .still (evaluateLength (s.operand (1 + 2 * j)))))
    (fun j hj b hb => short_evaluateLayout hb (h1 j hj) rfl) h
  exact ⟨hshort, hlength.trans List.length_range⟩

theorem placeFields_situates (hkind : s.kind = .dvlc) (h0 : s.operand 0 ∈ operands)
    (h1 : ∀ j ∈ List.range maxFields, s.operand (1 + 2 * j) ∈ operands) :
    Step.Situates s operands (placeFields s) := by
  refine .bind (P := fun widths => (∀ w ∈ widths, Word.Short w) ∧ widths.length = 20)
    (widths_within s) (fun a h => short_widths h h1) fun widths hwidths => ?_
  obtain ⟨hshort, hlen⟩ := hwidths
  have hlength := moderate_sum hshort (by omega)
  have hfirst : (widths.headD 0).Short := by
    cases widths with
    | nil => exact Word.short_zero
    | cons w widths => exact hshort w List.mem_cons_self
  refine .bind (P := fun _ => True) (reportIf_within _ rfl) (fun _ _ => trivial) fun _ _ => ?_
  refine .map ?_ (fun _ => rfl) (fun _ => rfl)
  exact placeAt_situates_safe (Statement.mayName (by rw [hkind]; rfl)) hlength
    hfirst.moderate.sub_tailOf rfl h0 (by simp [hkind])

theorem placeInstruction_situates (hkind : s.kind = .instruction) :
    Step.Situates s operands (placeInstruction s) := by
  have hlength : s.descriptor.shape.instructionLength.Moderate := by
    cases s.descriptor.shape <;> exact ⟨by decide, by decide⟩
  have hnamed : s.isNamed = false := by rw [Statement.isNamed, hkind]; rfl
  exact fun a _ => .counted (by rw [hkind]; rfl) hnamed hlength (alignEven_counter a) rfl

theorem reported_situates {x : Step Unit} {reach : Reach} (htakes : s.kind.takesCells = false)
    (hx : Step.Within reach x) (hreach : reach.counts = false) :
    Step.Situates s operands (x >>= fun _ => pure {}) :=
  .nowhere htakes (.bind hx fun _ => .pure _) hreach fun _ _ => ⟨rfl, Word.short_zero.2⟩

theorem measured_situates {x : Step Word} (hx : Step.Within .still x)
    (hshort : ∀ a, Tame operands a → (x a).1.Short) {aligned : Bool} {check : Check}
    {length offset : Word → Word} {address : Text} (hname : s.MayName address)
    (hmem : address ∈ operands) (hcheck : check.isSafe = true)
    (hn : ∀ n : Word, n.Short → (length n).Moderate ∧ (offset n).Moderate)
    (hfirst : s.kind = .dss ∨ s.kind = .dsb → ∀ n, offset n = 0) : Step.Situates s operands
      (x >>= fun n => placeAt aligned check (length n) (offset n) address) :=
  .bind hx hshort fun n h =>
    placeAt_situates_safe hname (hn n h).1 (hn n h).2 hcheck hmem fun hkind => hfirst hkind n

section Measured

variable {aligned : Bool} {check : Check} {length offset : Word → Word} {address : Text}
  (h0 : s.operand 0 ∈ operands) (hname : s.MayName address) (hmem : address ∈ operands)
  (hcheck : check.isSafe = true)
  (hn : ∀ n : Word, n.Short → (length n).Moderate ∧ (offset n).Moderate)
  (hfirst : s.kind = .dss ∨ s.kind = .dsb → ∀ n, offset n = 0)

include h0 hname hmem hcheck hn hfirst

theorem constant_situates : Step.Situates s operands (constantLength (s.operand 0) >>=
    fun n => placeAt aligned check (length n) (offset n) address) :=
  measured_situates constantLength_within (fun _ h => short_constantLength h h0) hname hmem hcheck
    hn hfirst

theorem reserved_situates : Step.Situates s operands (evaluateLength (s.operand 0) >>=
    fun n => placeAt aligned check (length n) (offset n) address) :=
  measured_situates evaluateLength_within (fun _ h => short_evaluateLayout h h0 rfl) hname hmem
    hcheck hn hfirst

end Measured

/-- **Where every statement goes.** -/
theorem place_situates (s : Statement)
    (hs : s.kind = .dsa → s.operands.length ≤ maxAddressOperands) :
    Step.Situates s s.layoutOperands (place s) := by
  have hmem : ∀ i ∈ s.kind.layoutPlaces, s.operand i ∈ s.layoutOperands :=
    fun i => s.mem_layoutOperands
  have hname : ∀ i, s.kind.addressPlace? = some i → s.MayName (s.operand i) :=
    fun i => Statement.mayName
  have hpair : ∀ (address : Text) (n : Word), n.Short →
      (2 * n).Moderate ∧ (if address.isBlank then 1 else tailOf (2 * n)).Moderate := by
    intro address n h
    refine ⟨h.moderate_double, ?_⟩
    split
    · exact ⟨by decide, by decide⟩
    · exact Word.moderate_tailOf _
  have hright : ∀ n : Word, n.Short → n.Moderate ∧ (n - tailOf n).Moderate :=
    fun n h => ⟨h.moderate, h.moderate.sub_tailOf⟩
  have hleft : ∀ n : Word, n.Short → n.Moderate ∧ (0 : Word).Moderate :=
    fun n h => ⟨h.moderate, Word.short_zero.moderate⟩
  have hnowhere : s.kind.takesCells = false → Step.Situates s s.layoutOperands (pure {}) :=
    fun h => .nowhere h (.pure _ : Step.Within .still _) rfl fun _ _ => ⟨rfl, Word.short_zero.2⟩
  have hlabelled : ∀ {f : Unit → Step Placement}, Step.Situates s s.layoutOperands (f ()) →
      Step.Situates s s.layoutOperands (unexpectedLabel s >>= f) := fun hf =>
    .bind (P := fun _ => True) (unexpectedLabel_within s) (fun _ _ => trivial) fun _ _ => hf
  have hcontrol : Step.Within .still (report [warning (.unsupportedControl s.descriptor.mnemonic)]) :=
    report_within (.one rfl)
  unfold place
  cases hkind : s.kind <;> rw [hkind] at hmem hname hnowhere
  case unknown => exact hnowhere rfl
  case comment => exact hnowhere rfl
  case unlisted => exact hnowhere rfl
  case dend => exact placeEnd_situates (by rw [hkind]; rfl)
  case dorg => exact placeOrigin_situates hkind (hmem 0 (by decide))
  case head => exact hlabelled (reported_situates (by rw [hkind]; rfl) changeHead_within rfl)
  case send => exact hlabelled (reported_situates (by rw [hkind]; rfl) hcontrol rfl)
  case tcd => exact hlabelled (reported_situates (by rw [hkind]; rfl) hcontrol rfl)
  case tra => exact reported_situates (by rw [hkind]; rfl) hcontrol rfl
  case dac =>
    exact constant_situates (hmem 0 (by decide)) (hname 2 rfl) (hmem 2 (by decide)) rfl (hpair _)
      (by simp [hkind])
  case dsac =>
    exact constant_situates (hmem 0 (by decide)) (hname 2 rfl) (hmem 2 (by decide)) rfl
      (fun n h => ⟨h.moderate_double, h.moderate_double.sub_tailOf⟩) (by simp [hkind])
  case das =>
    exact reserved_situates (hmem 0 (by decide)) (hname 1 rfl) (hmem 1 (by decide)) rfl (hpair _)
      (by simp [hkind])
  case dc =>
    exact constant_situates (hmem 0 (by decide)) (hname 2 rfl) (hmem 2 (by decide)) rfl hright
      (by simp [hkind])
  case dsc =>
    exact constant_situates (hmem 0 (by decide)) (hname 2 rfl) (hmem 2 (by decide)) rfl hleft
      fun _ _ => rfl
  case dnb =>
    exact constant_situates (hmem 0 (by decide)) (hname 1 rfl) (hmem 1 (by decide)) rfl hright
      (by simp [hkind])
  case dgm =>
    have hone : (1 : Word).Moderate := ⟨by decide, by decide⟩
    exact placeAt_situates_safe (hname 0 rfl) hone hone.sub_tailOf rfl (hmem 0 (by decide))
      (by simp [hkind])
  case dot =>
    refine .bind (P := Word.Moderate) octalLength_within (fun a _ => moderate_octalLength _ a)
      fun n hlength => ?_
    exact placeAt_situates_safe (hname 1 rfl) hlength hlength.sub_tailOf rfl (hmem 1 (by decide))
      (by simp [hkind])
  case ds =>
    exact reserved_situates (hmem 0 (by decide)) (hname 1 rfl) (hmem 1 (by decide)) rfl hright
      (by simp [hkind])
  case dss =>
    exact reserved_situates (hmem 0 (by decide)) (hname 1 rfl) (hmem 1 (by decide)) rfl hleft
      fun _ _ => rfl
  case dsb =>
    exact placeBlock_situates hkind (hname 2 rfl) (hmem 0 (by decide)) (hmem 1 (by decide))
  case dsa => exact placeAddresses_situates hkind (hs hkind)
  case dda =>
    refine placeAt_situates (hname 0 rfl) ⟨by decide, by decide⟩ fun a h => ⟨?_, ?_⟩
    · rw [Int64.sub_zero]
      exact addressEven_evaluateLayout h.size _
    · simp [hkind]
  case dvlc =>
    exact placeFields_situates hkind (hmem 0 List.mem_cons_self) fun j hj =>
      hmem _ (List.mem_cons_of_mem _ (List.mem_map_of_mem hj))
  case instruction => exact placeInstruction_situates hkind

/-! ## How far the counter gets -/

/-- The most that the counter moves on one line. -/
def maxStride : Int := 10000000001

/-- A state in which a statement is placed: its operands are tame, and the counter is at most
`limit`. -/
structure Ready (operands : List Text) (limit : Int) (a : Assembly) : Prop
    extends Tame operands a where
  nonneg : 0 ≤ a.counter.toInt
  counter : a.counter.toInt ≤ limit

/-- A statement that takes a moderate number of cells, not far beyond `limit`. -/
structure Placed (limit : Int) (p : Placement) (a : Assembly) : Prop where
  length : p.length.Moderate
  address : p.address.toInt ≤ limit + 1
  nonneg : 0 ≤ a.counter.toInt
  counter : a.counter.toInt ≤ limit + maxStride

theorem toInt_of_counted {address counter : Word} (hlo : 0 ≤ counter.toInt)
    (hhi : counter.toInt ≤ 6000000000000000000) (h : address = counter ∨
      Check.isOdd counter = true ∧ address = counter + 1) :
    counter.toInt ≤ address.toInt ∧ address.toInt ≤ counter.toInt + 1 := by
  have hone : (1 : Word).toInt = 1 := rfl
  rcases h with rfl | ⟨-, rfl⟩
  · omega
  · rw [Word.toInt_add_of (by omega) (by omega)]
    omega

theorem Situated.placed {limit : Int} (hfloor : 100000 ≤ limit)
    (hceiling : limit ≤ 6000000000000000000) (h : Situated s a p b.counter)
    (hready : Ready operands limit a) : Placed limit p b := by
  have hlo := hready.nonneg
  have hhi := hready.counter
  have hzero : (0 : Word).Moderate := Word.short_zero.moderate
  obtain ⟨-, hmax⟩ := toInt_of_mem_memorySizes hready.size
  cases h with
  | nowhere hlength haddress hc =>
    exact ⟨hlength ▸ hzero, by omega, hc ▸ hlo, by rw [hc, maxStride]; omega⟩
  | origin hlength halo hahi hc =>
    rw [Int64.lt_iff_toInt_lt] at hahi
    exact ⟨hlength ▸ hzero, by omega, hc ▸ halo, by rw [hc, maxStride]; omega⟩
  | counted htakes hnamed hlength haddress hc =>
    obtain ⟨halo, hahi⟩ := toInt_of_counted hlo (by omega) haddress
    have ⟨hllo, hlhi⟩ := hlength
    have hsum : b.counter.toInt = p.address.toInt + p.length.toInt := by
      rw [hc, Word.toInt_add_of (by omega) (by omega)]
    exact ⟨hlength, by omega, by omega, by rw [maxStride]; omega⟩
  | named htakes hnamed hlength haddress hfirst hc =>
    exact ⟨hlength, by omega, hc ▸ hlo, by rw [hc, maxStride]; omega⟩
  | beside hkind hlength haddress hc =>
    exact ⟨hlength, by rw [haddress]; omega, hc ▸ hlo, by rw [hc, maxStride]; omega⟩

/-- **Every statement is placed within the bounds.** -/
theorem place_placed {limit : Int} (hfloor : 100000 ≤ limit)
    (hceiling : limit ≤ 6000000000000000000)
    (hs : s.kind = .dsa → s.operands.length ≤ maxAddressOperands)
    (h : Ready s.layoutOperands limit a) : Placed limit (place s a).1 (place s a).2 :=
  (place_situates s hs a h.toTame).placed hfloor hceiling h

end SpsAssembler
