import Mathlib.Algebra.Group.Int.Defs
import Mathlib.Algebra.Group.Nat.Defs
import SpsAssembler.Proofs.AlphaCodes
import SpsAssembler.Proofs.DumpReader
import SpsAssembler.Proofs.Faultless
import SpsAssembler.Proofs.Reports

/-!
# Alphameric constants survive as they are written

The operand text of an alphameric constant names its length first, and that many bytes behind the
comma are its text, whatever they are. What follows the next comma is its address.

* `evaluateIn_number`: a numeral has its own value, and nothing is reported about it;
* `alphaOperands`, **`splitText_alpha`**: the operands of such a text;
* `Assembly.Overflows`: the constants that end beyond the largest word;
* `process_of_encode`: what processing one comes to, once it is encoded;
* **`alpha_survives`**: from the line to the cells.
-/

namespace SpsAssembler

open Assembly (Tame Utters)

/-! ## Numerals as operands -/

theorem isDigit_spec : ∀ b : Byte, b.isDigit = true → b ≠ Byte.comma ∧ b ≠ Byte.blank ∧ b ≠ Byte.tab ∧
    b ≠ '-'.toUInt8 ∧ b ≠ '*'.toUInt8 ∧ b ≠ Expression.openBracket ∧
    Operator.read? true b = none ∧ Operator.read? false b = none := forall_cell (by decide +kernel)

theorem Expression.scan_digits (divide : Bool) {t : Text} (h : ∀ b ∈ t, b.isDigit = true) :
    scan divide t = (t, {}) := by
  induction t with
  | nil => rfl
  | cons b t ih =>
    obtain ⟨-, -, -, -, -, hbracket, htrue, hfalse⟩ := isDigit_spec b (h b List.mem_cons_self)
    have hoperator : Operator.read? divide b = none := by cases divide <;> assumption
    have hrest := ih fun c hc => h c (List.mem_cons_of_mem b hc)
    unfold scan
    rw [if_neg (by simpa using hbracket), hoperator, hrest]

theorem Expression.read_digits (divide : Bool) {t : Text} (hne : t ≠ []) (h : ∀ b ∈ t, b.isDigit = true) :
    read divide t = { terms := [(.add, t)] } := by
  cases t with
  | nil => exact absurd rfl hne
  | cons b t =>
    have hminus := (isDigit_spec b (h b List.mem_cons_self)).2.2.2.1
    rw [read, if_neg (by simpa using hminus), readFrom,
      scan_digits divide fun c hc => h c (List.mem_cons_of_mem b hc)]
    rfl

section Number

variable {t : Text} (hne : t ≠ []) (h : ∀ b ∈ t, b.isDigit = true)

include hne h

theorem isBlank_digits : t.isBlank = false := by
  cases t with
  | nil => exact absurd rfl hne
  | cons b t =>
    have hblank := (isDigit_spec b (h b List.mem_cons_self)).2.1
    simp [Text.isBlank, hblank]

theorem Term.read?_digits (hvalue : t.digitsValue < 2 ^ 63) (divide : Bool) :
    read? divide t = some (.literal (Int64.ofNat t.digitsValue)) := by
  have hstar : t ≠ ascii "*" := by
    rintro rfl
    exact absurd (h '*'.toUInt8 (by decide)) (by decide)
  have hnumber : t.isNumber = true := by
    rw [Text.isNumber, Bool.and_eq_true]
    exact ⟨by simpa using hne, List.all_eq_true.mpr h⟩
  rw [read?, if_neg (by simpa using hstar), if_pos hnumber, if_pos (by omega)]

/-- **A numeral** has its own value, whatever the table holds. -/
theorem evaluateIn_number (hvalue : t.digitsValue < 2 ^ 63) (scope : Scope) {usage : Usage}
    (husage : usage.indexed = false) (table : SymbolTable) :
    evaluateIn scope usage table t =
      ⟨(usage.check.apply scope.memorySize (Int64.ofNat t.digitsValue)).1, {}, table,
        (usage.check.apply scope.memorySize (Int64.ofNat t.digitsValue)).2, none⟩ := by
  have htotal : ∀ v : Word, total [(.add, v)] = some v := by
    intro v
    simp [total, collapse, sumFrom]
  rw [evaluateIn_eq, isBlank_digits hne h, Expression.read_digits table.divide hne h]
  simp [valuesOf, Term.read?_digits hne h hvalue, Term.value, htotal, husage]

end Number

theorem Text.digitsValue_ofNat (n : Nat) : digitsValue (ofNat n) = n := digitsValue_zeros_ofNat 0 n

theorem Text.strip_digits {t : Text} (h : ∀ b ∈ t, b.isDigit = true) : strip t = t := by
  unfold strip
  rw [if_neg]
  simp only [List.any_eq_true, not_exists, not_and]
  intro b hb
  obtain ⟨-, hblank, htab, -⟩ := isDigit_spec b (h b hb)
  simp [hblank, htab]

theorem evaluateIn_ofNat {n : Nat} (hn : n < 2 ^ 63) (scope : Scope) {usage : Usage}
    (husage : usage.indexed = false) (table : SymbolTable) :
    evaluateIn scope usage table (Text.ofNat n) =
      ⟨(usage.check.apply scope.memorySize (Int64.ofNat n)).1, {}, table,
        (usage.check.apply scope.memorySize (Int64.ofNat n)).2, none⟩ := by
  have hvalue := Text.digitsValue_ofNat n
  rw [evaluateIn_number (Text.ofNat_ne_nil n) (Text.isDigit_ofNat n) (by rwa [hvalue]) scope husage,
    hvalue]

/-! ## Addresses without blanks -/

theorem Text.glyphs_ascii {t : Text} (h : ∀ b ∈ t, b.isAscii = true) :
    t.glyphs = t.map fun b => .point b.toNat := by
  induction t with
  | nil => rw [glyphs]; rfl
  | cons b t ih =>
    have hb : b < 0x80 := by simpa [Byte.isAscii] using h b List.mem_cons_self
    have hread : Glyph.read b t = (.point b.toNat, 0) := if_pos hb
    rw [glyphs, hread, List.drop_zero, ih fun c hc => h c (List.mem_cons_of_mem b hc)]
    rfl

theorem Text.strip_ascii {t : Text} (h : ∀ b ∈ t, b.isAscii = true) :
    strip t = t.filter fun b => b != Byte.blank && b != Byte.tab := by
  have hall : ∀ b : Byte, b.isAscii = true → Glyph.encode b.toNat = [b] ∧
      (Glyph.point b.toNat != .point 0x20 && Glyph.point b.toNat != .point 0x09) =
        (b != Byte.blank && b != Byte.tab) := forall_cell (by decide +kernel)
  have hkept : t.filter (fun b => Glyph.point b.toNat != .point 0x20 &&
      Glyph.point b.toNat != .point 0x09) = t.filter fun b => b != Byte.blank && b != Byte.tab :=
    List.filter_congr fun b hb => (hall b (h b hb)).2
  unfold strip
  split
  · rw [glyphs_ascii h, List.filter_map, List.flatMap_map]
    simp only [Function.comp_def, Glyph.code, hkept]
    rw [List.flatMap_congr fun b hb => (hall b (h b (List.mem_of_mem_filter hb))).1,
      List.flatMap_singleton']
  · rename_i hnone
    simp only [List.any_eq_true, not_exists, not_and] at hnone
    refine (List.filter_eq_self.mpr fun b hb => ?_).symm
    simpa using hnone b hb

/-! ## The operands -/

/-- The operand text of a constant of `n` bytes, with an address or without one. -/
def alphaOperands (n : Nat) (text : Text) (address : Option Text) : Text :=
  Text.ofNat n ++ Byte.comma :: (text ++ address.elim [] (Byte.comma :: ·))

theorem Text.fields_of_notMem {sep : Byte} {t : Text} (h : sep ∉ t) : t.fields sep = [t] := by
  induction t with
  | nil => rfl
  | cons b t ih =>
    rw [List.mem_cons, not_or] at h
    change pushField sep b (fields sep t) = _
    rw [ih h.2, pushField, if_neg (by simpa using Ne.symm h.1)]

theorem takeWhile_number (n : Nat) (rest : Text) :
    (Text.ofNat n ++ Byte.comma :: rest).takeWhile (· != Byte.comma) = Text.ofNat n := by
  rw [List.takeWhile_append_of_pos fun b hb => by
    simpa using (isDigit_spec b (Text.isDigit_ofNat n b hb)).1]
  simp

theorem dropWhile_number (n : Nat) (rest : Text) :
    (Text.ofNat n ++ Byte.comma :: rest).dropWhile (· != Byte.comma) = Byte.comma :: rest := by
  rw [List.dropWhile_append_of_pos fun b hb => by
    simpa using (isDigit_spec b (Text.isDigit_ofNat n b hb)).1]
  simp

theorem evaluateQuietly_number {n : Nat} (hn : n < 2 ^ 63) (star : Word) (a : Assembly) :
    evaluateQuietly (Text.ofNat n) { star, ordered := true } a = (Int64.ofNat n, a) := by
  unfold evaluateQuietly
  rw [Step.modifyGet_apply, evaluateIn_ofNat hn _ rfl]
  rfl

theorem splitText_number {n : Nat} {rest : Text} (hn : n < 2 ^ 63) (hrest : rest.length < 2 ^ 63)
    (a : Assembly) : splitText (Text.ofNat n ++ Byte.comma :: rest) a =
      let behind := Text.fields Byte.comma (rest.drop n)
      if n < rest.length then
        ([Text.ofNat n, rest.take n, Text.strip ((behind.drop 1).headD [])],
          (reportIf (!Text.isBlank (behind.headD [])) (error .operandTextTooLong) a).2)
      else ([Text.ofNat n, rest, []], a) := by
  have hless : (0 ≤ Int64.ofNat n && Int64.ofNat n < Word.ofLength rest) = true ↔ n < rest.length := by
    rw [Bool.and_eq_true, decide_eq_true_eq, decide_eq_true_eq, Int64.le_iff_toInt_le,
      Int64.lt_iff_toInt_lt, Word.ofLength, Int64.toInt_ofNat_of_lt hn, Int64.toInt_ofNat_of_lt hrest,
      show (0 : Word).toInt = 0 from rfl]
    omega
  rw [splitText_eq, takeWhile_number, dropWhile_number, Text.strip_digits (Text.isDigit_ofNat n)]
  dsimp only
  rw [Step.bind_apply, Step.get_apply, Step.bind_apply, evaluateQuietly_number hn]
  dsimp only
  rw [Step.ite_apply, Word.clamp_ofNat hn]
  by_cases h : n < rest.length
  · rw [if_pos (hless.mpr h), if_pos h]
    rfl
  · rw [if_neg (mt hless.mp h), if_neg h]
    rfl

/-- **The operands of a constant** are its length, its text as it stands and its address, and cutting
them reports nothing. -/
theorem splitText_alpha {n : Nat} {text : Text} {address : Option Text} (hlength : text.length = n)
    (hcomma : ∀ t ∈ address, Byte.comma ∉ t)
    (hshort : (alphaOperands n text address).length < 2 ^ 63) (a : Assembly) :
    splitText (alphaOperands n text address) a =
      ([Text.ofNat n, text, Text.strip (address.getD [])], a) := by
  rw [alphaOperands, List.length_append, List.length_cons, List.length_append] at hshort
  rw [alphaOperands, splitText_number (by omega) (by rw [List.length_append]; omega)]
  cases address with
  | none =>
    have hrest : text ++ Option.elim none [] (Byte.comma :: ·) = text := List.append_nil text
    rw [hrest]
    dsimp only
    rw [if_neg (by omega)]
    rfl
  | some t =>
    have hrest : text ++ Option.elim (some t) [] (Byte.comma :: ·) = text ++ Byte.comma :: t := rfl
    have hbehind : Text.fields Byte.comma ((text ++ Byte.comma :: t).drop n) = [[], t] := by
      rw [← hlength, List.drop_left]
      change Text.fields Byte.comma ([] ++ Byte.comma :: t) = _
      rw [Text.fields_append (by simp), Text.fields_of_notMem (hcomma t rfl)]
    rw [hrest]
    dsimp only
    rw [if_pos (by rw [List.length_append, List.length_cons]; omega), hbehind, ← hlength,
      List.take_left]
    rfl

/-! ## The statement -/

theorem find?_spec {mnemonic : Text} {d : Descriptor} (h : Descriptor.find? mnemonic = some d) :
    mnemonic.isBlank = false ∧ (d.kind = .dac ∨ d.kind = .dsac → (d.model == .two) = false) := by
  have hall : catalog.all (fun d => !d.mnemonic.isBlank &&
      (!(d.kind == .dac || d.kind == .dsac) || d.model != .two)) = true := by decide +kernel
  have hd := List.all_eq_true.mp hall d (List.mem_of_find?_eq_some h)
  have hname : d.mnemonic = mnemonic := by simpa using List.find?_some h
  simp only [Bool.and_eq_true, Bool.not_eq_true', Bool.or_eq_true, hname] at hd
  refine ⟨hd.1, fun hkind => ?_⟩
  rcases hkind with hkind | hkind <;> simpa [hkind] using hd.2

section Statement

variable {a : Assembly} {line : Line} {d : Descriptor} {n : Nat} {text : Text} {address : Option Text}

/-- **The statement of a constant**, and parsing it reports nothing. -/
theorem parse_alpha (hrunning : a.ending = .running) (hvalid : line.invalid = false)
    (hcomment : line.comment = false) (hd : Descriptor.find? line.operation = some d)
    (hkind : d.kind = .dac ∨ d.kind = .dsac) (hoperands : line.operands = alphaOperands n text address)
    (hlength : text.length = n) (hcomma : ∀ t ∈ address, Byte.comma ∉ t)
    (hshort : line.operands.length < 2 ^ 63) :
    parse line a = (⟨line, d, [Text.ofNat n, text, Text.strip (address.getD [])]⟩, a) := by
  obtain ⟨hname, hmodel⟩ := find?_spec hd
  have hannounce : a.announce d line = a := by
    rw [Assembly.announce, hmodel hkind]
    rfl
  have hsplit : splitOperands d line.operands a =
      ([Text.ofNat n, text, Text.strip (address.getD [])], a) := by
    rw [hoperands] at hshort ⊢
    rw [← splitText_alpha hlength hcomma hshort a]
    unfold splitOperands
    rcases hkind with hkind | hkind <;> rw [hkind]
  rw [parse_apply, if_neg (by simp [hvalid]), if_neg (by simp [hrunning]), if_neg (by simp [hcomment]),
    if_neg (by simp [hname]), hd]
  dsimp only
  rw [hannounce, hsplit]

end Statement

/-! ## The place of a constant -/

theorem Check.positive_small {n : Nat} (hn : n ≤ 50) (size : Word) :
    Check.positive.apply size (Int64.ofNat n) = (Int64.ofNat n, []) := by
  have hlarge : ¬ maxValue < Int64.ofNat n := by
    rw [Int64.lt_iff_toInt_lt, Int64.toInt_ofNat_of_lt (by omega), show maxValue.toInt = 99999 from rfl]
    omega
  simp [apply, correct, Word.not_ofNat_neg (show n < 2 ^ 63 by omega), hlarge]

theorem constantLength_number {n : Nat} (hn : n ≤ 50) (a : Assembly) :
    constantLength (Text.ofNat n) a = (Int64.ofNat n, a) := by
  have hlength : evaluateLength (Text.ofNat n) a = (Int64.ofNat n, a) := by
    unfold evaluateLength evaluateLayout evaluate
    rw [Step.bind_apply, Step.get_apply, Step.bind_apply, Step.modifyGet_apply,
      evaluateIn_ofNat (by omega) _ rfl, Check.positive_small hn]
    rfl
  have hlarge : ¬ maxConstantLength < Int64.ofNat n := by
    rw [Int64.lt_iff_toInt_lt, Int64.toInt_ofNat_of_lt (by omega),
      show maxConstantLength.toInt = 50 from rfl]
    omega
  unfold constantLength
  rw [Step.bind_apply, hlength]
  dsimp only
  rw [if_neg hlarge, decide_eq_false hlarge]
  rfl

/-- How far the labelled cell of a constant of `n` characters stands behind the first. -/
def Kind.alphaOffset (k : Kind) (n : Nat) : Word :=
  if k = .dsac then 2 * Int64.ofNat n - 1 else 1

section Placement

variable {s : Statement} {n : Nat} {text address : Text}

theorem toInt_double_ofNat (hn : n ≤ 50) : (2 * Int64.ofNat n).toInt = 2 * n := by
  have hshort : Word.Short (Int64.ofNat n) := by
    have h : (Int64.ofNat n).toInt = n := Int64.toInt_ofNat_of_lt (by omega)
    exact ⟨by omega, by omega⟩
  rw [hshort.toInt_double, Int64.toInt_ofNat_of_lt (by omega)]

theorem tailOf_double (hn : n ≤ 50) (hpos : 0 < n) : tailOf (2 * Int64.ofNat n) = 1 := by
  unfold tailOf
  rw [if_pos]
  rw [Int64.lt_iff_toInt_lt, toInt_double_ofNat hn, show (0 : Word).toInt = 0 from rfl]
  omega

variable (hkind : s.kind = .dac ∨ s.kind = .dsac) (hoperands : s.operands = [Text.ofNat n, text, address])
  (hpos : 0 < n) (hn : n ≤ 50)

include hkind hoperands hpos hn

theorem place_alpha (a : Assembly) : place s a =
    placeAt true .addressOdd (2 * Int64.ofNat n) (s.kind.alphaOffset n) address a := by
  have hfirst : s.operand 0 = Text.ofNat n := by rw [Statement.operand, hoperands]; rfl
  have hthird : s.operand 2 = address := by rw [Statement.operand, hoperands]; rfl
  unfold place
  rcases hkind with hkind | hkind <;> rw [hkind] <;> dsimp only <;>
    rw [Step.bind_apply, hfirst, hthird, constantLength_number hn]
  · unfold placePairs
    rw [tailOf_double hn hpos, ite_self]
    rfl
  · rw [tailOf_double hn hpos]
    rfl

end Placement

/-- The constant would end beyond the largest word: the counter has almost come to it, or the
constant is addressed by its last cell and has the least word as its address. -/
def Assembly.Overflows (a : Assembly) (kind : Kind) (n : Nat) (address : Text) : Prop :=
  (address.isBlank = true ∧ 2 ^ 63 ≤ (alignEven a).2.counter.toInt + 2 * n) ∨
    (kind = .dsac ∧ 2 ≤ n ∧ a.layoutValue address = some Int64.minValue)

section Address

variable {a : Assembly} {kind : Kind} {n : Nat} {address : Text}

theorem toInt_alphaOffset (kind : Kind) (hpos : 0 < n) (hn : n ≤ 50) :
    (kind.alphaOffset n).toInt = if kind = .dsac then 2 * (n : Int) - 1 else 1 := by
  have hone : (1 : Word).toInt = 1 := rfl
  unfold Kind.alphaOffset
  split
  · rw [Word.toInt_sub_of, toInt_double_ofNat hn, hone] <;> rw [toInt_double_ofNat hn, hone] <;> omega
  · rfl

theorem placeAt_address (check : Check) (length offset : Word) (address : Text) (a : Assembly) :
    (placeAt true check length offset address a).1.address =
      if address.isBlank then (alignEven a).2.counter
      else (evaluateLayout address check a).1 - offset := by
  unfold placeAt
  split <;> rfl

theorem oddAddress_least (hsize : a.options.memorySize ∈ memorySizes)
    (h : a.layoutValue address = some Int64.minValue) :
    (evaluateLayout address .addressOdd a).1.toInt = -2 ^ 63 + 1 := by
  have hall : memorySizes.all (fun size =>
      (Check.addressOdd.apply size Int64.minValue).1.toInt == -2 ^ 63 + 1) = true := by
    decide +kernel
  rw [evaluateLayout_value, h]
  exact beq_iff_eq.mp (List.all_eq_true.mp hall _ hsize)

theorem short_oddAddress (hsize : a.options.memorySize ∈ memorySizes)
    (h : a.layoutValue address ≠ some Int64.minValue) :
    (evaluateLayout address .addressOdd a).1.Short := by
  have htame : Tame [address] a := ⟨hsize, by simpa using h⟩
  exact short_evaluateLayout htame List.mem_cons_self rfl

theorem not_isBlank_of_layoutValue {v : Word} (h : a.layoutValue address = some v) :
    address.isBlank = false := by
  cases hblank : address.isBlank with
  | false => rfl
  | true =>
    rw [Assembly.layoutValue, rawValue, hblank] at h
    cases h

variable (hsize : a.options.memorySize ∈ memorySizes) (hpos : 0 < n) (hn : n ≤ 50)

include hsize hpos hn

/-- **A constant that does not overflow** ends at a word. -/
theorem address_of_not_overflows (h : ¬ a.Overflows kind n address) :
    (placeAt true .addressOdd (2 * Int64.ofNat n) (kind.alphaOffset n) address a).1.address.toInt +
      2 * n < 2 ^ 63 := by
  have hoffset := toInt_alphaOffset kind hpos hn
  rw [placeAt_address]
  split
  · rename_i hblank
    exact Int.lt_of_not_ge fun hle => h (.inl ⟨hblank, hle⟩)
  · by_cases hleast : a.layoutValue address = some Int64.minValue
    · have hlabel := oddAddress_least hsize hleast
      have hsmall : ¬ (kind = .dsac ∧ 2 ≤ n) := fun hlarge => h (.inr ⟨hlarge.1, hlarge.2, hleast⟩)
      have hfirst : (kind.alphaOffset n).toInt = 1 := by
        rw [hoffset]
        split
        · have hn1 : n < 2 := by
            rename_i hdsac
            exact Nat.lt_of_not_le fun h2 => hsmall ⟨hdsac, h2⟩
          omega
        · rfl
      rw [Word.toInt_sub_of (by omega) (by omega)]
      omega
    · obtain ⟨hlo, hhi⟩ := short_oddAddress hsize hleast
      have hbounds : 1 ≤ (kind.alphaOffset n).toInt ∧ (kind.alphaOffset n).toInt ≤ 99 := by
        rw [hoffset]
        split <;> omega
      rw [Word.toInt_sub_of (by omega) (by omega)]
      omega

theorem address_of_least (h2 : 2 ≤ n) (hleast : a.layoutValue address = some Int64.minValue) :
    (placeAt true .addressOdd (2 * Int64.ofNat n) (Kind.dsac.alphaOffset n) address a).1.address.toInt =
      2 ^ 63 + 2 - 2 * n := by
  have hlabel := oddAddress_least hsize hleast
  have hoffset := toInt_alphaOffset .dsac hpos hn
  rw [if_pos rfl] at hoffset
  rw [placeAt_address, not_isBlank_of_layoutValue hleast, if_neg (by decide), Int64.toInt_sub, hlabel,
    hoffset, Int.bmod_def]
  omega

/-- **A constant that overflows** does not end at a word. -/
theorem address_of_overflows (h : a.Overflows kind n address) : 2 ^ 63 ≤
    (placeAt true .addressOdd (2 * Int64.ofNat n) (kind.alphaOffset n) address a).1.address.toInt +
      2 * n := by
  rcases h with ⟨hblank, hcounter⟩ | ⟨rfl, h2, hleast⟩
  · rwa [placeAt_address, if_pos hblank]
  · rw [address_of_least hsize hpos hn h2 hleast]
    omega

end Address

/-! ## The cells of a constant -/

theorem half_double {n : Nat} (hn : n ≤ 50) : 2 * Int64.ofNat n / 2 = Int64.ofNat n := by
  have hall : ∀ k ∈ List.range 51, 2 * Int64.ofNat k / 2 = Int64.ofNat k := by decide +kernel
  exact hall n (List.mem_range.mpr (Nat.lt_succ_of_le hn))

/-- **Encoding a constant** gives the cells of its text, the first one flagged, and reports
nothing. -/
theorem encode_alpha {s : Statement} {p : Placement} {n : Nat} {text : Text}
    (hkind : s.kind = .dac ∨ s.kind = .dsac) (hlength : p.length = 2 * Int64.ofNat n)
    (hoperand : s.operand 1 = text) (hpos : 0 < n) (hn : n ≤ 50) (hfits : text.length ≤ n)
    (htext : ∀ b ∈ text, b ∈ alphabet) (a : Assembly) :
    encode s p a = .ok ((textCells n text).flag 0) a := by
  have hencode : encodeText (Int64.ofNat n) text = .ok ⟨textCells n text, none⟩ :=
    encodeText_of_fits (Int64.toInt_ofNat_of_lt (by omega)) hpos (by rw [maxSize]; omega) hfits htext
  have hzero : 0 < p.length := by
    rw [hlength, Int64.lt_iff_toInt_lt, toInt_double_ofNat hn, show (0 : Word).toInt = 0 from rfl]
    omega
  have halpha : encodeAlpha s p a = .ok ((textCells n text).flag 0) a := by
    unfold encodeAlpha
    rw [if_pos hzero, hlength, half_double hn, hoperand, hencode]
    rfl
  unfold encode
  rcases hkind with hkind | hkind <;> rw [hkind] <;> exact halpha

/-- A value whose end wraps is not stored: it is a fault. -/
theorem store_fault {a : Assembly} {address : Word} {value : Value}
    (hmemory : a.memory.cells.size ≤ 100000) (hlength : value.length ≤ 100)
    (hend : 2 ^ 63 ≤ address.toInt + value.length) :
    store address value a = .error .positionOutOfRange a := by
  have hzero : (0 : Word).toInt = 0 := rfl
  have hhi := address.toInt_lt
  have hsize : a.memory.size.toInt = a.memory.cells.size := Int64.toInt_ofNat_of_lt (by omega)
  have hcells : (Word.ofLength value).toInt = value.length := Int64.toInt_ofNat_of_lt (by omega)
  have hwrapped : (address + Word.ofLength value).toInt = address.toInt + value.length - 2 ^ 64 := by
    rw [Int64.toInt_add, hcells, Int.bmod_def]
    omega
  have hfits : a.memory.fits address (Word.ofLength value) = true := by
    rw [Memory.fits, Bool.and_eq_true, decide_eq_true_eq, decide_eq_true_eq, Int64.le_iff_toInt_le,
      Int64.le_iff_toInt_le, hwrapped, hzero, hsize]
    omega
  have hbeyond : a.memory.size < address := by
    rw [Int64.lt_iff_toInt_lt, hsize]
    omega
  have hvalue : value.isEmpty = false := by
    cases value with
    | nil => simp at hend; omega
    | cons c rest => rfl
  have hadmits : a.memory.admits address value = .error .positionOutOfRange := by
    simp [Memory.admits, hvalue, hfits, hbeyond]
  rw [store, hadmits]

/-! ## What is reported -/

/-- A cause that does not find fault with the text of a constant. -/
def Cause.SparesText (c : Cause) : Prop := c ≠ .operandTextTooLong ∧ ∀ text, c ≠ .invalidConstant text

theorem Cause.sparesText_of_concernsOperand {c : Cause} (h : c.concernsOperand = true) :
    c.SparesText := by
  refine ⟨?_, fun text => ?_⟩ <;> rintro rfl <;> cases h

theorem verify_sparesText (t : SymbolTable) (name : Text) (line : Word) (head : Byte) :
    ∀ r ∈ t.verify name line head, r.cause.SparesText := by
  intro r hr
  unfold SymbolTable.verify at hr
  split at hr
  · cases hr
  · split at hr
    · rw [List.mem_singleton.mp hr]
      exact ⟨nofun, nofun⟩
    · dsimp only at hr
      split at hr
      · split at hr
        · rw [List.mem_singleton.mp hr]
          exact ⟨nofun, nofun⟩
        · cases hr
      · cases hr

theorem placeAt_utters (check : Check) (length offset : Word) (address : Text) (a : Assembly) :
    a.Utters Cause.SparesText (placeAt true check length offset address a).2 := by
  unfold placeAt
  split
  · refine .of_log_eq ?_
    change (alignEven a).2.log = a.log
    change (if _ then _ else _ : Assembly).log = a.log
    split <;> rfl
  · exact (evaluate_utters address _ a).mono fun c => Cause.sparesText_of_concernsOperand

theorem layOut_spares {s : Statement} {a : Assembly} (hpass : a.log.pass = 2)
    (h : a.Utters Cause.SparesText (place s a).2) : a.Utters Cause.SparesText (layOut s a).2 := by
  have hbefore : a.Utters Cause.SparesText (beforeLabel s a) := by
    unfold beforeLabel
    split
    · refine h.trans (.raise fun r hr => ?_)
      split at hr
      · rw [List.mem_singleton.mp hr]
        exact ⟨nofun, nofun⟩
      · cases hr
    · exact h
  have hsecond : (beforeLabel s a).log.pass ≠ 1 := by
    rw [(Assembly.Keeps.of_frame (place_frame s a)).pass, hpass]
    decide
  rw [layOut_apply]
  dsimp only
  split
  · rcases defineLabel_apply s (place s a).1 (beforeLabel s a) with ⟨hone, -⟩ | ⟨-, hlabel⟩
    · exact absurd hone hsecond
    · rw [hlabel]
      exact hbefore.trans (.raise (verify_sparesText _ _ _ _))
  · exact hbefore

/-! ## From the line to the cells -/

theorem process_of_encode {s : Statement} {a c : Assembly} {value : Value}
    (hemitting : (layOut s a).2.emitting = true)
    (hencode : encode s (layOut s a).1 (layOut s a).2 = .ok value c) :
    process s a = match store (layOut s a).1.address value c with
      | .ok _ b => .ok ⟨s, s.descriptor.shape, (layOut s a).1, value, []⟩ b
      | .error f b => .error f b := by
  unfold process
  rw [Build.lift_bind, Build.get_bind, if_pos hemitting, Build.bind_ok hencode]
  cases hstore : store (layOut s a).1.address value c with
  | ok _ b =>
    rw [Build.bind_ok hstore]
    rfl
  | error f b => exact Build.bind_error hstore _

/-- The statement of a constant. -/
def alphaStatement (line : Line) (d : Descriptor) (n : Nat) (text : Text) (address : Option Text) :
    Statement := ⟨line, d, [Text.ofNat n, text, Text.strip (address.getD [])]⟩

/-- In the pass that builds core, a line holds a constant of `n` characters. -/
structure HoldsAlpha (a : Assembly) (line : Line) (d : Descriptor) (n : Nat) (text : Text)
    (address : Option Text) : Prop where
  size : a.options.memorySize ∈ memorySizes
  memory : a.memory.cells.size ≤ 100000
  pass : a.log.pass = 2
  running : a.ending = .running
  valid : line.invalid = false
  noComment : line.comment = false
  operation : Descriptor.find? line.operation = some d
  kind : d.kind = .dac ∨ d.kind = .dsac
  positive : 1 ≤ n
  small : n ≤ 50
  length : text.length = n
  characters : ∀ b ∈ text, b ∈ alphabet
  single : ∀ t ∈ address, Byte.comma ∉ t
  operands : line.operands = alphaOperands n text address
  short : line.operands.length < 2 ^ 63

namespace HoldsAlpha

variable {a : Assembly} {line : Line} {d : Descriptor} {n : Nat} {text : Text} {address : Option Text}
  (h : HoldsAlpha a line d n text address)

include h

theorem parse_eq : parse line a = (alphaStatement line d n text address, a) :=
  parse_alpha h.running h.valid h.noComment h.operation h.kind h.operands h.length h.single h.short

theorem place_eq : place (alphaStatement line d n text address) a =
    placeAt true .addressOdd (2 * Int64.ofNat n) (d.kind.alphaOffset n)
      (Text.strip (address.getD [])) a := by
  have hkind : (alphaStatement line d n text address).kind = .dac ∨
      (alphaStatement line d n text address).kind = .dsac := h.kind
  exact place_alpha hkind rfl h.positive h.small a

theorem process_eq : process (alphaStatement line d n text address) a =
    match store (place (alphaStatement line d n text address) a).1.address ((textCells n text).flag 0)
      (layOut (alphaStatement line d n text address) a).2 with
    | .ok _ b => .ok ⟨alphaStatement line d n text address, d.shape,
        (place (alphaStatement line d n text address) a).1, (textCells n text).flag 0, []⟩ b
    | .error f b => .error f b := by
  have hkind : (alphaStatement line d n text address).kind = .dac ∨
      (alphaStatement line d n text address).kind = .dsac := h.kind
  have hplacement : (layOut (alphaStatement line d n text address) a).1 =
      (place (alphaStatement line d n text address) a).1 := by rw [layOut_apply]
  have hlength : (place (alphaStatement line d n text address) a).1.length = 2 * Int64.ofNat n := by
    rw [h.place_eq, placeAt_length]
  have hemitting : (layOut (alphaStatement line d n text address) a).2.emitting = true := by
    rw [Assembly.emitting, (layOut_keeps _ a).pass, h.pass]
    rfl
  have hencode := encode_alpha hkind hlength (by rfl) h.positive h.small (Nat.le_of_eq h.length)
    h.characters (layOut (alphaStatement line d n text address) a).2
  rw [← hplacement] at hencode ⊢
  exact process_of_encode hemitting hencode

theorem layOut_utters :
    a.Utters Cause.SparesText (layOut (alphaStatement line d n text address) a).2 := by
  refine layOut_spares h.pass ?_
  rw [h.place_eq]
  exact placeAt_utters ..

theorem layOut_memory_le :
    (layOut (alphaStatement line d n text address) a).2.memory.cells.size ≤ 100000 := by
  rw [layOut_memory]
  exact h.memory

theorem length_cells : ((textCells n text).flag 0).length = 2 * n := by
  rw [Value.length_flag, length_textCells (Nat.le_of_eq h.length)]

/-- **A constant that does not overflow** is processed, and nothing is said about its text. -/
theorem process_ok (hends : ¬ a.Overflows d.kind n (Text.strip (address.getD []))) :
    ∃ o b, process (alphaStatement line d n text address) a = .ok o b ∧
      o.value = (textCells n text).flag 0 ∧ a.Utters Cause.SparesText b := by
  have haddress := address_of_not_overflows h.size h.positive h.small hends
  rw [← h.place_eq] at haddress
  obtain ⟨b, hstore⟩ := store_ok h.layOut_memory_le (by
    rw [h.length_cells]
    exact_mod_cast haddress)
  refine ⟨_, b, by rw [h.process_eq, hstore], rfl, ?_⟩
  exact h.layOut_utters.trans (store_utters ⟨nofun, nofun⟩ hstore)

/-- **A constant that overflows** has no place: that is a fault. -/
theorem process_fault (hends : a.Overflows d.kind n (Text.strip (address.getD []))) :
    ∃ b, process (alphaStatement line d n text address) a = .error .positionOutOfRange b := by
  have haddress := address_of_overflows h.size h.positive h.small hends
  rw [← h.place_eq] at haddress
  have hsmall := h.small
  have hstore := store_fault h.layOut_memory_le (by rw [h.length_cells]; omega) (by
    rw [h.length_cells]
    exact_mod_cast haddress)
  exact ⟨_, by rw [h.process_eq, hstore]⟩

end HoldsAlpha

/-- **Alphameric constants survive as they are written.** Parsing takes the text as it stands and the
address without its blanks, and reports nothing. Processing finds no fault with the text, and its cells
hold it, a closing `@` as a record mark; a constant that overflows, and no other, has no place and is a
fault. Encoding fills a shorter text up with blanks, for every length that a store has room for. -/
theorem alpha_survives (a : Assembly) (line : Line) (d : Descriptor) (n : Nat) (text : Text)
    (address : Option Text) :
    (HoldsAlpha a line d n text address →
      parse line a = (⟨line, d, [Text.ofNat n, text, Text.strip (address.getD [])]⟩, a) ∧
      (∀ t ∈ address, (∀ b ∈ t, b.isAscii = true) →
        (parse line a).1.operand 2 = t.filter fun b => b != Byte.blank && b != Byte.tab) ∧
      (¬ a.Overflows d.kind n (Text.strip (address.getD [])) → ∃ cells o b,
        encodeText (Int64.ofNat n) text = .ok ⟨cells, none⟩ ∧
        process (parse line a).1 (parse line a).2 = .ok o b ∧
        o.value = cells.flag 0 ∧ o.value.length = 2 * n ∧
        readPairs (Value.unflagFirst o.value) = some
          ((unmarked text).map .character ++ if isMarked text then [.recordMark] else []) ∧
        ∃ ds, b.log.pending = a.log.pending ++ ds ∧ ∀ d ∈ ds,
          d.cause ≠ .operandTextTooLong ∧ ∀ t, d.cause ≠ .invalidConstant t) ∧
      (a.Overflows d.kind n (Text.strip (address.getD [])) →
        ∃ b, process (parse line a).1 (parse line a).2 = .error .positionOutOfRange b)) ∧
    ∀ length : Word, length.toInt = n → 1 ≤ n → text.length ≤ n → (∀ b ∈ text, b ∈ alphabet) →
      (2 * n ≤ maxSize → ∃ cells, encodeText length text = .ok ⟨cells, none⟩ ∧
        cells.length = 2 * n ∧ readPairs cells = some (contents n text)) ∧
      (maxSize < 2 * n → encodeText length text = .error .sizeOutOfRange) := by
  refine ⟨fun h => ⟨h.parse_eq, ?_, fun hends => ?_, fun hends => ?_⟩,
    fun length hlength hpos hfits htext => ⟨fun hsize => ?_, fun hsize => ?_⟩⟩
  · rintro t rfl hascii
    rw [h.parse_eq]
    exact Text.strip_ascii hascii
  · have hcells : encodeText (Int64.ofNat n) text = .ok ⟨textCells n text, none⟩ := by
      have hsmall := h.small
      exact encodeText_of_fits (Int64.toInt_ofNat_of_lt (by omega)) h.positive (by rw [maxSize]; omega)
        (Nat.le_of_eq h.length) h.characters
    obtain ⟨o, b, hprocess, hvalue, hutters⟩ := h.process_ok hends
    rw [h.parse_eq, ← contents_of_length h.length]
    refine ⟨_, o, b, hcells, hprocess, hvalue, ?_, ?_, hutters.pending⟩
    · rw [hvalue, h.length_cells]
    · rw [hvalue, readPairs_flag h.positive (Nat.le_of_eq h.length) h.characters]
  · rw [h.parse_eq]
    exact h.process_fault hends
  · exact ⟨_, encodeText_of_fits hlength hpos hsize hfits htext, length_textCells hfits,
      readPairs_textCells htext⟩
  · exact encodeText_fault hlength hsize text

/-- A state of the second pass. -/
def secondPass : Assembly where
  options := { memorySize := 20000 }
  log := { warnings := true, pass := 2 }
  symbols := { divide := true }
  memory := Memory.undefined 20000
  counter := startAddress

/-- A constant of commas and blanks that ends in a record mark, with an address. -/
def commaLine : Line where
  number := 1
  operation := ascii "DSAC"
  operands := ascii "5,A, ,@,5 01"

theorem commaLine_holds : HoldsAlpha secondPass commaLine (Descriptor.declare "DSAC" .dsac 3 .data) 5
    (ascii "A, ,@") (some (ascii "5 01")) where
  size := by decide
  memory := by simp [secondPass, Memory.undefined]
  pass := rfl
  running := rfl
  valid := rfl
  noComment := rfl
  operation := by decide +kernel
  kind := .inr rfl
  positive := by decide
  small := by decide
  length := by decide
  characters := by decide +kernel
  single := by simp; decide
  operands := by decide +kernel
  short := by decide +kernel

theorem alpha_survives_commaLine :
    ¬ secondPass.Overflows .dsac 5 (ascii "501") ∧
    (∃ o b, process (parse commaLine secondPass).1 (parse commaLine secondPass).2 = .ok o b ∧
      readPairs (Value.unflagFirst o.value) =
        some ((ascii "A, ,").map .character ++ [.recordMark])) ∧
    ∃ cells, encodeText 4 (ascii "A@") = .ok ⟨cells, none⟩ ∧
      readPairs cells = some ((ascii "A  ").map .character ++ [.recordMark]) := by
  have hstrip : Text.strip (ascii "5 01") = ascii "501" := by
    rw [Text.strip_ascii (by decide +kernel)]
    decide
  have hends : ¬ secondPass.Overflows .dsac 5 (ascii "501") := by
    rintro (⟨hblank, -⟩ | ⟨-, -, hleast⟩)
    · exact absurd hblank (by decide)
    · exact absurd hleast (by decide +kernel)
  obtain ⟨-, -, hok, -⟩ := (alpha_survives _ _ _ _ _ _).1 commaLine_holds
  obtain ⟨-, o, b, -, hprocess, -, -, hread, -⟩ := hok (by
    change ¬ secondPass.Overflows .dsac 5 (Text.strip (ascii "5 01"))
    rwa [hstrip])
  obtain ⟨cells, hcells, -, hpairs⟩ := ((alpha_survives secondPass commaLine (Descriptor.declare "DSAC"
    .dsac 3 .data) 4 (ascii "A@") none).2 4 rfl (by decide) (by decide) (by decide +kernel)).1 (by decide)
  exact ⟨hends, ⟨o, b, hprocess, hread⟩, cells, hcells, hpairs⟩

/-- A constant with the least word as the address of its last cell. -/
def leastLine : Line where
  number := 1
  operation := ascii "DSAC"
  operands := ascii "2,AB,-9223372036854775807-1"

theorem leastLine_holds : HoldsAlpha secondPass leastLine (Descriptor.declare "DSAC" .dsac 3 .data) 2
    (ascii "AB") (some (ascii "-9223372036854775807-1")) :=
  { commaLine_holds with
    positive := by decide
    small := by decide
    length := by decide
    characters := by decide +kernel
    single := by simp; decide
    operands := by decide +kernel
    short := by decide +kernel }

/-- **The least word is no address**, but nothing refuses it: the constant has no cells. -/
theorem leastLine_fault : HoldsAlpha secondPass leastLine (Descriptor.declare "DSAC" .dsac 3 .data) 2
      (ascii "AB") (some (ascii "-9223372036854775807-1")) ∧
    ∃ b, process (parse leastLine secondPass).1 (parse leastLine secondPass).2 =
      .error .positionOutOfRange b := by
  refine ⟨leastLine_holds, ?_⟩
  rw [leastLine_holds.parse_eq]
  exact leastLine_holds.process_fault (.inr ⟨rfl, by decide, by decide +kernel⟩)

end SpsAssembler
