import Mathlib.Data.List.Infix
import SpsAssembler.Machine.Cell
import SpsAssembler.Proofs.Fields
import SpsAssembler.Text.Numeral

/-!
# Lists of flags

The flags of an instruction are given by the numerals of their positions, one behind the other.
Which texts are such lists is decided by one rule, and how they are read by another, which takes a
`1` and the digit behind it for a position wherever it can. Both agree on where the numerals end,
except where position 1 stands right before position 10 or 11; for 11 the same cells are flagged.

* `Value.mark`: flags at some positions, and nothing else;
* `flagPositions`, **`Value.flagListed_eq`**: the positions that a text is read as;
* `IsPositions`, `numerals`, **`Value.isFlagList_iff`**: the texts that are lists;
* **`flagPositions_numerals`**, `mem_flagPositions`: what they are read as;
* **`setFlags_marks`**: which cells are flagged;
* **`joined_misread`**: positions 1 and 10.
-/

namespace SpsAssembler

namespace Value

/-! ## Marks -/

/-- The cells at the given positions flagged, as far as there are any. -/
def mark (ps : List Nat) (v : Value) : Value := v.mapIdx fun i c => if i ∈ ps then c.flagged else c

variable {ps qs : List Nat} {v : Value}

theorem getElem?_mark (ps : List Nat) (v : Value) (i : Nat) :
    (v.mark ps)[i]? = v[i]?.map fun c => if i ∈ ps then c.flagged else c :=
  List.getElem?_mapIdx

@[simp] theorem length_mark (ps : List Nat) (v : Value) : (v.mark ps).length = v.length :=
  List.length_mapIdx

@[simp] theorem mark_nil (v : Value) : v.mark [] = v := by
  refine List.ext_getElem? fun i => ?_
  simp [getElem?_mark]

theorem mark_congr (h : ∀ i, i ∈ ps ↔ i ∈ qs) (v : Value) : v.mark ps = v.mark qs := by
  simp only [mark, h]

theorem flagged_flagged : ∀ c : Cell, c.flagged.flagged = c.flagged :=
  forall_cell (by decide +kernel)

theorem mark_mark (ps qs : List Nat) (v : Value) : (v.mark ps).mark qs = v.mark (ps ++ qs) := by
  refine List.ext_getElem? fun i => ?_
  simp only [getElem?_mark, Option.map_map, List.mem_append]
  congr 1
  funext c
  by_cases hp : i ∈ ps <;> by_cases hq : i ∈ qs <;> simp [hp, hq, flagged_flagged]

theorem flag_ofNat {i : Nat} (hi : i < 2 ^ 63) (v : Value) :
    v.flag (Int64.ofNat i) = v.mark [i] := by
  refine List.ext_getElem? fun j => ?_
  rw [getElem?_flag, getElem?_mark, Int64.toInt_ofNat_of_lt hi]
  simp only [Int.ofNat_inj, List.mem_singleton]

end Value

/-! ## What a text is read as -/

/-- The position that a digit names. -/
def digitPosition (d : Byte) : Nat := (d - '0'.toUInt8).toNat

/-- The positions that a text is read as. -/
def flagPositions : Text → List Nat
  | [] => []
  | [d] => [digitPosition d]
  | d :: e :: rest =>
    if d == '1'.toUInt8 && e == '0'.toUInt8 then 10 :: flagPositions rest
    else if d == '1'.toUInt8 && e == '1'.toUInt8 then 11 :: flagPositions rest
    else digitPosition d :: flagPositions (e :: rest)

/-- **A text flags the positions that it is read as.** -/
theorem Value.flagListed_eq (digits : Text) (v : Value) :
    flagListed digits v = v.mark (flagPositions digits) := by
  have hdigit : ∀ d : Byte, digitPosition d < 2 ^ 63 := fun d => by
    have hlt := (d - '0'.toUInt8).toNat_lt
    unfold digitPosition
    omega
  have hcons : ∀ (w : Value) p ps, (w.mark [p]).mark ps = w.mark (p :: ps) :=
    fun w p ps => mark_mark [p] ps w
  fun_induction flagListed digits v with
  | case1 v => rw [flagPositions, mark_nil]
  | case2 d v => exact flag_ofNat (hdigit d) v
  | case3 d e rest v hten ih =>
    rw [ih, flagPositions, if_pos hten, ← hcons, ← flag_ofNat (by decide)]
    rfl
  | case4 d e rest v hten heleven ih =>
    rw [ih, flagPositions, if_neg hten, if_pos heleven, ← hcons, ← flag_ofNat (by decide)]
    rfl
  | case5 d e rest v hten heleven ih =>
    rw [ih, flagPositions, if_neg hten, if_neg heleven, ← hcons, ← flag_ofNat (hdigit d)]
    rfl

/-! ## Lists of positions -/

/-- Positions of an instruction, in strictly ascending order. -/
structure IsPositions (ps : List Nat) : Prop where
  ascending : ps.Pairwise (· < ·)
  le : ∀ p ∈ ps, p ≤ 11

/-- The numerals of positions, one behind the other. -/
def numerals (ps : List Nat) : Text := ps.flatMap Text.ofNat

variable {p : Nat} {ps qs : List Nat}

theorem numerals_append (ps qs : List Nat) : numerals (ps ++ qs) = numerals ps ++ numerals qs :=
  List.flatMap_append

theorem digitNumeral_spec (hp : p ≤ 9) : Text.ofNat p = [Byte.ofDigit p] ∧
    (Byte.ofDigit p).isDigit = true ∧ (Byte.ofDigit p).toNat = 48 + p ∧
      digitPosition (Byte.ofDigit p) = p := by
  have hall : ∀ q ∈ List.range 10, Text.ofNat q = [Byte.ofDigit q] ∧
      (Byte.ofDigit q).isDigit = true ∧ (Byte.ofDigit q).toNat = 48 + q ∧
        digitPosition (Byte.ofDigit q) = q := by
    decide +kernel
  exact hall p (List.mem_range.mpr (by omega))

theorem ofDigit_digitPosition : ∀ b : Byte, b.isDigit = true →
    digitPosition b ≤ 9 ∧ Byte.ofDigit (digitPosition b) = b := forall_cell (by decide +kernel)

theorem numerals_digit (hp : p ≤ 9) (ps : List Nat) :
    numerals (p :: ps) = Byte.ofDigit p :: numerals ps := by
  rw [numerals, List.flatMap_cons, (digitNumeral_spec hp).1]
  rfl

namespace IsPositions

theorem of_cons (h : IsPositions (p :: ps)) :
    IsPositions ps ∧ p ≤ 11 ∧ ∀ q ∈ ps, p < q := by
  obtain ⟨hfirst, hrest⟩ := List.pairwise_cons.mp h.ascending
  exact ⟨⟨hrest, fun q hq => h.le q (List.mem_cons_of_mem p hq)⟩, h.le p List.mem_cons_self, hfirst⟩

end IsPositions

/-! ## The texts that are lists -/

namespace Value

/-- Ascending digits are the numerals of ascending positions below ten. -/
theorem ascending_iff {floor : Byte} {t : Text} : ascending floor t = true ↔
    ∃ qs : List Nat, qs.Pairwise (· < ·) ∧ (∀ q ∈ qs, floor.toNat < 48 + q ∧ q ≤ 9) ∧
      t = numerals qs := by
  induction t generalizing floor with
  | nil =>
    refine ⟨fun _ => ⟨[], .nil, by simp, rfl⟩, fun _ => rfl⟩
  | cons b t ih =>
    rw [ascending, Bool.and_eq_true, Bool.and_eq_true, decide_eq_true_eq, ih, UInt8.lt_iff_toNat_lt]
    constructor
    · rintro ⟨⟨hfloor, hdigit⟩, qs, hqs, hle, rfl⟩
      obtain ⟨hnine, hb⟩ := ofDigit_digitPosition b hdigit
      have hvalue := (digitNumeral_spec hnine).2.2.1
      rw [hb] at hvalue
      refine ⟨digitPosition b :: qs, List.pairwise_cons.mpr ⟨fun q hq => ?_, hqs⟩, ?_, ?_⟩
      · have := (hle q hq).1
        omega
      · refine List.forall_mem_cons.mpr ⟨⟨by omega, hnine⟩, fun q hq => ?_⟩
        have := hle q hq
        omega
      · rw [numerals_digit hnine, hb]
    · rintro ⟨qs, hqs, hle, heq⟩
      cases qs with
      | nil => cases heq
      | cons q qs =>
        obtain ⟨⟨hfloor, hnine⟩, hrest⟩ := List.forall_mem_cons.mp hle
        obtain ⟨hfirst, hqs⟩ := List.pairwise_cons.mp hqs
        rw [numerals_digit hnine] at heq
        obtain ⟨rfl, rfl⟩ := List.cons.inj heq
        obtain ⟨-, hdigit, hvalue, -⟩ := digitNumeral_spec hnine
        refine ⟨⟨by omega, hdigit⟩, qs, hqs, fun r hr => ?_, rfl⟩
        have := hfirst r hr
        have := hrest r hr
        omega

end Value

/-- The positions of two digits that a list may end in. -/
def longPositions : List (List Nat) := [[], [10], [11], [10, 11]]

theorem isPositions_append {tail : List Nat} (htail : tail ∈ longPositions)
    (hqs : qs.Pairwise (· < ·)) (hle : ∀ q ∈ qs, q ≤ 9) : IsPositions (qs ++ tail) := by
  have hall : ∀ tail ∈ longPositions, tail.Pairwise (· < ·) ∧ ∀ p ∈ tail, 10 ≤ p ∧ p ≤ 11 := by
    decide
  obtain ⟨hascending, hlong⟩ := hall tail htail
  refine ⟨List.pairwise_append.mpr ⟨hqs, hascending, fun q hq p hp => ?_⟩, fun p hp => ?_⟩
  · have := hle q hq
    have := hlong p hp
    omega
  · rcases List.mem_append.mp hp with hp | hp
    · have := hle p hp
      omega
    · exact (hlong p hp).2

theorem IsPositions.split (h : IsPositions ps) : ∃ qs, ∃ tail ∈ longPositions,
    ps = qs ++ tail ∧ qs.Pairwise (· < ·) ∧ ∀ q ∈ qs, q ≤ 9 := by
  induction ps with
  | nil => exact ⟨[], [], by decide, rfl, .nil, by simp⟩
  | cons p ps ih =>
    obtain ⟨hps, hp, hfirst⟩ := h.of_cons
    obtain ⟨qs, tail, htail, rfl, hqs, hle⟩ := ih hps
    by_cases hnine : p ≤ 9
    · refine ⟨p :: qs, tail, htail, rfl, List.pairwise_cons.mpr ⟨fun q hq => ?_, hqs⟩,
        List.forall_mem_cons.mpr ⟨hnine, hle⟩⟩
      exact hfirst q (List.mem_append_left tail hq)
    · have hnone : qs = [] := List.eq_nil_iff_forall_not_mem.mpr fun q hq => by
        have := hle q hq
        have := hfirst q (List.mem_append_left tail hq)
        omega
      subst hnone
      have hall : ∀ tail ∈ longPositions, ∀ p ∈ [10, 11], (∀ q ∈ tail, p < q) →
          p :: tail ∈ longPositions := by decide
      have hlong : p ∈ [10, 11] := by
        have hcases : p = 10 ∨ p = 11 := by omega
        simpa using hcases
      exact ⟨[], p :: tail, hall tail htail p hlong hfirst, rfl, .nil, by simp⟩

/-- **The texts that are lists of flags** are the numerals of ascending positions. -/
theorem Value.isFlagList_iff {digits : Text} :
    isFlagList digits = true ↔ ∃ ps, IsPositions ps ∧ digits = numerals ps := by
  have htails : [ascii "", ascii "10", ascii "11", ascii "1011"] = longPositions.map numerals := by
    decide +kernel
  have hbare : ∀ t, ascending 0 t = true ↔
      ∃ qs : List Nat, qs.Pairwise (· < ·) ∧ (∀ q ∈ qs, q ≤ 9) ∧ t = numerals qs := by
    intro t
    rw [ascending_iff]
    have hfloor : ∀ q : Nat, (0 : Byte).toNat < 48 + q ∧ q ≤ 9 ↔ q ≤ 9 := by
      intro q
      rw [show (0 : Byte).toNat = 0 from rfl]
      omega
    simp only [hfloor]
  unfold isFlagList
  simp only [htails, List.any_map, List.any_eq_true, Function.comp_apply, Bool.and_eq_true, hbare,
    Text.hasSuffix, List.isSuffixOf_iff_suffix]
  constructor
  · rintro ⟨tail, htail, ⟨pre, rfl⟩, qs, hqs, hle, hpre⟩
    refine ⟨qs ++ tail, isPositions_append htail hqs hle, ?_⟩
    rw [List.length_append, Nat.add_sub_cancel, List.take_left] at hpre
    rw [numerals_append, hpre]
  · rintro ⟨ps, hps, rfl⟩
    obtain ⟨qs, tail, htail, rfl, hqs, hle⟩ := hps.split
    refine ⟨tail, htail, ⟨numerals qs, (numerals_append qs tail).symm⟩, qs, hqs, hle, ?_⟩
    rw [numerals_append, List.length_append, Nat.add_sub_cancel, List.take_left]

/-! ## What lists are read as -/

/-- A digit is read on its own, unless it is a `1` with a `0` or a `1` behind it. -/
theorem flagPositions_digit (hp : p ≤ 9) {rest : Text}
    (h : p ≠ 1 ∨ ∀ e ∈ rest.head?, e ≠ '0'.toUInt8 ∧ e ≠ '1'.toUInt8) :
    flagPositions (Byte.ofDigit p :: rest) = p :: flagPositions rest := by
  have hposition := (digitNumeral_spec hp).2.2.2
  cases rest with
  | nil => rw [flagPositions, flagPositions, hposition]
  | cons e rest =>
    have hone : p ≠ 1 → Byte.ofDigit p ≠ '1'.toUInt8 := fun hne heq => by
      rw [heq] at hposition
      exact hne hposition.symm
    have hnext : ∀ d : Byte, (d = '0'.toUInt8 ∨ d = '1'.toUInt8) →
        ¬ (Byte.ofDigit p == '1'.toUInt8 && e == d) = true := by
      intro d hd heq
      rw [Bool.and_eq_true, beq_iff_eq, beq_iff_eq] at heq
      rcases h with hne | hrest
      · exact hone hne heq.1
      · obtain ⟨hzero, hdigit⟩ := hrest e rfl
        rcases hd with rfl | rfl
        · exact hzero heq.2
        · exact hdigit heq.2
    rw [flagPositions, if_neg (hnext _ (.inl rfl)), if_neg (hnext _ (.inr rfl)), hposition]

/-- Position 1 stands right before a position of two digits. -/
def Joins (ps : List Nat) : Prop := [1, 10] <:+: ps ∨ [1, 11] <:+: ps

theorem Joins.cons (h : Joins ps) (p : Nat) : Joins (p :: ps) :=
  h.imp List.infix_cons List.infix_cons

/-- **A list is read as the positions that it names**, if 1 does not stand right before 10 or 11. -/
theorem flagPositions_numerals (h : IsPositions ps) (hjoins : ¬ Joins ps) :
    flagPositions (numerals ps) = ps := by
  induction ps with
  | nil => rfl
  | cons p ps ih =>
    obtain ⟨hps, hp, hfirst⟩ := h.of_cons
    have hrest := ih hps fun hlater => hjoins (hlater.cons p)
    have hcases : p ≤ 9 ∨ p = 10 ∨ p = 11 := by omega
    rcases hcases with hnine | rfl | rfl
    · rw [numerals_digit hnine, flagPositions_digit hnine, hrest]
      by_cases hone : p = 1
      · -- The next position has one digit, and it is above 1.
        refine .inr fun e he => ?_
        subst hone
        cases ps with
        | nil => cases he
        | cons q ps =>
          have hnext := hfirst q List.mem_cons_self
          have hlast := hps.le q List.mem_cons_self
          have hten : q ≠ 10 := by
            rintro rfl
            exact hjoins (.inl ⟨[], ps, rfl⟩)
          have heleven : q ≠ 11 := by
            rintro rfl
            exact hjoins (.inr ⟨[], ps, rfl⟩)
          have hdigit : q ≤ 9 := by omega
          rw [numerals_digit hdigit, List.head?_cons, Option.mem_some_iff] at he
          have hvalue := (digitNumeral_spec hdigit).2.2.1
          refine ⟨fun heq => ?_, fun heq => ?_⟩ <;> rw [← he] at heq <;> rw [heq] at hvalue
          · change 48 = 48 + q at hvalue
            omega
          · change 49 = 48 + q at hvalue
            omega
      · exact .inl hone
    · change 10 :: flagPositions (numerals ps) = _
      rw [hrest]
    · change 11 :: flagPositions (numerals ps) = _
      rw [hrest]

theorem eq_nil_or_singleton {a : Nat} {s : List Nat} (hs : s.Pairwise (· < ·))
    (h : ∀ x ∈ s, x = a) : s = [] ∨ s = [a] := by
  cases s with
  | nil => exact .inl rfl
  | cons x s =>
    obtain rfl := h x List.mem_cons_self
    cases s with
    | nil => exact .inr rfl
    | cons y s =>
      have hlt := (List.pairwise_cons.mp hs).1 y List.mem_cons_self
      have heq := h y (by simp)
      omega

/-- The lists in which position 1 stands right before a position of two digits. -/
theorem Joins.mem (hjoins : Joins ps) (h : IsPositions ps) :
    ps ∈ [[1, 10], [0, 1, 10], [1, 10, 11], [0, 1, 10, 11], [1, 11], [0, 1, 11]] := by
  have hparts : ∀ {q : Nat} {s t : List Nat}, 10 ≤ q → IsPositions (s ++ [1, q] ++ t) →
      (s = [] ∨ s = [0]) ∧ (t = [] ∨ (q = 10 ∧ t = [11])) := by
    intro q s t hq hpositions
    obtain ⟨hleft, ht, hbehind⟩ := List.pairwise_append.mp hpositions.ascending
    obtain ⟨hs, -, hbefore⟩ := List.pairwise_append.mp hleft
    have hlast : ∀ x ∈ t, q < x ∧ x ≤ 11 := fun x hx =>
      ⟨hbehind q (by simp) x hx, hpositions.le x (List.mem_append_right _ hx)⟩
    refine ⟨eq_nil_or_singleton hs fun x hx => ?_, ?_⟩
    · have := hbefore x hx 1 (by simp)
      omega
    · cases t with
      | nil => exact .inl rfl
      | cons x t =>
        have hx := hlast x List.mem_cons_self
        have heleven := eq_nil_or_singleton ht fun y hy => show y = 11 by
          have := hlast y hy
          omega
        exact .inr ⟨by omega, heleven.resolve_left (by simp)⟩
  rcases hjoins with ⟨s, t, rfl⟩ | ⟨s, t, rfl⟩
  · obtain ⟨rfl | rfl, rfl | ⟨-, rfl⟩⟩ := hparts (by decide) h <;> decide
  · obtain ⟨rfl | rfl, rfl | ⟨heq, -⟩⟩ := hparts (by decide) h
    · decide
    · cases heq
    · decide
    · cases heq

/-- The positions that are flagged for a list. -/
def markedPositions (ps : List Nat) : List Nat := if [1, 10] <:+: ps then [0, 11] else ps

theorem mem_flagPositions (h : IsPositions ps) (i : Nat) :
    i ∈ flagPositions (numerals ps) ↔ i ∈ markedPositions ps := by
  by_cases hjoins : Joins ps
  · have hall : ∀ ps ∈ [[1, 10], [0, 1, 10], [1, 10, 11], [0, 1, 10, 11], [1, 11], [0, 1, 11]],
        flagPositions (numerals ps) ⊆ markedPositions ps ∧
          markedPositions ps ⊆ flagPositions (numerals ps) := by decide +kernel
    obtain ⟨hread, hmarked⟩ := hall ps (hjoins.mem h)
    exact ⟨fun hi => hread hi, fun hi => hmarked hi⟩
  · rw [flagPositions_numerals h hjoins, markedPositions, if_neg fun hten => hjoins (.inl hten)]

/-! ## Which cells are flagged -/

/-- **Flags are set on the listed cells**, and a text that is no list of positions sets none. The
listed positions are those that are flagged, unless position 1 stands right before position 10:
these two are read as 11 and 0. -/
theorem setFlags_marks (v : Value) {digits : Text} (hblank : digits.isBlank = false) :
    (v.setFlags digits = none ↔ ¬ ∃ ps, IsPositions ps ∧ digits = numerals ps) ∧
      ∀ ps, IsPositions ps → digits = numerals ps →
        v.setFlags digits = some (v.mark (if [1, 10] <:+: ps then [0, 11] else ps)) := by
  unfold Value.setFlags
  rw [if_neg (by simp [hblank])]
  constructor
  · rw [← Value.isFlagList_iff]
    split <;> rename_i hlist <;> simp [hlist]
  · intro ps hps hdigits
    rw [if_pos (Value.isFlagList_iff.mpr ⟨ps, hps, hdigits⟩), Value.flagListed_eq, hdigits]
    exact congrArg some (Value.mark_congr (mem_flagPositions hps) v)

theorem setFlags_marks_three : (ascii "1310").isBlank = false ∧ IsPositions [1, 3, 10] ∧
    Value.setFlags (List.replicate 12 0) (ascii "1310") =
      some [0, 0x10, 0, 0x10, 0, 0, 0, 0, 0, 0, 0x10, 0] ∧
    Value.setFlags (List.replicate 12 0) (ascii "31") = none := by
  have hpositions : IsPositions [1, 3, 10] := ⟨by decide, by decide⟩
  refine ⟨by decide, hpositions, ?_, ?_⟩
  · rw [(setFlags_marks _ (by decide)).2 [1, 3, 10] hpositions (by decide +kernel)]
    decide
  · refine (setFlags_marks _ (by decide)).1.mpr ?_
    rw [← Value.isFlagList_iff]
    decide

/-- **Positions 1 and 10 are misread**, as 11 and 0, in a text that is their list. -/
theorem joined_misread : IsPositions [1, 10] ∧ ascii "110" = numerals [1, 10] ∧
    Value.setFlags (List.replicate 12 0) (ascii "110") =
      some (Value.mark [0, 11] (List.replicate 12 0)) ∧
    Value.mark [0, 11] (List.replicate 12 0) ≠ Value.mark [1, 10] (List.replicate 12 0) :=
  ⟨⟨by decide, by decide⟩, by decide +kernel, by decide +kernel, by decide⟩

end SpsAssembler
