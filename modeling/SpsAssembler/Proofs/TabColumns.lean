import Mathlib.Order.Bounds.Basic
import SpsAssembler.Proofs.SourceStream

/-!
# Where tabs lead

A tab becomes blanks up to the next stop, and one blank where no stop is left. What a line becomes is
told here byte by byte, with the number of bytes that stand before each. A tab that stands right
before a listed column already is at a stop: it does not go on to the next one but becomes no blank
at all, so that what it should separate runs together.

* `TabStops.IsStop`, `TabStops.NextStop`: the stops, and the next one behind a place;
* `TabStops.Reaches`, **`reaches_spaces`**: the blanks for one tab;
* `TabStops.Expands`, **`expands_expandAll`**: a whole line, and `Expands.unique`: only one text;
* `isSound_of_parse?`: what stops are read as;
* **`expand_iff`**: every line, and all stops that can be read;
* **`adjacent_fields`**: a label that ends before a listed column.
-/

namespace SpsAssembler

namespace TabStops

variable {stops : TabStops} {pos : Nat}

/-! ## Stops -/

/-- A field may begin behind `p` bytes: there are stops a distance apart, or that column is listed. -/
def IsStop : TabStops → Nat → Prop
  | every n, p => n.toNatClampNeg ∣ p
  | columns stops, p => ∃ stop ∈ stops, stop.toInt = p + 1

/-- The place behind `p` bytes is a listed column. -/
def IsListed : TabStops → Nat → Prop
  | every _, _ => False
  | columns stops, p => (columns stops).IsStop p

/-- The nearest stop beyond a place, or the next place if there is no stop beyond it. -/
def NextStop (stops : TabStops) (pos next : Nat) : Prop :=
  IsLeast { p | pos < p ∧ stops.IsStop p } next ∨
    (∀ p, pos < p → ¬ stops.IsStop p) ∧ next = pos + 1

/-- The number of blanks for a tab: none at a listed column, and at any other place as many as lead to
the next stop. -/
def Reaches (stops : TabStops) (pos n : Nat) : Prop :=
  stops.IsListed pos ∧ n = 0 ∨ ¬ stops.IsListed pos ∧ 0 < n ∧ stops.NextStop pos (pos + n)

theorem NextStop.unique {p q : Nat} (h : stops.NextStop pos p) (g : stops.NextStop pos q) : p = q := by
  rcases h with h | ⟨hnone, rfl⟩
  · rcases g with g | ⟨hnone, -⟩
    · exact h.unique g
    · exact absurd h.1.2 (hnone p h.1.1)
  · rcases g with g | ⟨-, rfl⟩
    · exact absurd g.1.2 (hnone q g.1.1)
    · rfl

theorem Reaches.unique {m n : Nat} (h : stops.Reaches pos m) (g : stops.Reaches pos n) : m = n := by
  rcases h with ⟨hlisted, rfl⟩ | ⟨hlisted, -, hnext⟩
  · rcases g with ⟨-, rfl⟩ | ⟨hnot, -, -⟩
    · rfl
    · exact absurd hlisted hnot
  · rcases g with ⟨hat, -⟩ | ⟨-, -, hnext'⟩
    · exact absurd hat hlisted
    · exact Nat.add_left_cancel (hnext.unique hnext')

/-! ## One tab -/

theorem reaches_every {n : Word} (hn : 1 ≤ n) (pos : Nat) :
    (every n).Reaches pos ((every n).spaces pos) := by
  have hone : (1 : Word).toInt = 1 := rfl
  have hle := Int64.le_iff_toInt_le.mp hn
  have hpos : 0 < n.toNatClampNeg := by
    rw [Int64.toNatClampNeg]
    omega
  simp only [Reaches, spaces, NextStop, IsStop, IsListed]
  generalize n.toNatClampNeg = m at hpos ⊢
  have hmod := Nat.mod_lt pos hpos
  have hnext : pos + (m - pos % m) = m * (pos / m + 1) := by
    have hdiv := Nat.div_add_mod pos m
    rw [Nat.mul_add, Nat.mul_one]
    omega
  refine .inr ⟨not_false, by omega, .inl ⟨⟨by omega, ⟨_, hnext⟩⟩, ?_⟩⟩
  rintro p ⟨hlt, k, rfl⟩
  have hk : pos / m < k := Nat.div_lt_of_lt_mul hlt
  rw [hnext]
  exact Nat.mul_le_mul_left m hk

theorem least_of_find? {listed : List Word} (hascending : listed.Pairwise (· < ·)) {stop : Word}
    (h : listed.find? (fun stop => (pos : Int) < stop.toInt) = some stop) :
    stop ∈ listed ∧ (pos : Int) < stop.toInt ∧
      ∀ other ∈ listed, (pos : Int) < other.toInt → stop.toInt ≤ other.toInt := by
  obtain ⟨hstop, before, after, rfl, hbefore⟩ := List.find?_eq_some_iff_append.mp h
  refine ⟨by simp, by simpa using hstop, fun other hother hlt => ?_⟩
  rcases List.mem_append.mp hother with hother | hother
  · have hnot := hbefore other hother
    simp only [Bool.not_eq_true', decide_eq_false_iff_not] at hnot
    exact absurd hlt hnot
  · rcases List.mem_cons.mp hother with rfl | hother
    · exact Int.le_refl _
    · have hafter := (List.pairwise_append.mp hascending).2.1
      exact Int.le_of_lt (Int64.lt_iff_toInt_lt.mp (List.rel_of_pairwise_cons hafter hother))

theorem reaches_columns {listed : List Word} (hascending : listed.Pairwise (· < ·)) (pos : Nat) :
    (columns listed).Reaches pos ((columns listed).spaces pos) := by
  simp only [Reaches, spaces, NextStop, IsStop, IsListed]
  cases hfind : listed.find? fun stop => (pos : Int) < stop.toInt with
  | none =>
    have hnone : ∀ p : Nat, pos ≤ p → ¬ ∃ stop ∈ listed, stop.toInt = p + 1 := by
      rintro p hp ⟨stop, hstop, heq⟩
      have hnot := List.find?_eq_none.mp hfind stop hstop
      simp only [decide_eq_true_eq] at hnot
      omega
    exact .inr ⟨hnone pos (Nat.le_refl _), Nat.one_pos, .inr ⟨fun p hp => hnone p (by omega), rfl⟩⟩
  | some stop =>
    obtain ⟨hmem, hlt, hleast⟩ := least_of_find? hascending hfind
    have hstop : (stop.toNatClampNeg : Int) = stop.toInt := by
      rw [Int64.toNatClampNeg]
      omega
    dsimp only
    by_cases hat : stop.toInt = pos + 1
    · exact .inl ⟨⟨stop, hmem, hat⟩, by omega⟩
    · refine .inr ⟨?_, by omega, .inl ⟨⟨by omega, stop, hmem, by omega⟩, ?_⟩⟩
      · rintro ⟨other, hother, heq⟩
        have hle := hleast other hother (by omega)
        omega
      · rintro p ⟨hp, other, hother, heq⟩
        have hle := hleast other hother (by omega)
        omega

/-- Stops as they are read: columns of a line, in ascending order. -/
structure IsSound (stops : TabStops) : Prop where
  inRange : stops.InRange
  ascending : stops.toList.Pairwise (· < ·)

/-- **The blanks for one tab.** -/
theorem reaches_spaces (h : stops.IsSound) (pos : Nat) : stops.Reaches pos (stops.spaces pos) := by
  cases stops with
  | every n => exact reaches_every (h.inRange n (List.mem_singleton_self n)).1 pos
  | columns listed => exact reaches_columns h.ascending pos

/-! ## Whole lines -/

/-- What a line becomes behind `pos` bytes: bytes stay as they are, and tabs become blanks. -/
inductive Expands (stops : TabStops) : Nat → Text → Text → Prop
  | nil (pos : Nat) : Expands stops pos [] []
  | byte {pos : Nat} {b : Byte} {line out : Text} (hb : b ≠ Byte.tab)
      (h : Expands stops (pos + 1) line out) : Expands stops pos (b :: line) (b :: out)
  | tab {pos n : Nat} {line out : Text} (hn : stops.Reaches pos n)
      (h : Expands stops (pos + n) line out) :
      Expands stops pos (Byte.tab :: line) (Text.blanks n ++ out)

variable {line out : Text}

theorem Expands.unique {out' : Text} (h : stops.Expands pos line out)
    (g : stops.Expands pos line out') : out' = out := by
  induction h generalizing out' with
  | nil => cases g; rfl
  | byte hb _ ih =>
    cases g with
    | byte _ g => rw [ih g]
    | tab => exact absurd rfl hb
  | tab hn _ ih =>
    cases g with
    | byte hb => exact absurd rfl hb
    | tab hn' g =>
      cases hn.unique hn'
      rw [ih g]

theorem Expands.tab_notMem (h : stops.Expands pos line out) : Byte.tab ∉ out := by
  induction h with
  | nil => exact List.not_mem_nil
  | byte hb _ ih => exact List.not_mem_cons_of_ne_of_not_mem hb.symm ih
  | tab _ _ ih =>
    refine fun hmem => (List.mem_append.mp hmem).elim (fun hblank => ?_) ih
    exact absurd (List.eq_of_mem_replicate hblank) (by decide)

/-- The expanded line is built from its end, so what was built before is a suffix of it. -/
theorem expands_foldl (h : stops.IsSound) (line built : Text) (pos : Nat) :
    ∃ out, (line.foldl stops.expandByte (built, pos)).1.reverse = built.reverse ++ out ∧
      stops.Expands pos line out := by
  induction line generalizing built pos with
  | nil => exact ⟨[], by simp, .nil pos⟩
  | cons b line ih =>
    rw [List.foldl_cons, expandByte]
    by_cases hb : b = Byte.tab
    · subst hb
      rw [if_pos (by decide)]
      obtain ⟨out, hout, hexpands⟩ := ih (Text.blanks (stops.spaces pos) ++ built)
        (pos + stops.spaces pos)
      refine ⟨_, ?_, .tab (reaches_spaces h pos) hexpands⟩
      rw [hout, List.reverse_append, Text.blanks, List.reverse_replicate, List.append_assoc]
    · rw [if_neg (by simpa using hb)]
      obtain ⟨out, hout, hexpands⟩ := ih (b :: built) (pos + 1)
      exact ⟨_, by rw [hout, List.reverse_cons, List.append_assoc]; rfl, .byte hb hexpands⟩

/-- **A whole line.** -/
theorem expands_expandAll (h : stops.IsSound) (line : Text) :
    stops.Expands 0 line (stops.expandAll line) := by
  obtain ⟨out, hout, hexpands⟩ := expands_foldl h line [] 0
  rwa [expandAll, hout]

theorem expands_self (h : Byte.tab ∉ line) (pos : Nat) : stops.Expands pos line line := by
  induction line generalizing pos with
  | nil => exact .nil pos
  | cons b line ih =>
    rw [List.mem_cons, not_or] at h
    exact .byte (Ne.symm h.1) (ih h.2 (pos + 1))

theorem expand_eq (h : stops.IsSound) (line : Text) :
    stops.expand line = .ok (stops.expandAll line) := by
  obtain ⟨text, htext⟩ := expand_ok h.inRange line
  rw [htext]
  unfold expand at htext
  split_ifs at htext with hnone <;> cases htext
  · have hline : Byte.tab ∉ line := by simpa using hnone
    rw [(expands_self hline 0).unique (expands_expandAll h line)]
  · rfl

/-! ## Stops that can be read -/

theorem sound_parseFrom {floor : Word} {parts : List Text} {ns : List Word}
    (h : parseFrom floor parts = some ns) :
    (∀ n ∈ ns, floor < n ∧ 1 ≤ n ∧ n ≤ maxColumn) ∧ ns.Pairwise (· < ·) := by
  induction parts generalizing floor ns with
  | nil =>
    cases h
    exact ⟨by simp, .nil⟩
  | cons part rest ih =>
    unfold parseFrom at h
    split at h
    · cases h
    · rename_i n _
      split at h
      · cases h
      · rename_i hrange
        simp only [Bool.or_eq_true, decide_eq_true_eq, not_or, Int64.not_lt, Int64.not_le] at hrange
        obtain ⟨⟨hlo, hhi⟩, hfloor⟩ := hrange
        obtain ⟨ms, hms, rfl⟩ := Option.map_eq_some_iff.mp h
        obtain ⟨hall, hascending⟩ := ih hms
        refine ⟨fun m hm => ?_, .cons (fun m hm => (hall m hm).1) hascending⟩
        rcases List.mem_cons.mp hm with rfl | hm
        · exact ⟨hfloor, hlo, hhi⟩
        · exact ⟨Int64.lt_trans hfloor (hall m hm).1, (hall m hm).2⟩

theorem isSound_of_parse? {t : Text} (h : parse? t = some stops) : stops.IsSound := by
  obtain ⟨ns, hns, rfl⟩ := Option.map_eq_some_iff.mp h
  obtain ⟨hrange, hascending⟩ := sound_parseFrom hns
  cases ns with
  | nil => exact ⟨by decide, List.pairwise_singleton ..⟩
  | cons n ns =>
    have hlist : (ofList (n :: ns)).toList = n :: ns := by cases ns <;> rfl
    refine ⟨fun m hm => (hrange m (hlist ▸ hm)).2, ?_⟩
    rwa [hlist]

/-- **Where tabs lead.** With stops that can be read every line is expanded: the bytes other than tabs
stay in order, no tab is left, and a tab becomes one blank or more up to the next stop, or one blank
if there is none; but a tab right before a listed column becomes no blank. -/
theorem expand_iff {t : Text} (h : parse? t = some stops) (line : Text) :
    (∃ out, stops.expand line = .ok out ∧ Byte.tab ∉ out) ∧
      ∀ out, stops.expand line = .ok out ↔ stops.Expands 0 line out := by
  have hsound := isSound_of_parse? h
  have hexpands := expands_expandAll hsound line
  rw [expand_eq hsound line]
  refine ⟨⟨_, rfl, hexpands.tab_notMem⟩, fun out => ⟨fun heq => ?_, fun hout => ?_⟩⟩
  · cases heq
    exact hexpands
  · rw [hexpands.unique hout]

/-- Tabs to each of two listed columns, and one behind the last. -/
theorem expand_iff_fields : parse? (ascii "6,12") = some (columns [6, 12]) ∧
    (columns [6, 12]).expand (ascii "L\tLABEL\tX\tY") = .ok (ascii "L    LABEL X Y") ∧
    (columns [6, 12]).Expands 0 (ascii "L\tLABEL\tX\tY") (ascii "L    LABEL X Y") := by
  have hparse : parse? (ascii "6,12") = some (columns [6, 12]) := by decide +kernel
  have hexpand : (columns [6, 12]).expand (ascii "L\tLABEL\tX\tY") = .ok (ascii "L    LABEL X Y") := by
    decide +kernel
  exact ⟨hparse, hexpand, ((expand_iff hparse _).2 _).mp hexpand⟩

/-- A label that ends right before a listed column runs together with what a tab should separate it
from. -/
theorem adjacent_fields : parse? (ascii "6,12") = some (columns [6, 12]) ∧
    (columns [6, 12]).expand (ascii "LABEL\tDC") = .ok (ascii "LABELDC") := by
  decide +kernel

end TabStops

end SpsAssembler
