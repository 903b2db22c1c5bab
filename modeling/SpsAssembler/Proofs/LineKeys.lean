import SpsAssembler.Proofs.MessageLines
import SpsAssembler.Proofs.SourceStream

/-!
# Keys of lines in long files

A key has 18 bits for the number of the line, and nothing keeps a file from having more lines. What
the key holds is the number of the line modulo `2 ^ 18`. With a single file the key is the number
itself, but it is shown as if it had a file in front, so that the same bits are left.

* `lineKey_mod`: what a key holds of the number of a line;
* `splitLineKey_mod`, **`lineKey_lt_iff`**: what a key stands for, and the order of keys;
* `Text.ofNat_inj`, `Text.padLeft_ofNat_inj`: numerals tell numbers apart, in columns too;
* `Provenance.lineNumber_single`, `locateLine_single`: keys of a single file as they are shown;
* **`lineKeys_exact`**: up to which line keys are right.
-/

namespace SpsAssembler

/-! ## What a key holds -/

section Keys

variable {i j m n : Nat}

theorem Word.ofNat_inj (hm : m < 2 ^ 63) (hn : n < 2 ^ 63) :
    Int64.ofNat m = Int64.ofNat n ↔ m = n := by
  refine ⟨fun h => ?_, congrArg Int64.ofNat⟩
  have hclamp := congrArg Int64.toNatClampNeg h
  rwa [clamp_ofNat hm, clamp_ofNat hn] at hclamp

/-- Lines that are `2 ^ 18` apart have one key. -/
theorem lineKey_mod (file : Word) (hn : n < 2 ^ 63) :
    lineKey file (Int64.ofNat n) true = lineKey file (Int64.ofNat (n % 2 ^ 18)) true := by
  rw [lineKey, lineKey, if_pos rfl, if_pos rfl, and_lineMask hn, and_lineMask (by omega),
    Nat.mod_mod]

/-- A key gives back the file, and of the line what it holds. -/
theorem splitLineKey_mod (hi : i < 2 ^ 40) (hn : n < 2 ^ 63) :
    splitLineKey (lineKey (Int64.ofNat i) (Int64.ofNat n) true) =
      (Int64.ofNat i, Int64.ofNat (n % 2 ^ 18)) := by
  rw [lineKey_mod _ hn]
  exact splitLineKey_lineKey hi (by omega)

/-- **The order of keys** is that of files, and in a file that of what keys hold. -/
theorem lineKey_lt_iff (hi : i < 2 ^ 40) (hj : j < 2 ^ 40) (hm : m < 2 ^ 63) (hn : n < 2 ^ 63) :
    lineKey (Int64.ofNat i) (Int64.ofNat m) true < lineKey (Int64.ofNat j) (Int64.ofNat n) true ↔
      i < j ∨ (i = j ∧ m % 2 ^ 18 < n % 2 ^ 18) := by
  rw [lineKey_mod _ hm, lineKey_mod _ hn, Int64.lt_iff_toInt_lt, toInt_lineKey hi (by omega),
    toInt_lineKey hj (by omega)]
  omega

end Keys

/-! ## Numerals -/

namespace Text

variable {m n : Nat}

theorem ofNat_inj : ofNat m = ofNat n ↔ m = n := by
  refine ⟨fun h => ?_, congrArg ofNat⟩
  have hm := digitsValue_zeros_ofNat 0 m
  have hn := digitsValue_zeros_ofNat 0 n
  rw [h, hn] at hm
  exact hm.symm

theorem ofInt_natCast (n : Nat) : ofInt n = ofNat n := by
  rw [ofInt, if_neg (by omega), Int.natAbs_natCast]

theorem ofWord_ofNat (hn : n < 2 ^ 63) : ofWord (Int64.ofNat n) = ofNat n := by
  rw [ofWord, Int64.toInt_ofNat_of_lt hn, ofInt_natCast]

theorem dropWhile_padLeft {t : Text} {b : Byte} (hhead : t.head? = some b) (hb : b ≠ Byte.blank)
    (k : Nat) : (t.padLeft k).dropWhile (· == Byte.blank) = t := by
  obtain ⟨rest, rfl⟩ := List.head?_eq_some_iff.mp hhead
  rw [padLeft, blanks, List.dropWhile_append_of_pos fun c hc => ?_, List.dropWhile_cons_of_neg ?_]
  · simpa using hb
  · simpa using (List.mem_replicate.mp hc).2

theorem padLeft_ofNat_inj (k : Nat) : (ofNat m).padLeft k = (ofNat n).padLeft k ↔ m = n := by
  refine ⟨fun h => ?_, fun h => by rw [h]⟩
  obtain ⟨b, hb, hblank⟩ := head?_ofNat m
  obtain ⟨c, hc, hblank'⟩ := head?_ofNat n
  have hsame := congrArg (List.dropWhile (· == Byte.blank)) h
  rw [dropWhile_padLeft hb hblank, dropWhile_padLeft hc hblank'] at hsame
  exact ofNat_inj.mp hsame

end Text

/-! ## Keys as they are shown -/

section Shown

variable {n : Nat}

theorem Provenance.multi_single {p : Provenance} (h : p.files.length = 1) : p.multi = false := by
  rw [multi, h]
  rfl

theorem Provenance.lineNumber_single {p : Provenance} (h : p.files.length = 1) (hn : n < 2 ^ 63) :
    p.lineNumber (Int64.ofNat n) = (Text.ofNat (n % 2 ^ 18)).padLeft 7 := by
  rw [lineNumber, multi_single h, splitLineKey, and_lineMask hn]
  dsimp only
  rw [if_neg (by decide), Text.ofWord_ofNat (by omega)]

theorem locateLine_single (files : List Text) (hn : n < 2 ^ 63) :
    locateLine files false (Int64.ofNat n) = Text.ofNat (n % 2 ^ 18) := by
  rw [locateLine, splitLineKey, and_lineMask hn]
  dsimp only
  rw [Bool.false_and, Bool.false_and, if_neg (by decide), Text.ofWord_ofNat (by omega)]

end Shown

/-- **Keys are right up to line `2 ^ 18 - 1`.** A key of several files gives back the file, and the
line modulo `2 ^ 18`; that is the line if and only if it is below `2 ^ 18`. Keys are in the order of
files, and in a file in that of lines modulo `2 ^ 18`. With a single file the listing and the
messages show the line modulo `2 ^ 18`, and so the line if and only if it is below `2 ^ 18`. -/
theorem lineKeys_exact {f g m n : Word} (hf : 1 ≤ f ∧ f ≤ 15) (hg : 1 ≤ g ∧ g ≤ 15) (hm : 1 ≤ m)
    (hn : 1 ≤ n) :
    splitLineKey (lineKey f n true) = (f, Int64.ofInt (n.toInt % 2 ^ 18)) ∧
    (splitLineKey (lineKey f n true) = (f, n) ↔ n.toInt < 2 ^ 18) ∧
    (lineKey f m true < lineKey g n true ↔
      f < g ∨ (f = g ∧ m.toInt % 2 ^ 18 < n.toInt % 2 ^ 18)) ∧
    ∀ p : Provenance, p.files.length = 1 →
      p.lineNumber (lineKey 1 n false) = (Text.ofInt (n.toInt % 2 ^ 18)).padLeft 7 ∧
      (p.lineNumber (lineKey 1 n false) = (Text.ofWord n).padLeft 7 ↔ n.toInt < 2 ^ 18) ∧
      locateLine p.files p.multi (lineKey 1 n false) = Text.ofInt (n.toInt % 2 ^ 18) ∧
      (locateLine p.files p.multi (lineKey 1 n false) = Text.ofWord n ↔ n.toInt < 2 ^ 18) := by
  have hpositive : ∀ {a : Word}, 1 ≤ a → 0 ≤ a.toInt := fun h =>
    Int.le_trans (by decide) (Int64.le_iff_toInt_le.mp h)
  obtain ⟨i, hi, rfl⟩ := Word.exists_ofNat (hpositive hf.1)
  obtain ⟨j, hj, rfl⟩ := Word.exists_ofNat (hpositive hg.1)
  obtain ⟨k, hk, rfl⟩ := Word.exists_ofNat (hpositive hm)
  obtain ⟨l, hl, rfl⟩ := Word.exists_ofNat (hpositive hn)
  have hifile : i ≤ 15 := (Int64.ofNat_le_iff_le hi (by decide)).mp hf.2
  have hjfile : j ≤ 15 := (Int64.ofNat_le_iff_le hj (by decide)).mp hg.2
  -- A line below `2 ^ 18` is all that is held of it.
  have hheld : l % 2 ^ 18 = l ↔ (l : Int) < 2 ^ 18 := by omega
  have hcast : (l : Int) % 2 ^ 18 = ((l % 2 ^ 18 : Nat) : Int) := by omega
  rw [Int64.toInt_ofNat_of_lt hk, Int64.toInt_ofNat_of_lt hl, Int64.ofNat_lt_iff_lt hi hj,
    Word.ofNat_inj hi hj, lineKey_lt_iff (by omega) (by omega) hk hl,
    splitLineKey_mod (by omega) hl, hcast, Int64.ofInt_eq_ofNat, Text.ofInt_natCast,
    Text.ofWord_ofNat hl]
  refine ⟨rfl, ?_, ?_, fun p hp => ?_⟩
  · rw [Prod.mk.injEq, Word.ofNat_inj (by omega) hl, hheld]
    simp
  · omega
  · rw [lineKey, if_neg (by decide), p.lineNumber_single hp hl, Provenance.multi_single hp,
      locateLine_single _ hl]
    exact ⟨rfl, (Text.padLeft_ofNat_inj 7).trans hheld, rfl, Text.ofNat_inj.trans hheld⟩

/-- A run over one file. -/
def singleRun : Provenance where
  files := [ascii "prog.sps"]
  fixed := true
  stamp := { year := 2024, month := 3, day := 5, hour := 9, minute := 7 }

theorem lineKeys_exact_lastLine :
    splitLineKey (lineKey 14 262143 true) = (14, 262143) ∧
      lineKey 14 262142 true < lineKey 14 262143 true ∧
      lineKey 14 262143 true < lineKey 15 1 true ∧
      singleRun.lineNumber (lineKey 1 262143 false) = ascii " 262143" ∧
      locateLine singleRun.files singleRun.multi (lineKey 1 262143 false) = ascii "262143" := by
  obtain ⟨-, hsplit, hbefore, hshown⟩ := @lineKeys_exact 14 14 262142 262143 (by decide) (by decide)
    (by decide) (by decide)
  obtain ⟨-, -, hfiles, -⟩ := @lineKeys_exact 14 15 262143 1 (by decide) (by decide) (by decide)
    (by decide)
  obtain ⟨hnumber, -, hplace, -⟩ := hshown singleRun rfl
  exact ⟨hsplit.mpr (by decide), hbefore.mpr (by decide), hfiles.mpr (by decide),
    hnumber.trans (by decide +kernel), hplace.trans (by decide)⟩

/-- **Line `2 ^ 18` of a file is taken for line 0**, before the others of the file, and the line
behind it for line 1. -/
theorem longFile_misnumbered :
    splitLineKey (lineKey 1 262144 true) = (1, 0) ∧
      lineKey 1 262144 true < lineKey 1 262143 true ∧
      singleRun.lineNumber (lineKey 1 262145 false) = ascii "      1" ∧
      locateLine singleRun.files singleRun.multi (lineKey 1 262145 false) = ascii "1" := by
  decide +kernel

end SpsAssembler
