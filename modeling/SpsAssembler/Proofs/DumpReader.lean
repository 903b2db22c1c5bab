import SpsAssembler.Output.CoreDump
import SpsAssembler.Proofs.Core

/-!
# Reading a core dump

A dump is read line by line: a line that starts with an address of five digits and a colon stores
the cells that it lists, and every other line is passed over. What is written as an address or as
cells is read back, whatever stands behind it.

* `listedCells`, `cellLine?`, `loadLine`, **`loadDump`**: the reader;
* `Text.digitsValue_zeros_ofNat`, `cellLine?_dumpAddress`: addresses;
* `Lists`, `Lists.instructionHex`: cells in hexadecimal;
* `Loads`, **`loads_cells`**, **`loads_comment`**: lines.
-/

namespace SpsAssembler

/-! ## The reader -/

/-- The value of a capital hexadecimal digit. -/
def hexValue? (b : Byte) : Option Nat :=
  if b.isDigit then some (b - '0'.toUInt8).toNat
  else if Byte.within 'A' 'F' b then some ((b - 'A'.toUInt8).toNat + 10)
  else none

/-- The cells that a text lists up to two slashes: two hexadecimal digits each, blanks between. -/
def listedCells : Text → Option Value
  | [] => some []
  | [b] => if b == Byte.blank then some [] else none
  | b :: c :: rest =>
    if b == Byte.blank then listedCells (c :: rest)
    else if b == '/'.toUInt8 && c == '/'.toUInt8 then some []
    else match hexValue? b, hexValue? c with
      | some high, some low => (listedCells rest).map ((16 * high + low).toUInt8 :: ·)
      | _, _ => none

/-- The address of a line that starts with five digits and a colon, and what stands behind it. -/
def cellLine? (line : Text) : Option (Nat × Text) :=
  if (line.take 5).all Byte.isDigit && (line.drop 5).head? == some ':'.toUInt8 then
    some (Text.digitsValue (line.take 5), line.drop 6)
  else none

/-- Stores what a line of a dump lists. -/
def loadLine (m : Memory) (line : Text) : Option Memory :=
  match cellLine? line with
  | none => some m
  | some (address, text) =>
    (listedCells text).bind fun v =>
      if address + v.length ≤ m.cells.size then some (m.place address v) else none

/-- Stores what all lines of a dump list, one after the other. -/
def loadDump (m : Memory) (dump : Text) : Option Memory :=
  (dump.fields Byte.newline).foldlM loadLine m

/-! ## Numerals -/

namespace Text

theorem toUInt8_digitChar {d : Nat} (h : d < 10) : (Nat.digitChar d).toUInt8 = Byte.ofDigit d := by
  have hall : ∀ n ∈ List.range 10, (Nat.digitChar n).toUInt8 = Byte.ofDigit n := by decide
  exact hall d (List.mem_range.mpr h)

theorem ofNat_eq (n : Nat) :
    ofNat n = (if n < 10 then [] else ofNat (n / 10)) ++ [Byte.ofDigit (n % 10)] := by
  unfold ofNat
  rw [Nat.toDigits_eq_if (by omega)]
  split
  · rename_i h
    rw [List.map_singleton, toUInt8_digitChar h, Nat.mod_eq_of_lt h, List.nil_append]
  · rw [List.map_append, List.map_singleton, toUInt8_digitChar (by omega)]

theorem ofNat_ne_nil (n : Nat) : ofNat n ≠ [] := by
  rw [ofNat_eq]
  simp

theorem ofDigit_spec {d : Nat} (h : d < 10) :
    (Byte.ofDigit d).isDigit = true ∧ (Byte.ofDigit d - '0'.toUInt8).toNat = d := by
  have hall : ∀ n ∈ List.range 10,
      (Byte.ofDigit n).isDigit = true ∧ (Byte.ofDigit n - '0'.toUInt8).toNat = n := by decide
  exact hall d (List.mem_range.mpr h)

theorem isDigit_ofNat (n : Nat) : ∀ b ∈ ofNat n, b.isDigit = true := by
  induction n using Nat.strongRecOn with
  | ind n ih =>
    rw [ofNat_eq]
    intro b hb
    rcases List.mem_append.mp hb with hb | hb
    · split at hb
      · cases hb
      · exact ih (n / 10) (by omega) b hb
    · rw [List.mem_singleton.mp hb]
      exact (ofDigit_spec (by omega)).1

theorem digitsValue_append (t : Text) (b : Byte) :
    digitsValue (t ++ [b]) = 10 * digitsValue t + (b - '0'.toUInt8).toNat := by
  rw [digitsValue, List.foldl_append]
  rfl

theorem digitsValue_zeros (k : Nat) : digitsValue (List.replicate k '0'.toUInt8) = 0 := by
  induction k with
  | zero => rfl
  | succ k ih =>
    rw [List.replicate_succ', digitsValue_append, ih]
    rfl

/-- **A numeral spells its number**, zeros in front of it or not. -/
theorem digitsValue_zeros_ofNat (k n : Nat) :
    digitsValue (List.replicate k '0'.toUInt8 ++ ofNat n) = n := by
  induction n using Nat.strongRecOn with
  | ind n ih =>
    rw [ofNat_eq, ← List.append_assoc, digitsValue_append, (ofDigit_spec (by omega)).2]
    split
    · rw [List.append_nil, digitsValue_zeros]
      omega
    · rw [ih (n / 10) (by omega)]
      omega

theorem length_ofNat_le {k n : Nat} (hk : 0 < k) (h : n < 10 ^ k) : (ofNat n).length ≤ k := by
  induction k generalizing n with
  | zero => omega
  | succ k ih =>
    rw [ofNat_eq, List.length_append, List.length_singleton]
    split
    · simp
    · rename_i hn
      have hpos : 0 < k := by
        cases k with
        | zero => exact absurd h hn
        | succ k => exact Nat.succ_pos k
      rw [Nat.pow_succ] at h
      have hlength := ih (n := n / 10) hpos (by omega)
      omega

end Text

theorem fiveDigits_spec {w : Word} (hlo : 0 ≤ w.toInt) (hhi : w.toInt < 100000) :
    (fiveDigits w).length = 5 ∧ (∀ b ∈ fiveDigits w, b.isDigit = true) ∧
      Text.digitsValue (fiveDigits w) = w.toNatClampNeg := by
  have hsign : ¬ w < 0 := by
    rw [Int64.lt_iff_toInt_lt, show (0 : Word).toInt = 0 from rfl]
    omega
  have hnat : w.toInt.natAbs = w.toNatClampNeg := by
    rw [Int64.toNatClampNeg]
    omega
  have hlength := Text.length_ofNat_le (by decide : 0 < 5) (by omega : w.toInt.natAbs < 10 ^ 5)
  have hdigits : fiveDigits w = List.replicate (5 - (Text.ofNat w.toInt.natAbs).length) '0'.toUInt8 ++
      Text.ofNat w.toInt.natAbs := if_neg hsign
  rw [hdigits]
  refine ⟨?_, fun b hb => ?_, ?_⟩
  · rw [List.length_append, List.length_replicate]
    omega
  · rcases List.mem_append.mp hb with hb | hb
    · rw [(List.mem_replicate.mp hb).2]
      decide
    · exact Text.isDigit_ofNat _ b hb
  · rw [Text.digitsValue_zeros_ofNat, hnat]

theorem cellLine?_dumpAddress {w : Word} (hlo : 0 ≤ w.toInt) (hhi : w.toInt < 100000)
    (text : Text) : cellLine? (dumpAddress w ++ text) =
      some (w.toNatClampNeg, Byte.blank :: text) := by
  obtain ⟨hlength, hdigits, hvalue⟩ := fiveDigits_spec hlo hhi
  have hline : dumpAddress w ++ text =
      fiveDigits w ++ ':'.toUInt8 :: Byte.blank :: text := by
    rw [dumpAddress, List.append_assoc]
    rfl
  have htake : (fiveDigits w ++ ':'.toUInt8 :: Byte.blank :: text).take 5 = fiveDigits w := by
    rw [List.take_append_of_le_length (by omega), List.take_of_length_le (by omega)]
  have hdrop : (fiveDigits w ++ ':'.toUInt8 :: Byte.blank :: text).drop 6 = Byte.blank :: text := by
    rw [List.drop_append, hlength, List.drop_of_length_le (by omega)]
    rfl
  have hcolon : ((fiveDigits w ++ ':'.toUInt8 :: Byte.blank :: text).drop 5).head? =
      some ':'.toUInt8 := by
    rw [List.drop_append, hlength, List.drop_of_length_le (by omega)]
    rfl
  unfold cellLine?
  rw [hline, htake, hdrop, hcolon, if_pos, hvalue]
  rw [List.all_eq_true.mpr hdigits]
  decide

/-! ## Cells -/

theorem hexDigit_spec {n : Nat} (h : n < 16) :
    hexValue? (Text.hexDigit n) = some n ∧ Text.hexDigit n ≠ Byte.blank ∧
      Text.hexDigit n ≠ '/'.toUInt8 ∧ Byte.newline ≠ Text.hexDigit n := by
  have hall : ∀ n ∈ List.range 16, hexValue? (Text.hexDigit n) = some n ∧
      Text.hexDigit n ≠ Byte.blank ∧ Text.hexDigit n ≠ '/'.toUInt8 ∧
      Byte.newline ≠ Text.hexDigit n := by decide
  exact hall n (List.mem_range.mpr h)

/-- A text without an end of line that lists cells, whatever stands behind it. -/
structure Lists (t : Text) (v : Value) : Prop where
  reads : ∀ rest, listedCells (t ++ rest) = (listedCells rest).map (v ++ ·)
  oneLine : Byte.newline ∉ t

namespace Lists

theorem nil : Lists [] [] := ⟨fun rest => by simp, List.not_mem_nil⟩

theorem append {t u : Text} {v w : Value} (ht : Lists t v) (hu : Lists u w) :
    Lists (t ++ u) (v ++ w) := by
  refine ⟨fun rest => ?_, fun h => ?_⟩
  · rw [List.append_assoc, ht.reads, hu.reads, Option.map_map]
    congr 1
    funext x
    simp
  · exact (List.mem_append.mp h).elim ht.oneLine hu.oneLine

theorem blank : Lists [Byte.blank] [] := by
  refine ⟨fun rest => ?_, by decide⟩
  cases rest with
  | nil => rfl
  | cons b rest =>
    rw [List.singleton_append, listedCells, if_pos (by decide)]
    simp

theorem blanks (n : Nat) : Lists (Text.blanks n) [] := by
  induction n with
  | zero => exact nil
  | succ n ih => exact blank.append ih

theorem hex2 (c : Cell) : Lists (Text.hex2 c) [c] := by
  have hc := c.toNat_lt
  obtain ⟨hhigh, hblank, hslash, hend⟩ := hexDigit_spec (n := c.toNat / 16) (by omega)
  obtain ⟨hlow, -, -, hend'⟩ := hexDigit_spec (n := c.toNat % 16) (by omega)
  have hcell : (16 * (c.toNat / 16) + c.toNat % 16).toUInt8 = c := by
    rw [show 16 * (c.toNat / 16) + c.toNat % 16 = c.toNat by omega]
    exact UInt8.ofNat_toNat
  refine ⟨fun rest => ?_, ?_⟩
  · change listedCells (_ :: _ :: rest) = _
    rw [listedCells, if_neg (by simpa using hblank), if_neg (by simp [hslash]), hhigh, hlow]
    dsimp only
    rw [hcell]
    rfl
  · rw [Text.hex2, List.mem_cons, List.mem_singleton]
    exact fun h => h.elim hend hend'

theorem hexCells (v : Value) : Lists (hexCells v) v := by
  induction v with
  | nil => exact nil
  | cons c v ih =>
    have hcons : Lists (Text.hex2 c ++ [Byte.blank] ++ SpsAssembler.hexCells v) ([c] ++ [] ++ v) :=
      ((hex2 c).append blank).append ih
    exact hcons

theorem hexGroup (v : Value) : Lists (hexGroup v) v := by
  induction v with
  | nil => exact nil
  | cons c v ih =>
    cases v with
    | nil => exact hex2 c
    | cons d v => exact ((hex2 c).append blank).append ih

theorem padRight {t : Text} {v : Value} (h : Lists t v) (n : Nat) : Lists (t.padRight n) v := by
  have hpadded := h.append (blanks (n - t.width))
  rwa [List.append_nil] at hpadded

theorem operand (v : Value) (n : Nat) :
    Lists (if v.length ≤ n then [] else ascii "  " ++ SpsAssembler.hexGroup ((v.drop n).take 5))
      ((v.drop n).take 5) := by
  split
  · rename_i h
    rw [List.drop_of_length_le h]
    exact nil
  · exact (blanks 2).append (hexGroup _)

/-- **An instruction is read back** from its operation, P and Q. -/
theorem instructionHex {v : Value} (h : v.length ≤ 12) : Lists (instructionHex v) v := by
  have hparts : v.take 2 ++ (v.drop 2).take 5 ++ (v.drop 7).take 5 = v := by
    rw [List.take_of_length_le (by simp; omega : (v.drop 7).length ≤ 5), List.append_assoc,
      show v.drop 7 = (v.drop 2).drop 5 by rw [List.drop_drop], List.take_append_drop,
      List.take_append_drop]
  have hall := ((hexGroup (v.take 2)).append (operand v 2)).append (operand v 7)
  rwa [hparts] at hall

end Lists

/-! ## Lines -/

namespace Text

theorem fields_append {sep : Byte} {t : Text} (h : sep ∉ t) (rest : Text) :
    (t ++ sep :: rest).fields sep = t :: rest.fields sep := by
  induction t with
  | nil =>
    change pushField sep sep (fields sep rest) = _
    obtain ⟨first, more, hrest⟩ := List.exists_cons_of_ne_nil (fields_ne_nil sep rest)
    rw [hrest, pushField, if_pos (beq_self_eq_true sep)]
  | cons b t ih =>
    rw [List.mem_cons, not_or] at h
    change pushField sep b (fields sep (t ++ sep :: rest)) = _
    rw [ih h.2, pushField, if_neg (by simpa using fun hb => h.1 hb.symm)]

end Text

theorem loadDump_line {line : Text} (h : Byte.newline ∉ line) (m : Memory) (rest : Text) :
    loadDump m (line ++ ascii "\n" ++ rest) = (loadLine m line).bind (loadDump · rest) := by
  have hfields := Text.fields_append h rest
  rw [List.append_assoc]
  change List.foldlM loadLine m ((line ++ Byte.newline :: rest).fields Byte.newline) = _
  rw [hfields]
  rfl

/-- Lines of a dump that take one memory to another, whatever lines follow. -/
def Loads (t : Text) (m m' : Memory) : Prop :=
  ∀ rest, loadDump m (t ++ rest) = loadDump m' rest

namespace Loads

theorem nil (m : Memory) : Loads [] m m := fun _ => rfl

theorem append {t u : Text} {m m' m'' : Memory} (ht : Loads t m m') (hu : Loads u m' m'') :
    Loads (t ++ u) m m'' := by
  intro rest
  rw [List.append_assoc, ht, hu]

theorem loadDump_eq {t : Text} {m m' : Memory} (h : Loads t m m') : loadDump m t = some m' := by
  have hnil := h []
  rw [List.append_nil] at hnil
  rw [hnil]
  rfl

end Loads

theorem cellLine?_cons {b : Byte} (h : b.isDigit = false) (rest : Text) :
    cellLine? (b :: rest) = none := by
  unfold cellLine?
  rw [if_neg]
  simp [h]

/-- **A comment** changes nothing. -/
theorem loads_comment {line : Text} (h : Byte.newline ∉ line) (hcells : cellLine? line = none)
    (m : Memory) : Loads (line ++ ascii "\n") m m := by
  intro rest
  rw [loadDump_line h, loadLine, hcells]
  rfl

/-- **A line of cells** stores them at its address. -/
theorem loads_cells {w : Word} {t tail : Text} {v : Value} {m : Memory} (hlo : 0 ≤ w.toInt)
    (hhi : w.toInt < 100000) (ht : Lists t v) (htail : listedCells tail = some [])
    (hline : Byte.newline ∉ tail) (hfits : w.toNatClampNeg + v.length ≤ m.cells.size) :
    Loads (dumpAddress w ++ t ++ tail ++ ascii "\n") m (m.place w.toNatClampNeg v) := by
  have hlists : Lists (Byte.blank :: t) v := Lists.blank.append ht
  have hcells : listedCells (Byte.blank :: (t ++ tail)) = some v := by
    have hreads := hlists.reads tail
    rw [htail] at hreads
    simpa using hreads
  have hone : Byte.newline ∉ dumpAddress w ++ t ++ tail := by
    have hdigits := (fiveDigits_spec hlo hhi).2.1
    intro hmem
    rcases List.mem_append.mp hmem with hmem | hmem
    · rcases List.mem_append.mp hmem with hmem | hmem
      · rcases List.mem_append.mp hmem with hmem | hmem
        · exact absurd (hdigits _ hmem) (by decide)
        · exact absurd hmem (by decide)
      · exact ht.oneLine hmem
    · exact hline hmem
  intro rest
  rw [loadDump_line hone, loadLine, List.append_assoc, cellLine?_dumpAddress hlo hhi]
  dsimp only
  rw [hcells, Option.bind_some, if_pos hfits]
  rfl

end SpsAssembler
