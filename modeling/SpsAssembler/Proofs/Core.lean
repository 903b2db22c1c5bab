import SpsAssembler.Machine.LowCore
import SpsAssembler.Proofs.Fields

/-!
# What is written into core

Writing replaces a run of cells and leaves all others. Low core is made of such runs.

* **`Memory.toList_write`**: the cells after a value is written;
* `Memory.place_append`: a value may be written in parts;
* **`Memory.seed_eq`**: the runs of cells that low core is made of;
* `Memory.startup_seed`: the start instructions of a program;
* **`Memory.field_startup`**: the branch at their end names the entry.
-/

namespace SpsAssembler

theorem toInt_of_mem_memorySizes {size : Word} (h : size ∈ memorySizes) :
    20000 ≤ size.toInt ∧ size.toInt ≤ 100000 := by
  have hall : memorySizes.all (fun n => 20000 ≤ n.toInt && n.toInt ≤ 100000) = true := by decide
  simpa using List.all_eq_true.mp hall size h

namespace Memory

/-! ## Writing -/

@[simp] theorem size_write (cells : Array Cell) (i : Nat) (v : Value) :
    (write cells i v).size = cells.size := by
  induction v generalizing cells i with
  | nil => rfl
  | cons c v ih => rw [write, ih, Array.size_setIfInBounds]

/-- **Writing a value** replaces the cells from its place on. -/
theorem toList_write {cells : Array Cell} {i : Nat} {v : Value} (h : i + v.length ≤ cells.size) :
    (write cells i v).toList = cells.toList.take i ++ v ++ cells.toList.drop (i + v.length) := by
  induction v generalizing cells i with
  | nil => simp [write]
  | cons c v ih =>
    rw [List.length_cons] at h
    have hi : i < cells.toList.length := by rw [Array.length_toList]; omega
    rw [write, ih (by rw [Array.size_setIfInBounds]; omega), Array.toList_setIfInBounds]
    have htake : (cells.toList.set i c).take (i + 1) = cells.toList.take i ++ [c] := by
      rw [List.take_add_one, List.take_set_of_le (Nat.le_refl i), List.getElem?_set_self hi]
      rfl
    have hdrop : (cells.toList.set i c).drop (i + 1 + v.length) =
        cells.toList.drop (i + (v.length + 1)) := by
      rw [List.drop_set_of_lt (by omega), Nat.add_right_comm, Nat.add_assoc]
    rw [htake, hdrop, List.length_cons]
    simp

theorem take_write {cells : Array Cell} {n i : Nat} (v : Value) (h : n ≤ i) :
    (write cells i v).toList.take n = cells.toList.take n := by
  induction v generalizing cells i with
  | nil => rfl
  | cons c v ih =>
    rw [write, ih (by omega), Array.toList_setIfInBounds, List.take_set_of_le h]

@[simp] theorem size_place (m : Memory) (i : Nat) (v : Value) :
    (m.place i v).cells.size = m.cells.size := by
  unfold place
  split
  · exact size_write ..
  · rfl

theorem take_place (m : Memory) {n i : Nat} (v : Value) (h : n ≤ i) :
    (m.place i v).cells.toList.take n = m.cells.toList.take n := by
  unfold place
  split
  · exact take_write v h
  · rfl

theorem take_place_end {m : Memory} {i : Nat} {v : Value} (h : i + v.length ≤ m.cells.size) :
    (m.place i v).cells.toList.take (i + v.length) = m.cells.toList.take i ++ v := by
  have hi : (m.cells.toList.take i ++ v).length = i + v.length := by
    rw [List.length_append, List.length_take, Array.length_toList]
    omega
  rw [place, if_pos h, toList_write h, List.take_append_of_le_length (Nat.le_of_eq hi.symm),
    List.take_of_length_le (Nat.le_of_eq hi)]

theorem write_append (cells : Array Cell) (i : Nat) (v w : Value) :
    write cells i (v ++ w) = write (write cells i v) (i + v.length) w := by
  induction v generalizing cells i with
  | nil => rfl
  | cons c v ih =>
    rw [List.cons_append, write, ih, write, List.length_cons, Nat.add_assoc, Nat.add_comm 1]

@[simp] theorem place_nil (m : Memory) (i : Nat) : m.place i [] = m := by
  unfold place
  split <;> rfl

theorem place_append {m : Memory} {i : Nat} {v w : Value}
    (h : i + (v ++ w).length ≤ m.cells.size) :
    (m.place i v).place (i + v.length) w = m.place i (v ++ w) := by
  rw [List.length_append] at h
  have hfirst : m.place i v = ⟨write m.cells i v⟩ := if_pos (by omega)
  rw [hfirst, place, if_pos (by rw [size_write]; omega), place,
    if_pos (by rw [List.length_append]; omega), write_append]

/-! ## Low core -/

theorem length_bareInstruction (code : Word) : (bareInstruction code).length = 12 := by
  rw [bareInstruction, Value.length_setField]
  rfl

@[simp] theorem size_seed (m : Memory) (entry : Word) (halt tables addInCore : Bool) :
    (m.seed entry halt tables addInCore).cells.size = m.cells.size := by
  unfold seed
  cases tables <;> cases addInCore <;> simp

/-- The start instructions of a program, the last of which branches to its entry. -/
def startupCells (entry : Word) (halt : Bool) : Value :=
  bareInstruction 41 ++ bareInstruction (if halt then 48 else 41) ++
    (bareInstruction 49).setField Field.p 5 false entry

theorem length_startupCells (entry : Word) (halt : Bool) :
    (startupCells entry halt).length = startupLength := by
  simp [startupCells, length_bareInstruction, startupLength]

theorem place_startup {m : Memory} (hsize : startupLength ≤ m.cells.size) (entry : Word)
    (halt : Bool) : ((m.place 0 (bareInstruction 41)).place 12
      (bareInstruction (if halt then 48 else 41))).place 24
        ((bareInstruction 49).setField Field.p 5 false entry) =
      m.place 0 (startupCells entry halt) := by
  have hall : 0 + (startupCells entry halt).length ≤ m.cells.size := by
    rw [length_startupCells]
    omega
  have htwo : (bareInstruction 41 ++ bareInstruction (if halt then 48 else 41)).length = 24 := by
    simp [length_bareInstruction]
  have hfirst := place_append (m := m) (i := 0) (v := bareInstruction 41)
    (w := bareInstruction (if halt then 48 else 41)) (by rw [htwo]; unfold startupLength at hsize; omega)
  have hsecond := place_append hall
  rw [length_bareInstruction] at hfirst
  rw [htwo] at hsecond
  rw [hfirst]
  exact hsecond

/-- The tables above the start instructions. -/
def placeTables (m : Memory) (addInCore : Bool) : Memory :=
  (if addInCore then (m.place 100 multiplyTable).place 300 addTable
    else m.place 100 multiplyTable).place 400 [Cell.recordMark]

/-- **Low core** is the start instructions and, perhaps, the tables. -/
theorem seed_eq {m : Memory} (hsize : startupLength ≤ m.cells.size) (entry : Word)
    (halt tables addInCore : Bool) : m.seed entry halt tables addInCore =
      if tables then (m.place 0 (startupCells entry halt)).placeTables addInCore
      else m.place 0 (startupCells entry halt) := by
  rw [← place_startup hsize]
  rfl

theorem startup_seed {m : Memory} (hsize : startupLength ≤ m.cells.size) (entry : Word)
    (halt tables addInCore : Bool) :
    ((m.seed entry halt tables addInCore).cells.extract 0 startupLength).toList =
      startupCells entry halt := by
  have hlength := length_startupCells entry halt
  have hstart := take_place_end (m := m) (i := 0) (v := startupCells entry halt) (by omega)
  rw [Nat.zero_add, hlength, List.take_zero, List.nil_append] at hstart
  have hlow : startupLength ≤ 100 := by decide
  rw [Array.toList_extract, List.extract_eq_take_drop, List.drop_zero, seed_eq hsize]
  split
  · unfold placeTables
    rw [take_place _ _ (by omega)]
    split
    · rw [take_place _ _ (by omega), take_place _ _ (by omega)]
      exact hstart
    · rw [take_place _ _ (by omega)]
      exact hstart
  · exact hstart

theorem branch_eq {entry : Word} (hsign : ¬ entry < 0) :
    (bareInstruction 49).setField Field.p 5 false entry =
      [4, 9] ++ Value.digitsOf 5 entry ++ [0, 0, 0, 0, 0] := by
  have hput : Value.putDigits 5 (Int64.ofNat 6) entry (bareInstruction 49) =
      [4, 9] ++ Value.digitsOf 5 entry ++ [0, 0, 0, 0, 0] :=
    Value.putDigits_eq entry (by decide) (by decide) (by decide)
  unfold Value.setField
  rw [if_neg (by decide), Value.magnitude, if_neg hsign]
  dsimp only
  rw [if_neg (by decide), if_neg hsign]
  exact hput

/-- **The branch at the bottom of core** names the entry, if that is an address of five digits. -/
theorem field_startup {entry : Word} (hlo : 0 ≤ entry.toInt) (hhi : entry.toInt < 100000)
    (halt : Bool) : (startupCells entry halt).field 30 5 = .ok entry := by
  have hsign : ¬ entry < 0 := by
    rw [Int64.lt_iff_toInt_lt, show (0 : Word).toInt = 0 from rfl]
    omega
  obtain ⟨low, hlow, hlength⟩ : ∃ low : Value, startupCells entry halt =
      low ++ (Value.digitsOf 5 entry ++ [0, 0, 0, 0, 0]) ∧ low.length = 26 := by
    refine ⟨bareInstruction 41 ++ bareInstruction (if halt then 48 else 41) ++ [4, 9], ?_, ?_⟩
    · rw [startupCells, branch_eq hsign]
      simp
    · simp [length_bareInstruction]
  have hmod := Word.toInt_mod_ten hlo
  have hdigit := Value.lowByte_digit (n := entry % 10) (by omega) (by omega)
  have hlast : (startupCells entry halt)[30]? = some (entry % 10).lowByte := by
    rw [hlow, List.getElem?_append_right (by omega), hlength]
    rfl
  have hfield := Value.field_eq hlast (by decide : 0 < 5) (by decide) (by rw [hlow]; simp; omega)
  have hslice : ((startupCells entry halt).take 31).drop 26 = Value.digitsOf 5 entry := by
    have htake : (low ++ (Value.digitsOf 5 entry ++ [0, 0, 0, 0, 0])).take 31 =
        low ++ Value.digitsOf 5 entry := by
      rw [List.take_append, hlength, List.take_of_length_le (by omega),
        List.take_append_of_le_length (by simp), List.take_of_length_le (by simp)]
    rw [hlow, htake, List.drop_left' hlength]
  rw [hdigit.2, hslice, Value.number_digitsOf hlo (by omega)] at hfield
  exact hfield

end Memory

end SpsAssembler
