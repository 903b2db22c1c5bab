import Mathlib.Order.Bounds.Basic
import SpsAssembler.Output.Media
import SpsAssembler.Proofs.CardDeck

/-!
# Reading a paper tape

A tape has a frame for each cell up to the last defined one and a frame of its own at the end. Every
frame has an odd number of holes, so that a hole lost or added shows, and the table of frames read
backwards gives the cells again; only that a cell was never defined cannot be seen, since it has the
frame of a zero.

* `Memory.definedAddresses`, **`isGreatest_lastDefined`**: where the tape ends;
* `tapeCell?`, `holes`, **`frame_spec`**: one frame;
* `paperTape_eq`, **`tape_decodes`**: a whole tape.
-/

namespace SpsAssembler

/-! ## The last defined cell -/

namespace Memory

/-- The addresses at which something is stored. -/
def definedAddresses (m : Memory) : Set Nat :=
  { i | m.cells.getD i Cell.undefined ≠ Cell.undefined }

theorem exists_lastDefinedBelow {cells : Array Cell} {n i : Nat} (hi : i < n)
    (hdefined : cells.getD i Cell.undefined ≠ Cell.undefined) :
    ∃ last, lastDefinedBelow cells n = some last ∧ cells.getD last Cell.undefined ≠ Cell.undefined ∧
      ∀ j < n, cells.getD j Cell.undefined ≠ Cell.undefined → j ≤ last := by
  induction n with
  | zero => exact absurd hi (Nat.not_lt_zero i)
  | succ n ih =>
    unfold lastDefinedBelow
    by_cases hn : cells.getD n Cell.undefined = Cell.undefined
    · have hne : i ≠ n := fun heq => hdefined (heq ▸ hn)
      obtain ⟨last, hlast, hat, hbelow⟩ := ih (by omega)
      rw [if_neg (mt bne_iff_ne.mp (not_not.mpr hn))]
      refine ⟨last, hlast, hat, fun j hj hat' => ?_⟩
      have hjn : j ≠ n := fun heq => hat' (heq ▸ hn)
      exact hbelow j (by omega) hat'
    · rw [if_pos (bne_iff_ne.mpr hn)]
      exact ⟨n, rfl, hn, fun j hj _ => by omega⟩

theorem lt_size_of_mem_definedAddresses {m : Memory} {i : Nat} (h : i ∈ m.definedAddresses) :
    i < m.cells.size := by
  refine Nat.lt_of_not_le fun hle => h ?_
  simp [Array.getD, Nat.not_lt.mpr hle]

/-- **The last defined cell** of a memory that has one. -/
theorem isGreatest_lastDefined {m : Memory} (h : ∃ c ∈ m.cells, c ≠ Cell.undefined) :
    ∃ last, m.lastDefined = some last ∧ IsGreatest m.definedAddresses last := by
  obtain ⟨c, hc, hdefined⟩ := h
  obtain ⟨i, hi, rfl⟩ := Array.getElem_of_mem hc
  have hat : i ∈ m.definedAddresses := by simpa [definedAddresses, hi] using hdefined
  obtain ⟨last, hlast, hmem, hbelow⟩ := exists_lastDefinedBelow hi hat
  exact ⟨last, hlast, hmem, fun j hj => hbelow j (lt_size_of_mem_definedAddresses hj) hj⟩

end Memory

/-! ## Frames -/

/-- The cell that a frame stands for, by the table read backwards. -/
def tapeCell? (frame : Byte) : Option Cell := (tapeCodes.idxOf? frame).map Nat.toUInt8

/-- The number of holes in a frame. -/
def holes (frame : Byte) : Nat := frame.toBitVec.cpop.toNat

/-- **The frame of a cell** has an odd number of holes, does not end the tape, and is read as that
cell, or as a zero for an undefined one. -/
theorem frame_spec : ∀ c : Cell, c.punchable = true → holes (tapeCode c) % 2 = 1 ∧
    tapeCode c ≠ tapeEnd ∧ tapeCell? (tapeCode c) = some (if c = Cell.undefined then 0 else c) := by
  refine forall_cell ?_
  decide +kernel

/-! ## Tapes -/

theorem paperTape_eq {m : Memory} {last : Nat} (h : m.lastDefined = some last) :
    paperTape m = (m.cells.toList.take (last + 1)).map tapeCode ++ [tapeEnd] := by
  rw [paperTape, h]
  simp

theorem frame_of_le {m : Memory} {last i : Nat} (h : m.lastDefined = some last) (hi : i ≤ last)
    (hsize : last < m.cells.size) :
    ∃ c ∈ m.cells, m.cells[i]? = some c ∧ (paperTape m)[i]? = some (tapeCode c) := by
  have hlt : i < m.cells.size := by omega
  refine ⟨m.cells[i], Array.getElem_mem hlt, Array.getElem?_eq_getElem hlt, ?_⟩
  rw [paperTape_eq h, List.getElem?_append_left (by simp; omega), List.getElem?_map,
    List.getElem?_take_of_lt (by omega), Array.getElem?_toList, Array.getElem?_eq_getElem hlt]
  rfl

/-- **A tape can be read back.** A memory of cells that can be punched, with a defined one among them,
gives a frame for each cell up to the last defined one and then the end of the tape, which is nowhere
else. Each frame has an odd number of holes, and is read as its cell, or as a zero for an undefined
one. -/
theorem tape_decodes {m : Memory} (hcells : ∀ c ∈ m.cells, c.punchable = true)
    (hdefined : ∃ c ∈ m.cells, c ≠ Cell.undefined) :
    ∃ last, m.lastDefined = some last ∧ IsGreatest m.definedAddresses last ∧
      (paperTape m).length = last + 2 ∧
      (∀ i, (paperTape m)[i]? = some tapeEnd ↔ i = last + 1) ∧
      (∀ frame ∈ paperTape m, holes frame % 2 = 1) ∧
      ∀ i ≤ last, ∃ frame c, (paperTape m)[i]? = some frame ∧ m.cells[i]? = some c ∧
        tapeCell? frame = some (if c = Cell.undefined then 0 else c) := by
  obtain ⟨last, hlast, hgreatest⟩ := Memory.isGreatest_lastDefined hdefined
  have hsize := Memory.lt_size_of_mem_definedAddresses hgreatest.1
  have hfront : ((m.cells.toList.take (last + 1)).map tapeCode).length = last + 1 := by
    rw [List.length_map, List.length_take, Array.length_toList]
    omega
  have hlength : (paperTape m).length = last + 2 := by
    rw [paperTape_eq hlast, List.length_append, hfront, List.length_singleton]
  refine ⟨last, hlast, hgreatest, hlength, fun i => ⟨fun hend => ?_, ?_⟩, fun frame hframe => ?_,
    fun i hi => ?_⟩
  · have hbound : i < last + 2 := by
      obtain ⟨hlt, -⟩ := List.getElem?_eq_some_iff.mp hend
      rwa [hlength] at hlt
    by_contra hne
    obtain ⟨c, hc, -, hframe⟩ := frame_of_le (i := i) hlast (by omega) hsize
    rw [hframe] at hend
    exact (frame_spec c (hcells c hc)).2.1 (Option.some.inj hend)
  · rintro rfl
    rw [paperTape_eq hlast]
    generalize (m.cells.toList.take (last + 1)).map tapeCode = front at hfront ⊢
    rw [← hfront, List.getElem?_concat_length]
  · rw [paperTape_eq hlast, List.mem_append, List.mem_singleton, List.mem_map] at hframe
    rcases hframe with ⟨c, hc, rfl⟩ | rfl
    · exact (frame_spec c (hcells c (Array.mem_toList_iff.mp (List.mem_of_mem_take hc)))).1
    · decide
  · obtain ⟨c, hc, hcell, hframe⟩ := frame_of_le hlast hi hsize
    exact ⟨_, c, hframe, hcell, (frame_spec c (hcells c hc)).2.2⟩

/-- An undefined cell, a flagged group mark, a digit, and nothing behind it. -/
def markedCore : Memory := ⟨#[0xE0, 0x1F, 0x07, 0xE0]⟩

theorem tape_decodes_markedCore : paperTape markedCore = [0x20, 0x4F, 0x07, 0x80] ∧
    ∃ last, markedCore.lastDefined = some last ∧ IsGreatest markedCore.definedAddresses last ∧
      ∀ i ≤ last, ∃ frame c, (paperTape markedCore)[i]? = some frame ∧
        markedCore.cells[i]? = some c ∧
        tapeCell? frame = some (if c = Cell.undefined then 0 else c) := by
  have hcells : ∀ c ∈ markedCore.cells, c.punchable = true := fun c hc =>
    List.all_eq_true.mp (by decide : markedCore.cells.toList.all Cell.punchable = true) c
      (Array.mem_toList_iff.mpr hc)
  obtain ⟨last, hlast, hgreatest, -, -, -, hread⟩ :=
    tape_decodes hcells ⟨0x07, by simp [markedCore], by decide⟩
  exact ⟨by decide, last, hlast, hgreatest, hread⟩

end SpsAssembler
