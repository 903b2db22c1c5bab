import SpsAssembler.Proofs.DumpReader

/-!
# What the parts of a core dump load

The rows of a value store it piece by piece, which is the same as storing it whole. So the lines of
low core load low core, and the lines of a statement load its cells.

* **`loads_rows`**: a value in rows;
* **`loads_lowCore`**: the start instructions and the tables;
* `Outcome.Laid`: a statement with cells where its shape expects them;
* **`loads_statement`**: the lines of a statement.
-/

namespace SpsAssembler

variable {m : Memory}

/-! ## Comments -/

theorem loads_empty (m : Memory) : Loads (ascii "\n") m m := by
  have hline : Loads ([] ++ ascii "\n") m m := loads_comment List.not_mem_nil rfl m
  exact hline

theorem loads_behind {start text : Text} (hfirst : start.head?.map Byte.isDigit = some false)
    (hstart : Byte.newline ∉ start) (htext : Byte.newline ∉ text) (m : Memory) :
    Loads (start ++ text ++ ascii "\n") m m := by
  cases start with
  | nil => cases hfirst
  | cons b start =>
    refine loads_comment (fun hmem => ?_) (cellLine?_cons (Option.some.inj hfirst) _) m
    exact (List.mem_append.mp hmem).elim hstart htext

theorem loads_slashes {text : Text} (h : Byte.newline ∉ text) (m : Memory) :
    Loads (ascii "// " ++ text ++ ascii "\n") m m :=
  loads_behind (by decide) (by decide) h m

theorem loads_dumpComment {text : Text} (h : Byte.newline ∉ text) (m : Memory) :
    Loads (dumpComment ++ text ++ ascii "\n") m m :=
  loads_behind (by decide) (by decide) h m

/-! ## Rows -/

/-- A value that is dumped in parts of `width` cells is loaded part by part. -/
theorem loads_parts {width base size : Nat} {v : Value} {line : Nat → Text}
    (hline : ∀ k, width * k < v.length → ∀ m : Memory, m.cells.size = size →
      Loads (line k) m (m.place (base + width * k) ((v.drop (width * k)).take width)))
    (hfits : base + v.length ≤ size) (hm : m.cells.size = size) {k : Nat}
    (hk : width * k < v.length + width) :
    Loads ((List.range k).flatMap line) m (m.place base (v.take (width * k))) := by
  induction k with
  | zero =>
    rw [Nat.mul_zero, List.take_zero, Memory.place_nil]
    exact .nil m
  | succ k ih =>
    rw [Nat.mul_succ] at hk
    have hnext := hline k (by omega) (m.place base (v.take (width * k)))
      (by rw [Memory.size_place, hm])
    have hlength : (v.take (width * k)).length = width * k := by rw [List.length_take]; omega
    have hpart : v.take (width * (k + 1)) =
        v.take (width * k) ++ (v.drop (width * k)).take width := by
      rw [Nat.mul_succ, List.take_add]
    have happend := Memory.place_append (m := m) (i := base) (v := v.take (width * k))
      (w := (v.drop (width * k)).take width) (by rw [← hpart, List.length_take]; omega)
    rw [hlength] at happend
    rw [List.range_succ, List.flatMap_append, List.flatMap_singleton, hpart, ← happend]
    exact (ih (by omega)).append hnext

/-- **A value in rows** is loaded as a whole. -/
theorem loads_rows {base size : Nat} {v : Value} {line : Nat × Value → Text}
    (hline : ∀ i row, i < v.length → i + row.length ≤ v.length → ∀ m : Memory,
      m.cells.size = size → Loads (line (i, row)) m (m.place (base + i) row))
    (hfits : base + v.length ≤ size) (hm : m.cells.size = size) :
    Loads ((dumpRows v).flatMap line) m (m.place base v) := by
  have hparts : ∀ k, dumpWidth * k < v.length + dumpWidth →
      Loads ((List.range k).flatMap fun k => line (dumpWidth * k, (v.drop (dumpWidth * k)).take dumpWidth))
        m (m.place base (v.take (dumpWidth * k))) := fun k hk =>
    loads_parts (fun k hk m hm => hline _ _ hk (by rw [List.length_take, List.length_drop]; omega) m hm)
      hfits hm hk
  have hall := hparts ((v.length + dumpWidth - 1) / dumpWidth) (by unfold dumpWidth; omega)
  rw [List.take_of_length_le (by unfold dumpWidth; omega)] at hall
  rwa [dumpRows, List.flatMap_map]

theorem loads_row {i : Nat} {t : Text} {v : Value} (ht : Lists t v) (hi : i < 100000)
    (hfits : i + v.length ≤ m.cells.size) :
    Loads (dumpAddress (Int64.ofNat i) ++ t ++ ascii "\n") m (m.place i v) := by
  have hint : (Int64.ofNat i).toInt = i := Int64.toInt_ofNat_of_lt (by omega)
  have hclamp : (Int64.ofNat i).toNatClampNeg = i := Word.clamp_ofNat (by omega)
  have hcells : Loads (dumpAddress (Int64.ofNat i) ++ t ++ [] ++ ascii "\n") m
      (m.place (Int64.ofNat i).toNatClampNeg v) :=
    loads_cells (by omega) (by omega) ht rfl List.not_mem_nil (by rwa [hclamp])
  rwa [List.append_nil, hclamp] at hcells

/-! ## Low core -/

theorem loads_table {title : String} {address : Nat} {table : Value}
    (htitle : Byte.newline ∉ ascii title) (hfits : address + table.length ≤ m.cells.size)
    (hlow : address + table.length < 100000) :
    Loads (dumpTable title address table) m (m.place address table) := by
  have hrows : Loads ((dumpRows table).flatMap fun r =>
      dumpAddress (Int64.ofNat (address + r.1)) ++ hexGroup r.2 ++ ascii "\n") m
        (m.place address table) :=
    loads_rows (fun i row _ hrow m hm => loads_row (Lists.hexGroup row) (by omega) (by omega)) hfits rfl
  have hlines := ((loads_empty m).append (loads_slashes htitle m)).append hrows
  have hdump : dumpTable title address table = ascii "\n" ++ (ascii "// " ++ ascii title ++ ascii "\n") ++
      (dumpRows table).flatMap fun r =>
        dumpAddress (Int64.ofNat (address + r.1)) ++ hexGroup r.2 ++ ascii "\n" := by
    have hstart : ascii "\n// " = ascii "\n" ++ ascii "// " := by decide
    simp only [dumpTable, hstart, List.append_assoc]
  rwa [hdump]

theorem loads_startup {startup : Value} (hlength : startup.length = startupLength)
    (hfits : startupLength ≤ m.cells.size) :
    Loads (dumpStartup startup) m (m.place 0 startup) := by
  unfold startupLength at hlength hfits
  have hline : ∀ k, 12 * k < startup.length → ∀ m' : Memory, m'.cells.size = m.cells.size →
      Loads (dumpAddress (Int64.ofNat (12 * k)) ++
        (instructionHex ((startup.drop (12 * k)).take 12)).padRight 37 ++ ascii "\n") m'
        (m'.place (0 + 12 * k) ((startup.drop (12 * k)).take 12)) := by
    intro k hk m' hm'
    have hrow : ((startup.drop (12 * k)).take 12).length ≤ 12 := List.length_take_le ..
    rw [Nat.zero_add]
    refine loads_row ((Lists.instructionHex hrow).padRight 37) (by omega) ?_
    rw [List.length_take, List.length_drop]
    omega
  have hparts := loads_parts hline (by omega) rfl (k := startup.length / 12) (by omega)
  rwa [List.take_of_length_le (by omega)] at hparts

theorem loads_recordMark (h : 400 < m.cells.size) :
    Loads (ascii "\n// Record mark\n00400: 0A\n") m (m.place 400 [Cell.recordMark]) := by
  have htitle : Loads (ascii "// " ++ ascii "Record mark" ++ ascii "\n") m m :=
    loads_slashes (by decide) m
  have hmark := ((loads_empty m).append htitle).append
    (loads_row (i := 400) (Lists.hexGroup [Cell.recordMark]) (by decide) h)
  have htext : ascii "\n// Record mark\n00400: 0A\n" =
      ascii "\n" ++ (ascii "// " ++ ascii "Record mark" ++ ascii "\n") ++
        (dumpAddress (Int64.ofNat 400) ++ hexGroup [Cell.recordMark] ++ ascii "\n") := by decide
  rwa [htext]

theorem loads_tables (h : 20000 ≤ m.cells.size) (addInCore : Bool) :
    Loads (dumpTable "Multiply table" 100 multiplyTable ++
      (if addInCore then dumpTable "Add table" 300 addTable else []) ++
      ascii "\n// Record mark\n00400: 0A\n") m (m.placeTables addInCore) := by
  have hmultiply : 100 + multiplyTable.length = 300 := by decide +kernel
  have hadd : 300 + addTable.length = 400 := by decide +kernel
  have hfirst : Loads (dumpTable "Multiply table" 100 multiplyTable) m (m.place 100 multiplyTable) :=
    loads_table (by decide) (by omega) (by omega)
  have hsecond : Loads (if addInCore then dumpTable "Add table" 300 addTable else [])
      (m.place 100 multiplyTable)
      (if addInCore then (m.place 100 multiplyTable).place 300 addTable
        else m.place 100 multiplyTable) := by
    split
    · exact loads_table (by decide) (by rw [Memory.size_place]; omega) (by omega)
    · exact .nil _
  refine (hfirst.append hsecond).append (loads_recordMark ?_)
  split
  · rw [Memory.size_place, Memory.size_place]
    omega
  · rw [Memory.size_place]
    omega

/-- **The lines of low core** load it. -/
theorem loads_lowCore {program : Program} {entry : Word}
    (hstartup : program.startup = Memory.startupCells entry program.options.halt)
    (hsize : 20000 ≤ m.cells.size) :
    Loads (dumpLowCore program) m (m.seed entry program.options.halt program.options.tables
      (program.options.model == .one)) := by
  have hlength := Memory.length_startupCells entry program.options.halt
  have hfits : startupLength ≤ m.cells.size := Nat.le_trans (by decide) hsize
  have hrule : ∀ m, Loads dumpRule m m := loads_slashes (by decide)
  have htitle : Loads (ascii "// " ++ ascii "Startup" ++ ascii "\n") m m :=
    loads_slashes (by decide) m
  have hopening := ((hrule m).append htitle).append (loads_startup (hstartup ▸ hlength) hfits)
  have hclosing : ∀ m, Loads (ascii "\n\n") m m := fun m => (loads_empty m).append (loads_empty m)
  rw [Memory.seed_eq hfits, ← hstartup]
  refine ((hopening.append ?_).append (hrule _)).append (hclosing _)
  cases program.options.tables with
  | false => exact .nil _
  | true => exact loads_tables (by rwa [Memory.size_place]) _

/-! ## Statements -/

/-- The text and the fields of a line. -/
def Line.bytes (l : Line) : Text := l.text ++ l.label ++ l.operation ++ l.operands

/-- A line whose text and fields hold no end of line. -/
def Line.OneLine (l : Line) : Prop := Byte.newline ∉ l.bytes

theorem Text.newline_notMem_padRight {t : Text} (h : Byte.newline ∉ t) (n : Nat) :
    Byte.newline ∉ t.padRight n := by
  intro hmem
  rcases List.mem_append.mp hmem with hmem | hmem
  · exact h hmem
  · exact absurd (List.mem_replicate.mp hmem).2 (by decide)

namespace Line.OneLine

variable {l : Line} (h : l.OneLine)

include h

theorem dumpFields : Byte.newline ∉ dumpFields l := by
  simp only [Line.OneLine, Line.bytes, List.mem_append, not_or] at h
  have hgap : Byte.newline ∉ ascii " " := by decide
  simp [SpsAssembler.dumpFields, Text.newline_notMem_padRight, h, hgap]

theorem dumpSource (p : Provenance) : Byte.newline ∉ dumpSource p l := by
  simp only [Line.OneLine, Line.bytes, List.mem_append, not_or] at h
  unfold SpsAssembler.dumpSource
  split
  · exact fun hmem => h.1.1.1 (List.mem_of_mem_drop hmem)
  · exact h.1.1.1

end Line.OneLine

/-- The values that the dump of a shape shows: an instruction has cells, but no more than twelve, and
only constants have cells besides. -/
def Shape.Shows : Shape → Value → Prop
  | .instruction, v | .short2, v | .short7, v => v ≠ [] ∧ v.length ≤ 12
  | .data, _ => True
  | _, v => v = []

/-- A statement on one line, with cells in core that its shape shows. -/
structure Outcome.Laid (size : Nat) (o : Outcome) : Prop where
  line : o.statement.line.OneLine
  fits : o.value ≠ [] → 0 ≤ o.placement.address.toInt ∧
    o.placement.address.toNatClampNeg + o.value.length ≤ size
  shows : o.shape.Shows o.value

theorem listedCells_comment (text : Text) :
    listedCells (ascii " // " ++ text) = some [] ∧ listedCells (ascii "  // " ++ text) = some [] :=
  ⟨rfl, rfl⟩

theorem loads_instruction {o : Outcome} (h : o.Laid m.cells.size) (hsize : m.cells.size ≤ 100000)
    (hne : o.value ≠ []) (hlength : o.value.length ≤ 12) :
    Loads (dumpAddress o.placement.address ++ (instructionHex o.value).padRight 59 ++ ascii "  // " ++
      dumpFields o.statement.line ++ ascii "\n") m
      (m.place o.placement.address.toNatClampNeg o.value) := by
  obtain ⟨hlo, hfits⟩ := h.fits hne
  have hpos := List.length_pos_iff.mpr hne
  have hhi : o.placement.address.toInt < 100000 := by
    rw [Int64.toNatClampNeg] at hfits
    omega
  have hline : Byte.newline ∉ ascii "  // " ++ dumpFields o.statement.line := fun hmem =>
    (List.mem_append.mp hmem).elim (by decide) h.line.dumpFields
  have hcells := loads_cells hlo hhi ((Lists.instructionHex hlength).padRight 59)
    (listedCells_comment (dumpFields o.statement.line)).2 hline hfits
  rwa [← List.append_assoc] at hcells

theorem loads_data {o : Outcome} (h : o.Laid m.cells.size) (hsize : m.cells.size ≤ 100000)
    (hne : o.value ≠ []) :
    Loads (dumpData o) m (m.place o.placement.address.toNatClampNeg o.value) := by
  obtain ⟨hlo, hfits⟩ := h.fits hne
  refine loads_rows (fun i row hi hrow m' (hm' : m'.cells.size = m.cells.size) => ?_) hfits rfl
  have hi' : (Int64.ofNat i).toInt = i := Int64.toInt_ofNat_of_lt (by omega)
  have hclamp : (o.placement.address.toNatClampNeg : Int) = o.placement.address.toInt := by
    rw [Int64.toNatClampNeg]
    omega
  have haddress : (o.placement.address + Int64.ofNat i).toInt = o.placement.address.toInt + i := by
    rw [Word.toInt_add_of (by omega) (by omega), hi']
  have hposition : (o.placement.address + Int64.ofNat i).toNatClampNeg =
      o.placement.address.toNatClampNeg + i := by
    rw [Int64.toNatClampNeg, haddress]
    omega
  -- only the first row has its source beside it
  have htail : listedCells (if i = 0 then ascii " // " ++ dumpFields o.statement.line else []) =
      some [] := by
    split
    · exact (listedCells_comment _).1
    · rfl
  have hline : Byte.newline ∉
      (if i = 0 then ascii " // " ++ dumpFields o.statement.line else []) := by
    split
    · exact fun hmem => (List.mem_append.mp hmem).elim (by decide) h.line.dumpFields
    · exact List.not_mem_nil
  rw [← hposition]
  exact loads_cells (by omega) (by omega) ((Lists.hexCells row).padRight 60) htail hline (by omega)

/-- **The lines of a statement** load its cells. -/
theorem loads_statement (p : Provenance) {o : Outcome} (h : o.Laid m.cells.size)
    (hsize : m.cells.size ≤ 100000) :
    Loads (dumpStatement p o) m (m.place o.placement.address.toNatClampNeg o.value) := by
  have hshows := h.shows
  have hsource := h.line.dumpSource p
  have hfields := h.line.dumpFields
  have hspaced : ∀ {gap text : Text}, Byte.newline ∉ gap → Byte.newline ∉ text →
      Loads (dumpComment ++ gap ++ text ++ ascii "\n") m m := fun {gap text} hgap htext => by
    have hline : Loads (dumpComment ++ (gap ++ text) ++ ascii "\n") m m :=
      loads_dumpComment (fun hmem => (List.mem_append.mp hmem).elim hgap htext) m
    rwa [← List.append_assoc] at hline
  unfold dumpStatement
  cases hshape : o.shape <;> rw [hshape] at hshows <;> dsimp only
  case instruction => exact loads_instruction h hsize hshows.1 hshows.2
  case short2 => exact loads_instruction h hsize hshows.1 hshows.2
  case short7 => exact loads_instruction h hsize hshows.1 hshows.2
  case data =>
    cases hvalue : o.value.isEmpty with
    | true =>
      rw [List.isEmpty_iff.mp hvalue, Memory.place_nil]
      exact hspaced (by decide) hfields
    | false => exact loads_data h hsize (by simpa using hvalue)
  all_goals
    rw [show o.value = [] from hshows, Memory.place_nil]
  case unknown => exact loads_dumpComment hsource m
  case comment => exact loads_dumpComment hsource m
  case control => exact hspaced (by decide) hsource
  case address => exact hspaced (by decide) hfields
  case reserve1 => exact hspaced (by decide) hfields
  case reserve2 => exact hspaced (by decide) hfields

end SpsAssembler
