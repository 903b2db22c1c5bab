import SpsAssembler.Output.Media
import SpsAssembler.Proofs.DumpReader

/-!
# The card deck carries the core image

A data card is read by its columns: five for the address of its first cell, five for the address
behind its last cell, and then the cells. Records tile the defined cells of core, so reading the
data cards gives every defined cell once, and the last three cards give the bottom of core.

* `columnCell?`, `columnsNumber?`, **`cardSpan?`**, `cardCells?`, `deckCards`: the reader;
* `Cell.punchable`, `column_spec`: cells that have a column of their own;
* `IsRecord`, **`Tiles`**, `tiles_dataCards`: how records divide core;
* `Shows`, `shows_ofRecord`, `StandsIn`, **`StandsIn.carries`**: the card of one record;
* **`cardDeck_carries`**: the deck.
-/

namespace SpsAssembler

/-! ## The reader -/

/-- The cell of a column: its place in the table of columns. A blank column is an undefined cell. -/
def columnCell? (b : Byte) : Option Cell :=
  if b == Byte.blank then some Cell.undefined
  else (cardCharacters.idxOf? b).map Nat.toUInt8

/-- Whether a column holds a record mark or a group mark. -/
def isMarkColumn (b : Byte) : Bool := (columnCell? b).any Cell.isMark

/-- The number that columns spell. -/
def columnsNumber? (columns : Text) : Option Nat :=
  (columns.mapM columnCell?).map fun v => v.foldl (fun n c => 10 * n + c.digit.toNat) 0

/-- The address of the first cell on a data card and the number of its cells, which is what lies
between its two addresses. Core goes on at address zero behind its last cell. -/
def cardSpan? (size : Nat) (card : Text) : Option (Nat × Nat) := do
  let start ← columnsNumber? (card.take 5)
  let stop ← columnsNumber? ((card.drop 5).take 5)
  pure (start, (stop + size - start) % size)

/-- The first `n` cells on a data card. -/
def cardCells? (n : Nat) (card : Text) : Option Value := ((card.drop 10).take n).mapM columnCell?

/-- Whether a data card has the cell at an address. -/
def covers (size i : Nat) (card : Text) : Bool :=
  (cardSpan? size card).any fun (start, n) => start ≤ i && i < start + n

/-- The cards of a deck, one to a line. -/
def deckCards (deck : Text) : List Text := (deck.fields Byte.newline).dropLast

/-- What a data card says about a memory. -/
structure Carries (m : Memory) (card : Text) : Prop where
  cells : ∃ start n, cardSpan? m.cells.size card = some (start, n) ∧ 1 ≤ n ∧ n ≤ 60 ∧
    firstCardAddress ≤ start ∧ start + n ≤ m.cells.size ∧
    cardCells? n card = some ((m.cells.toList.drop start).take n)
  mark_last : ∃ front last, card = front ++ [last] ∧ isMarkColumn last = true ∧
    ∀ b ∈ front, isMarkColumn b = false
  width : card.length ≤ 80

/-! ## Columns -/

/-- A cell that has a column of its own: undefined, or a digit, a mark or a numeric blank, flagged
or not. -/
def Cell.punchable (c : Cell) : Bool :=
  c == undefined || (c ≤ cellMask &&
    (c.digit ≤ 9 || c.digit == recordMark || c.digit == numericBlank || c.digit == groupMark))

theorem column_spec : ∀ c : Cell, c.punchable = true →
    columnCell? (cardColumn c) = some c ∧ (cardColumn c == Byte.blank) = (c == Cell.undefined) ∧
      isMarkColumn (cardColumn c) = c.isMark ∧ cardColumn c ≠ Byte.newline := by
  refine forall_cell ?_
  decide +kernel

theorem lowColumn_spec : ∀ c : Cell, c.punchable = true →
    columnCell? (cardChar c) = some (if c = Cell.undefined then 0 else c) ∧
      cardChar c ≠ Byte.newline := by
  refine forall_cell ?_
  decide +kernel

theorem mapM_punched {punch : Cell → Byte} {read : Cell → Cell} {v : Value}
    (h : ∀ c ∈ v, columnCell? (punch c) = some (read c)) :
    (v.map punch).mapM columnCell? = some (v.map read) := by
  induction v with
  | nil => rfl
  | cons c v ih =>
    rw [List.forall_mem_cons] at h
    rw [List.map_cons, List.mapM_cons, h.1, ih h.2]
    rfl

/-! ## Addresses -/

theorem digitColumn_spec (d : Nat) (h : d < 10) :
    columnCell? (cardChar d.toUInt8) = some d.toUInt8 ∧ Cell.digit d.toUInt8 = d.toUInt8 ∧ d.toUInt8.toNat = d ∧
      isMarkColumn (cardChar d.toUInt8) = false ∧ cardChar d.toUInt8 ≠ Byte.newline := by
  have hall : ∀ d ∈ List.range 10, columnCell? (cardChar d.toUInt8) = some d.toUInt8 ∧
      Cell.digit d.toUInt8 = d.toUInt8 ∧ d.toUInt8.toNat = d ∧ isMarkColumn (cardChar d.toUInt8) = false ∧
      cardChar d.toUInt8 ≠ Byte.newline := by decide +kernel
  exact hall d (List.mem_range.mpr h)

theorem flaggedColumn_spec (d : Nat) (h : d < 10) :
    ∃ b, cardCharacters[d ||| Cell.flagBit.toNat]? = some b ∧
      (∃ c, columnCell? b = some c ∧ c.digit.toNat = d) ∧ isMarkColumn b = false ∧
      b ≠ Byte.newline := by
  have hall : ∀ d ∈ List.range 10, (cardCharacters[d ||| Cell.flagBit.toNat]?).any (fun b =>
      (columnCell? b).any (fun c => c.digit.toNat == d) && !isMarkColumn b && b != Byte.newline) =
        true := by decide +kernel
  have hd := hall d (List.mem_range.mpr h)
  simpa [Option.any_eq_true, and_assoc] using hd

/-- The five columns of an address. -/
def addressColumns (address : Nat) : Text :=
  cardCharacters.getD ((address / 10000) ||| Cell.flagBit.toNat) Byte.blank ::
    [1000, 100, 10, 1].map fun unit => cardChar (address / unit % 10).toUInt8

theorem addressColumns_spec {address : Nat} (h : address < 100000) :
    cardAddress address = .ok (addressColumns address) ∧
      columnsNumber? (addressColumns address) = some address ∧
      ∀ b ∈ addressColumns address, isMarkColumn b = false ∧ b ≠ Byte.newline := by
  obtain ⟨b, hb, ⟨c, hc, hdigit⟩, hmark⟩ := flaggedColumn_spec (address / 10000) (by omega)
  have hfirst : cardCharacters.getD ((address / 10000) ||| Cell.flagBit.toNat) Byte.blank = b := by
    rw [List.getD_eq_getElem?_getD, hb, Option.getD_some]
  obtain ⟨h1, h1d, h1', h1m⟩ := digitColumn_spec (address / 1000 % 10) (by omega)
  obtain ⟨h2, h2d, h2', h2m⟩ := digitColumn_spec (address / 100 % 10) (by omega)
  obtain ⟨h3, h3d, h3', h3m⟩ := digitColumn_spec (address / 10 % 10) (by omega)
  obtain ⟨h4, h4d, h4', h4m⟩ := digitColumn_spec (address / 1 % 10) (by omega)
  rw [addressColumns, hfirst]
  refine ⟨?_, ?_, ?_⟩
  · rw [cardAddress, hb]
  · simp only [columnsNumber?, List.map_cons, List.map_nil, List.mapM_cons, List.mapM_nil, hc, h1, h2,
      h3, h4, Option.bind_eq_bind, Option.bind_some, Option.pure_def, Option.map_some,
      List.foldl_cons, List.foldl_nil, hdigit, h1d, h1', h2d, h2', h3d, h3', h4d, h4',
      Option.some.injEq]
    omega
  · simp only [List.map_cons, List.map_nil, List.forall_mem_cons]
    exact ⟨hmark, h1m, h2m, h3m, h4m, fun b hb => by cases hb⟩

@[simp] theorem length_addressColumns (address : Nat) : (addressColumns address).length = 5 := rfl

/-! ## Records -/

/-- What goes on one card: at most 60 cells from a defined cell on, with a mark only at the end. -/
structure IsRecord (record : Value) : Prop where
  defined : ∃ c rest, record = c :: rest ∧ c ≠ Cell.undefined
  length_le : record.length ≤ recordSize
  mark_last : ∀ c ∈ record.dropLast, c.isMark = false

/-- **Records tile core** from an address on: between them are undefined cells only. -/
inductive Tiles : Nat → Value → List (Nat × Value) → Prop where
  | done {start : Nat} {gap : Value} (h : ∀ c ∈ gap, c = Cell.undefined) : Tiles start gap []
  | next {start : Nat} {gap record rest : Value} {more : List (Nat × Value)}
      (hgap : ∀ c ∈ gap, c = Cell.undefined) (hrecord : IsRecord record)
      (hmore : Tiles (start + gap.length + record.length) rest more) :
      Tiles start (gap ++ record ++ rest) ((start + gap.length, record) :: more)

theorem takeRecord_append (n : Nat) (v : Value) :
    takeRecord n v ++ v.drop (takeRecord n v).length = v := by
  fun_induction takeRecord n v with
  | case1 => rfl
  | case2 => rfl
  | case3 n c rest h => rfl
  | case4 n c rest h ih =>
    rw [List.length_cons, List.drop_succ_cons, List.cons_append, ih]

theorem length_takeRecord_le (n : Nat) (v : Value) : (takeRecord n v).length ≤ n := by
  fun_induction takeRecord n v with
  | case1 => exact Nat.le_refl 0
  | case2 => exact Nat.zero_le _
  | case3 n c rest h => exact Nat.succ_le_succ (Nat.zero_le n)
  | case4 n c rest h ih => exact Nat.succ_le_succ ih

theorem isMark_dropLast_takeRecord (n : Nat) (v : Value) :
    ∀ c ∈ (takeRecord n v).dropLast, c.isMark = false := by
  fun_induction takeRecord n v with
  | case1 => exact fun c hc => by cases hc
  | case2 => exact fun c hc => by cases hc
  | case3 n c rest h => exact fun c hc => by cases hc
  | case4 n c rest h ih =>
    intro d hd
    cases hrest : takeRecord n rest with
    | nil =>
      rw [hrest] at hd
      cases hd
    | cons e more =>
      rw [hrest, List.dropLast_cons_cons, List.mem_cons] at hd
      rcases hd with rfl | hd
      · exact Bool.eq_false_iff.mpr h
      · rw [hrest] at ih
        exact ih d hd

theorem isRecord_takeRecord {c : Cell} (rest : Value) (h : c ≠ Cell.undefined) :
    IsRecord (takeRecord recordSize (c :: rest)) := by
  refine ⟨?_, length_takeRecord_le _ _, isMark_dropLast_takeRecord _ _⟩
  rw [recordSize, takeRecord]
  split
  · exact ⟨c, [], rfl, h⟩
  · exact ⟨c, _, rfl, h⟩

theorem tiles_dataCards (size start : Nat) (cells : Value) :
    ∃ records, Tiles start cells records ∧
      dataCardsFrom size start cells = records.map fun r => Card.ofRecord size r.1 r.2 := by
  have hgap : ∀ {v : Value}, ∀ c ∈ v.takeWhile isGap, c = Cell.undefined := fun c hc => by
    simpa [isGap] using List.all_eq_true.mp List.all_takeWhile c hc
  fun_induction dataCardsFrom size start cells with
  | case1 start cells h =>
    refine ⟨[], .done fun c hc => ?_, rfl⟩
    rw [← List.takeWhile_append_dropWhile (p := isGap) (l := cells), h, List.append_nil] at hc
    exact hgap c hc
  | case2 start cells c rest h first record ih =>
    obtain ⟨more, htiles, hcards⟩ := ih
    have hc : c ≠ Cell.undefined := by
      have hhead := List.head_dropWhile_not isGap (l := cells) (by rw [h]; exact List.cons_ne_nil c rest)
      simp only [h, List.head_cons, isGap] at hhead
      simpa using hhead
    have hrecord : IsRecord record := isRecord_takeRecord rest hc
    have hsplit : record ++ rest.drop (record.length - 1) = c :: rest := by
      obtain ⟨d, tail, htail, -⟩ := hrecord.defined
      have happend := takeRecord_append recordSize (c :: rest)
      change record ++ (c :: rest).drop record.length = _ at happend
      rw [htail] at happend ⊢
      exact happend
    have hcells : cells = cells.takeWhile isGap ++ record ++ rest.drop (record.length - 1) := by
      rw [List.append_assoc, hsplit, ← h, List.takeWhile_append_dropWhile]
    refine ⟨(first, record) :: more, ?_, ?_⟩
    · rw [hcells]
      exact .next hgap hrecord htiles
    · rw [hcards]
      rfl

namespace Tiles

variable {start i : Nat} {cells : Value} {records : List (Nat × Value)}

theorem mem (h : Tiles start cells records) {r : Nat × Value} (hr : r ∈ records) :
    IsRecord r.2 ∧ ∃ before after, cells = before ++ r.2 ++ after ∧ r.1 = start + before.length := by
  induction h with
  | done => cases hr
  | @next start gap record rest more hgap hrecord hmore ih =>
    rcases List.mem_cons.mp hr with rfl | hr
    · exact ⟨hrecord, gap, rest, rfl, rfl⟩
    · obtain ⟨hr, before, after, rfl, hfirst⟩ := ih hr
      refine ⟨hr, gap ++ record ++ before, after, by simp, ?_⟩
      rw [hfirst, List.length_append, List.length_append]
      omega

theorem start_le (h : Tiles start cells records) {r : Nat × Value} (hr : r ∈ records) :
    start ≤ r.1 := by
  obtain ⟨-, before, after, -, hfirst⟩ := h.mem hr
  omega

theorem pairwise (h : Tiles start cells records) :
    records.Pairwise fun r s => r.1 + r.2.length ≤ s.1 := by
  induction h with
  | done => exact .nil
  | next hgap hrecord hmore ih => exact .cons (fun r hr => hmore.start_le hr) ih

/-- **A defined cell is in one record.** -/
theorem countP_eq_one (h : Tiles start cells records) {c : Cell} (hc : cells[i]? = some c)
    (hdefined : c ≠ Cell.undefined) :
    records.countP (fun r => r.1 ≤ start + i && start + i < r.1 + r.2.length) = 1 := by
  induction h generalizing i with
  | done hgap => exact absurd (hgap c (List.mem_of_getElem? hc)) hdefined
  | @next start gap record rest more hgap hrecord hmore ih =>
    have hbefore : gap.length ≤ i := Nat.le_of_not_lt fun hlt => by
      rw [List.append_assoc, List.getElem?_append_left (by omega)] at hc
      exact hdefined (hgap c (List.mem_of_getElem? hc))
    rw [List.countP_cons]
    by_cases hin : i < gap.length + record.length
    · -- the records behind start too late
      have hrest : more.countP (fun r => r.1 ≤ start + i && start + i < r.1 + r.2.length) = 0 := by
        rw [List.countP_eq_zero]
        intro r hr
        have := hmore.start_le hr
        simp only [Bool.and_eq_true, decide_eq_true_eq]
        omega
      rw [hrest, if_pos]
      simp only [Bool.and_eq_true, decide_eq_true_eq]
      omega
    · rw [List.getElem?_append_right (by rw [List.length_append]; omega), List.length_append] at hc
      have hone := ih hc
      rw [show start + gap.length + record.length + (i - (gap.length + record.length)) = start + i by
        omega] at hone
      rw [hone, if_neg]
      simp only [Bool.and_eq_true, decide_eq_true_eq]
      omega

end Tiles

/-! ## One card -/

/-- The text of a data card, without the end of the line. -/
def Card.text (c : Card) : Text := addressColumns c.start ++ addressColumns c.stop ++ c.columns

namespace Card

variable {c : Card}

theorem render_eq (hstart : c.start < 100000) (hstop : c.stop < 100000) :
    c.render = .ok (c.text ++ ascii "\n") := by
  rw [render, (addressColumns_spec hstart).1, (addressColumns_spec hstop).1]
  rfl

theorem span_text (size : Nat) (hstart : c.start < 100000) (hstop : c.stop < 100000) :
    cardSpan? size c.text = some (c.start, (c.stop + size - c.start) % size) := by
  have hfirst : c.text.take 5 = addressColumns c.start := by
    rw [text, List.append_assoc, List.take_left' (length_addressColumns _)]
  have hsecond : (c.text.drop 5).take 5 = addressColumns c.stop := by
    rw [text, List.append_assoc, List.drop_left' (length_addressColumns _),
      List.take_left' (length_addressColumns _)]
  rw [cardSpan?, hfirst, hsecond, (addressColumns_spec hstart).2.1, (addressColumns_spec hstop).2.1]
  rfl

theorem drop_text (c : Card) : c.text.drop 10 = c.columns := List.drop_left' rfl

end Card

theorem dropWhile_columns {v : Value} (h : ∀ c ∈ v, c.punchable = true) :
    (v.map cardColumn).dropWhile (· == Byte.blank) = (v.dropWhile isGap).map cardColumn := by
  induction v with
  | nil => rfl
  | cons c v ih =>
    rw [List.forall_mem_cons] at h
    rw [List.map_cons, List.dropWhile_cons, List.dropWhile_cons, (column_spec c h.1).2.1, ih h.2, isGap]
    split <;> rfl

theorem trimRight_columns {record : Value} (h : ∀ c ∈ record, c.punchable = true) :
    ∃ kept gap, record = kept ++ gap ∧ (∀ c ∈ gap, c = Cell.undefined) ∧
      Text.trimRight (record.map cardColumn) = kept.map cardColumn := by
  refine ⟨(record.reverse.dropWhile isGap).reverse, (record.reverse.takeWhile isGap).reverse, ?_,
    fun c hc => ?_, ?_⟩
  · rw [← List.reverse_append, List.takeWhile_append_dropWhile, List.reverse_reverse]
  · simpa [isGap] using List.all_eq_true.mp List.all_takeWhile c (List.mem_reverse.mp hc)
  · rw [Text.trimRight, ← List.map_reverse,
      dropWhile_columns fun c hc => h c (List.mem_reverse.mp hc), List.map_reverse]

theorem IsRecord.concat_of_mark {record : Value} (h : IsRecord record)
    (hmark : record.any Cell.isMark = true) :
    ∃ front last, record = front ++ [last] ∧ last.isMark = true ∧
      ∀ c ∈ front, c.isMark = false := by
  obtain ⟨front, last, rfl⟩ : ∃ front last, record = front ++ [last] :=
    ⟨_, _, (List.dropLast_concat_getLast (by rintro rfl; cases hmark)).symm⟩
  have hfront := h.mark_last
  rw [List.dropLast_concat] at hfront
  refine ⟨front, last, rfl, ?_, hfront⟩
  obtain ⟨c, hc, hm⟩ := List.any_eq_true.mp hmark
  rw [List.mem_append, List.mem_singleton] at hc
  rcases hc with hc | rfl
  · exact absurd hm (by simp [hfront c hc])
  · exact hm

theorem eq_nil_of_concat_mark {kept gap front : Value} {last : Cell}
    (h : kept ++ gap = front ++ [last]) (hlast : last.isMark = true)
    (hgap : ∀ c ∈ gap, c = Cell.undefined) : gap = [] := by
  rcases List.eq_nil_or_concat gap with hnil | ⟨gap, c, rfl⟩
  · exact hnil
  · rw [List.concat_eq_append, ← List.append_assoc] at h
    have hc : c = last := List.singleton_inj.mp (List.append_inj' h rfl).2
    have hundefined := hgap c (by simp)
    rw [← hc, hundefined] at hlast
    exact absurd hlast (by decide)

/-- The card of a record has its cells up to the last defined one, and ends in a mark. -/
structure Shows (size start : Nat) (record kept : Value) (card : Card) : Prop where
  rest_undefined : ∃ gap, record = kept ++ gap ∧ ∀ c ∈ gap, c = Cell.undefined
  kept_pos : 0 < kept.length
  start_eq : card.start = start
  stop_eq : card.stop = (start + kept.length) % size
  columns_eq : ∃ tail, card.columns = kept.map cardColumn ++ tail ∧ tail.length ≤ 1
  mark_last : ∃ front last, card.columns = front ++ [last] ∧ isMarkColumn last = true ∧
    ∀ b ∈ front, isMarkColumn b = false
  one_line : Byte.newline ∉ card.columns

theorem shows_ofRecord (size start : Nat) {record : Value} (hrecord : IsRecord record)
    (h : ∀ c ∈ record, c.punchable = true) :
    ∃ kept, Shows size start record kept (Card.ofRecord size start record) := by
  obtain ⟨kept, gap, heq, hgap, htrim⟩ := trimRight_columns h
  have hkept : ∀ c ∈ kept, c.punchable = true := fun c hc => h c (heq ▸ List.mem_append_left gap hc)
  have hpos : 0 < kept.length := by
    obtain ⟨c, rest, hc, hdefined⟩ := hrecord.defined
    cases kept with
    | nil =>
      rw [List.nil_append] at heq
      exact absurd (hgap c (heq ▸ hc ▸ List.mem_cons_self)) hdefined
    | cons d kept => exact Nat.succ_pos _
  have hline : Byte.newline ∉ kept.map cardColumn := by
    intro hmem
    obtain ⟨c, hc, hcolumn⟩ := List.mem_map.mp hmem
    exact (column_spec c (hkept c hc)).2.2.2 hcolumn
  have hlength : (kept.map cardColumn).length = kept.length := List.length_map _
  by_cases hmark : record.any Cell.isMark = true
  · -- the record ends in its mark, so that nothing was trimmed
    have hcard : Card.ofRecord size start record =
        { start, stop := (start + kept.length) % size, columns := kept.map cardColumn } := by
      simp only [Card.ofRecord, htrim, hlength, hmark, if_true]
    obtain ⟨front, last, hlast, hlastMark, hfront⟩ := hrecord.concat_of_mark hmark
    have hnil : gap = [] := eq_nil_of_concat_mark (heq.symm.trans hlast) hlastMark hgap
    have hall : kept = front ++ [last] := by rw [← hlast, heq, hnil, List.append_nil]
    rw [hcard]
    refine ⟨kept, ⟨gap, heq, hgap⟩, hpos, rfl, rfl, ⟨[], by simp⟩, ?_, hline⟩
    have hp := fun c hc => (column_spec c (hkept c hc)).2.2.1
    rw [hall] at hp ⊢
    refine ⟨front.map cardColumn, cardColumn last, by simp, ?_, ?_⟩
    · rw [hp last (by simp), hlastMark]
    · intro b hb
      obtain ⟨c, hc, rfl⟩ := List.mem_map.mp hb
      rw [hp c (List.mem_append_left _ hc), hfront c hc]
  · -- a mark is added
    have hcard : Card.ofRecord size start record =
        { start, stop := (start + kept.length) % size,
          columns := kept.map cardColumn ++ ascii "|" } := by
      simp only [Card.ofRecord, htrim, hlength, hmark, if_false, Bool.false_eq_true]
    rw [hcard]
    refine ⟨kept, ⟨gap, heq, hgap⟩, hpos, rfl, rfl, ⟨ascii "|", rfl, Nat.le_refl 1⟩,
      ⟨kept.map cardColumn, '|'.toUInt8, rfl, by decide, ?_⟩, ?_⟩
    · intro b hb
      obtain ⟨c, hc, rfl⟩ := List.mem_map.mp hb
      rw [(column_spec c (hkept c hc)).2.2.1]
      refine Bool.eq_false_iff.mpr fun hm => hmark (List.any_eq_true.mpr ⟨c, ?_, hm⟩)
      exact heq ▸ List.mem_append_left gap hc
    · intro hmem
      rcases List.mem_append.mp hmem with hmem | hmem
      · exact hline hmem
      · exact absurd hmem (by decide)

/-! ## The data cards of a memory -/

/-- A record that stands in a memory behind the first card address. -/
structure StandsIn (m : Memory) (r : Nat × Value) : Prop where
  record : IsRecord r.2
  first_le : firstCardAddress ≤ r.1
  cells : ∃ after, m.cells.toList.drop r.1 = r.2 ++ after

namespace StandsIn

variable {m : Memory} {r : Nat × Value} {kept : Value} {card : Card}

theorem length_le (h : StandsIn m r) : r.1 + r.2.length ≤ m.cells.size := by
  obtain ⟨c, rest, hrecord, -⟩ := h.record.defined
  obtain ⟨after, hcells⟩ := h.cells
  have hlength := congrArg List.length hcells
  rw [List.length_drop, Array.length_toList, hrecord, List.length_append, List.length_cons] at hlength
  rw [hrecord, List.length_cons]
  omega

theorem of_tiles {records : List (Nat × Value)}
    (h : Tiles firstCardAddress (m.cells.toList.drop firstCardAddress) records) (hr : r ∈ records) :
    StandsIn m r := by
  obtain ⟨hrecord, before, after, hcells, hfirst⟩ := h.mem hr
  refine ⟨hrecord, by omega, after, ?_⟩
  rw [hfirst, ← List.drop_drop, hcells, List.append_assoc, List.drop_left]

theorem punchable (h : StandsIn m r) (hm : ∀ c ∈ m.cells.toList, c.punchable = true) :
    ∀ c ∈ r.2, c.punchable = true := by
  obtain ⟨after, hcells⟩ := h.cells
  intro c hc
  refine hm c (List.mem_of_mem_drop (i := r.1) ?_)
  rw [hcells]
  exact List.mem_append_left after hc

theorem kept_le (h : StandsIn m r) (hshows : Shows m.cells.size r.1 r.2 kept card) :
    kept.length ≤ 60 ∧ r.1 + kept.length ≤ m.cells.size := by
  obtain ⟨gap, hrecord, -⟩ := hshows.rest_undefined
  have hlength := h.length_le
  have hle : r.2.length ≤ 60 := h.record.length_le
  rw [hrecord, List.length_append] at hlength hle
  omega

theorem addresses_lt (h : StandsIn m r) (hshows : Shows m.cells.size r.1 r.2 kept card)
    (hsize : m.cells.size ≤ 100000) : card.start < 100000 ∧ card.stop < 100000 := by
  have hkept := h.kept_le hshows
  have hpos := hshows.kept_pos
  have hstop : (r.1 + kept.length) % m.cells.size < m.cells.size := Nat.mod_lt _ (by omega)
  rw [hshows.start_eq, hshows.stop_eq]
  omega

/-- The addresses on a card name the cells up to the last defined one, also where the address behind
them is that of core's first cell. -/
theorem span_eq (h : StandsIn m r) (hshows : Shows m.cells.size r.1 r.2 kept card)
    (hlow : 20000 ≤ m.cells.size) (hhigh : m.cells.size ≤ 100000) :
    cardSpan? m.cells.size card.text = some (r.1, kept.length) := by
  obtain ⟨hstart, hstop⟩ := h.addresses_lt hshows hhigh
  have hkept := h.kept_le hshows
  have hpos := hshows.kept_pos
  rw [Card.span_text _ hstart hstop, hshows.start_eq, hshows.stop_eq]
  by_cases hend : r.1 + kept.length = m.cells.size
  · rw [hend, Nat.mod_self, Nat.zero_add, Nat.mod_eq_of_lt (by omega)]
    congr 2
    omega
  · rw [Nat.mod_eq_of_lt (a := r.1 + kept.length) (by omega),
      show r.1 + kept.length + m.cells.size - r.1 = kept.length + m.cells.size by omega,
      Nat.add_mod_right, Nat.mod_eq_of_lt (by omega)]

/-- **The card of a record carries its cells.** -/
theorem carries (h : StandsIn m r) (hshows : Shows m.cells.size r.1 r.2 kept card)
    (hm : ∀ c ∈ m.cells.toList, c.punchable = true) (hlow : 20000 ≤ m.cells.size)
    (hhigh : m.cells.size ≤ 100000) : Carries m card.text := by
  have hkept := h.kept_le hshows
  obtain ⟨hstart, hstop⟩ := h.addresses_lt hshows hhigh
  obtain ⟨tail, hcolumns, htail⟩ := hshows.columns_eq
  refine ⟨⟨r.1, kept.length, h.span_eq hshows hlow hhigh, hshows.kept_pos, hkept.1, h.first_le,
    hkept.2, ?_⟩, ?_, ?_⟩
  · obtain ⟨gap, hrecord, -⟩ := hshows.rest_undefined
    obtain ⟨after, hcells⟩ := h.cells
    have hread : ∀ c ∈ kept, columnCell? (cardColumn c) = some (id c) := fun c hc =>
      (column_spec c (h.punchable hm c (hrecord ▸ List.mem_append_left gap hc))).1
    rw [cardCells?, Card.drop_text, hcolumns, List.take_left' (List.length_map _), mapM_punched hread,
      hcells, hrecord, List.append_assoc, List.take_left, List.map_id]
  · obtain ⟨front, last, hlast, hmark, hfront⟩ := hshows.mark_last
    refine ⟨addressColumns card.start ++ addressColumns card.stop ++ front, last, ?_, hmark, ?_⟩
    · rw [Card.text, hlast, List.append_assoc _ front]
    · intro b hb
      rcases List.mem_append.mp hb with hb | hb
      · rcases List.mem_append.mp hb with hb | hb
        · exact ((addressColumns_spec hstart).2.2 b hb).1
        · exact ((addressColumns_spec hstop).2.2 b hb).1
      · exact hfront b hb
  · rw [Card.text, hcolumns]
    simp only [List.length_append, length_addressColumns, List.length_map]
    omega

theorem newline_notMem (h : StandsIn m r) (hshows : Shows m.cells.size r.1 r.2 kept card)
    (hhigh : m.cells.size ≤ 100000) : Byte.newline ∉ card.text := by
  obtain ⟨hstart, hstop⟩ := h.addresses_lt hshows hhigh
  intro hmem
  rcases List.mem_append.mp hmem with hmem | hmem
  · rcases List.mem_append.mp hmem with hmem | hmem
    · exact ((addressColumns_spec hstart).2.2 _ hmem).2 rfl
    · exact ((addressColumns_spec hstop).2.2 _ hmem).2 rfl
  · exact hshows.one_line hmem

theorem covers_eq (h : StandsIn m r) (hshows : Shows m.cells.size r.1 r.2 kept card)
    (hlow : 20000 ≤ m.cells.size) (hhigh : m.cells.size ≤ 100000) {i : Nat} {c : Cell}
    (hc : m.cells[i]? = some c) (hdefined : c ≠ Cell.undefined) :
    covers m.cells.size i card.text = (r.1 ≤ i && i < r.1 + r.2.length) := by
  obtain ⟨gap, hrecord, hgap⟩ := hshows.rest_undefined
  obtain ⟨after, hcells⟩ := h.cells
  have hgap' : r.1 + kept.length ≤ i → r.1 + r.2.length ≤ i := by
    intro hle
    refine Nat.le_of_not_lt fun hlt => hdefined (hgap c ?_)
    have hi : (r.2 ++ after)[i - r.1]? = some c := by
      rw [← hcells, List.getElem?_drop, show r.1 + (i - r.1) = i by omega, Array.getElem?_toList, hc]
    rw [List.getElem?_append_left (by omega), hrecord, List.getElem?_append_right (by omega)] at hi
    exact List.mem_of_getElem? hi
  have hlength : kept.length ≤ r.2.length := by
    rw [hrecord, List.length_append]
    omega
  rw [covers, h.span_eq hshows hlow hhigh, Option.any_some, Bool.eq_iff_iff]
  simp only [Bool.and_eq_true, decide_eq_true_eq]
  omega

end StandsIn

/-! ## The deck -/

theorem deckCards_lines {cards : List Text} (h : ∀ card ∈ cards, Byte.newline ∉ card) :
    deckCards (cards.flatMap (· ++ ascii "\n")) = cards := by
  have hfields : Text.fields Byte.newline (cards.flatMap (· ++ ascii "\n")) = cards ++ [[]] := by
    induction cards with
    | nil => rfl
    | cons card cards ih =>
      rw [List.forall_mem_cons] at h
      rw [List.flatMap_cons, List.append_assoc]
      exact (Text.fields_append h.1 _).trans (congrArg _ (ih h.2))
  rw [deckCards, hfields, List.dropLast_concat]

/-- The card of the 80 cells from an address on, without the end of the line. -/
def lowCard (m : Memory) (start : Nat) : Text :=
  ((m.cells.toList.drop start).take 80).map cardChar

theorem coreCard_eq (m : Memory) (start : Nat) : coreCard m start = lowCard m start ++ ascii "\n" := by
  rw [coreCard, lowCard, Array.toList_extract]
  simp [List.extract]

/-- A deck that carries the whole image of a memory: the loader, data cards in ascending order that
have every defined cell once, and the bottom of core with zeros for undefined cells. -/
structure IsDeck (m : Memory) (deck : Text) (data bottom : List Text) : Prop where
  cards : deckCards deck = loaderCard1.dropLast :: loaderCard2.dropLast :: data ++
    loaderCard3.dropLast :: bottom
  carries : ∀ card ∈ data, Carries m card
  ascending : data.Pairwise fun card next => ∃ p q, cardSpan? m.cells.size card = some p ∧
    cardSpan? m.cells.size next = some q ∧ p.1 + p.2 ≤ q.1
  covered : ∀ i c, firstCardAddress ≤ i → m.cells[i]? = some c → c ≠ Cell.undefined →
    data.countP (covers m.cells.size i) = 1
  bottom : bottom.map (·.mapM columnCell?) = [160, 80, 0].map fun start =>
    some (((m.cells.toList.drop start).take 80).map fun c => if c = Cell.undefined then 0 else c)

theorem size_of_mem_memorySizes {m : Memory}
    (h : ∃ size ∈ memorySizes, m.cells.size = size.toNatClampNeg) :
    20000 ≤ m.cells.size ∧ m.cells.size ≤ 100000 := by
  obtain ⟨size, hmem, hsize⟩ := h
  have hint := toInt_of_mem_memorySizes hmem
  rw [hsize, Int64.toNatClampNeg]
  omega

/-- The lines of the deck with the given data cards. -/
def deckLines (m : Memory) (data : List Text) : List Text :=
  loaderCard1.dropLast :: loaderCard2.dropLast :: data ++
    loaderCard3.dropLast :: [160, 80, 0].map (lowCard m)

theorem cardDeck_eq {m : Memory} {data : List Text}
    (h : (dataCards m).mapM Card.render = .ok (data.map (· ++ ascii "\n"))) :
    cardDeck m = .ok ((deckLines m data).flatMap (· ++ ascii "\n")) := by
  have hdata : (data.map (· ++ ascii "\n")).flatten = data.flatMap (· ++ ascii "\n") := rfl
  have hloader : ∀ card ∈ [loaderCard1, loaderCard2, loaderCard3],
      card.dropLast ++ ascii "\n" = card := by decide +kernel
  simp only [List.forall_mem_cons] at hloader
  have hbottom : [160, 80, 0].flatMap (coreCard m) =
      ([160, 80, 0].map (lowCard m)).flatMap (· ++ ascii "\n") := by
    rw [funext (coreCard_eq m), List.flatMap_map]
  rw [cardDeck, h]
  change Except.ok _ = _
  rw [hdata, hbottom, deckLines, List.cons_append, List.cons_append, List.flatMap_cons,
    List.flatMap_cons, List.flatMap_append, List.flatMap_cons, hloader.1, hloader.2.1, hloader.2.2.1]
  simp only [List.append_assoc]

theorem newline_notMem_deckLines {m : Memory} {data : List Text}
    (hm : ∀ c ∈ m.cells.toList, c.punchable = true) (hdata : ∀ card ∈ data, Byte.newline ∉ card) :
    ∀ card ∈ deckLines m data, Byte.newline ∉ card := by
  have hloader : ∀ card ∈ [loaderCard1, loaderCard2, loaderCard3],
      Byte.newline ∉ card.dropLast := by decide +kernel
  simp only [List.forall_mem_cons] at hloader
  have hlow : ∀ start, Byte.newline ∉ lowCard m start := by
    intro start hmem
    obtain ⟨c, hc, hcolumn⟩ := List.mem_map.mp hmem
    exact (lowColumn_spec c (hm c (List.mem_of_mem_drop (List.mem_of_mem_take hc)))).2 hcolumn
  intro card hcard
  rcases List.mem_append.mp hcard with hcard | hcard
  · rcases List.mem_cons.mp hcard with rfl | hcard
    · exact hloader.1
    · rcases List.mem_cons.mp hcard with rfl | hcard
      · exact hloader.2.1
      · exact hdata card hcard
  · rcases List.mem_cons.mp hcard with rfl | hcard
    · exact hloader.2.2.1
    · obtain ⟨start, -, rfl⟩ := List.mem_map.mp hcard
      exact hlow start

theorem bottom_lowCards {m : Memory} (hm : ∀ c ∈ m.cells.toList, c.punchable = true) :
    ([160, 80, 0].map (lowCard m)).map (·.mapM columnCell?) = [160, 80, 0].map fun start =>
      some (((m.cells.toList.drop start).take 80).map fun c => if c = Cell.undefined then 0 else c) := by
  rw [List.map_map]
  refine List.map_congr_left fun start _ => mapM_punched fun c hc => ?_
  exact (lowColumn_spec c (hm c (List.mem_of_mem_drop (List.mem_of_mem_take hc)))).1

theorem mapM_render {cards : List Card} (h : ∀ c ∈ cards, c.start < 100000 ∧ c.stop < 100000) :
    cards.mapM Card.render = .ok ((cards.map Card.text).map (· ++ ascii "\n")) := by
  induction cards with
  | nil => rfl
  | cons c cards ih =>
    rw [List.forall_mem_cons] at h
    rw [List.mapM_cons, Card.render_eq h.1.1 h.1.2, ih h.2]
    rfl

/-- **The deck carries the core image.** -/
theorem cardDeck_carries {m : Memory}
    (hsize : ∃ size ∈ memorySizes, m.cells.size = size.toNatClampNeg)
    (hm : ∀ c ∈ m.cells.toList, c.punchable = true) :
    ∃ deck data bottom, cardDeck m = .ok deck ∧ IsDeck m deck data bottom := by
  obtain ⟨hlow, hhigh⟩ := size_of_mem_memorySizes hsize
  obtain ⟨records, htiles, hcards⟩ := tiles_dataCards m.cells.size firstCardAddress
    (m.cells.toList.drop firstCardAddress)
  have hrecord : ∀ r ∈ records, StandsIn m r ∧ ∃ kept, Shows m.cells.size r.1 r.2 kept
      (Card.ofRecord m.cells.size r.1 r.2) := by
    intro r hr
    have hstands : StandsIn m r := .of_tiles htiles hr
    exact ⟨hstands, shows_ofRecord _ _ hstands.record (hstands.punchable hm)⟩
  have hmem : ∀ c ∈ dataCards m, ∃ r ∈ records, c = Card.ofRecord m.cells.size r.1 r.2 := by
    intro c hc
    rw [dataCards, hcards] at hc
    obtain ⟨r, hr, rfl⟩ := List.mem_map.mp hc
    exact ⟨r, hr, rfl⟩
  have hrender : (dataCards m).mapM Card.render =
      .ok (((dataCards m).map Card.text).map (· ++ ascii "\n")) := mapM_render fun c hc => by
    obtain ⟨r, hr, rfl⟩ := hmem c hc
    obtain ⟨hstands, kept, hshows⟩ := hrecord r hr
    exact hstands.addresses_lt hshows hhigh
  have hlines : ∀ card ∈ deckLines m ((dataCards m).map Card.text), Byte.newline ∉ card := by
    refine newline_notMem_deckLines hm fun card hcard => ?_
    obtain ⟨c, hc, rfl⟩ := List.mem_map.mp hcard
    obtain ⟨r, hr, rfl⟩ := hmem c hc
    obtain ⟨hstands, kept, hshows⟩ := hrecord r hr
    exact hstands.newline_notMem hshows hhigh
  refine ⟨_, _, _, cardDeck_eq hrender, deckCards_lines hlines, ?_, ?_, ?_, bottom_lowCards hm⟩
  · intro card hcard
    obtain ⟨c, hc, rfl⟩ := List.mem_map.mp hcard
    obtain ⟨r, hr, rfl⟩ := hmem c hc
    obtain ⟨hstands, kept, hshows⟩ := hrecord r hr
    exact hstands.carries hshows hm hlow hhigh
  · rw [dataCards, hcards, List.map_map, List.pairwise_map]
    refine htiles.pairwise.imp_of_mem fun {r s} hr hs hle => ?_
    obtain ⟨hstands, kept, hshows⟩ := hrecord r hr
    obtain ⟨hstands', kept', hshows'⟩ := hrecord s hs
    obtain ⟨gap, hgap, -⟩ := hshows.rest_undefined
    refine ⟨_, _, hstands.span_eq hshows hlow hhigh, hstands'.span_eq hshows' hlow hhigh, ?_⟩
    rw [hgap, List.length_append] at hle
    dsimp only
    omega
  · intro i c hi hc hdefined
    have hone := htiles.countP_eq_one (i := i - firstCardAddress) (c := c) (by
      rw [List.getElem?_drop, Nat.add_sub_cancel' hi, Array.getElem?_toList, hc]) hdefined
    rw [Nat.add_sub_cancel' hi] at hone
    rw [dataCards, hcards, List.map_map, List.countP_map, ← hone]
    refine List.countP_congr fun r hr => ?_
    obtain ⟨hstands, kept, hshows⟩ := hrecord r hr
    rw [← hstands.covers_eq hshows hlow hhigh hc hdefined]
    rfl

/-- Digits at the bottom of core, a gap, and flagged digits up to a flagged record mark in the last
cell of core. -/
theorem cardDeck_carries_wrapped :
    ∃ deck data bottom,
      cardDeck ⟨(List.replicate 300 5 ++ List.replicate 19000 Cell.undefined ++
        List.replicate 699 0x13 ++ [0x1A]).toArray⟩ = .ok deck ∧
      IsDeck ⟨(List.replicate 300 5 ++ List.replicate 19000 Cell.undefined ++
        List.replicate 699 0x13 ++ [0x1A]).toArray⟩ deck data bottom := by
  refine cardDeck_carries ⟨20000, by decide, ?_⟩ ?_
  · simp only [List.size_toArray, List.length_append, List.length_replicate, List.length_singleton]
    rfl
  · intro c hc
    simp only [List.mem_append, List.mem_replicate, List.mem_singleton] at hc
    rcases hc with ((⟨-, rfl⟩ | ⟨-, rfl⟩) | ⟨-, rfl⟩) | rfl <;> decide

end SpsAssembler
