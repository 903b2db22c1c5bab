import SpsAssembler.Proofs.Fields
import SpsAssembler.Source.Card

/-!
# A statement in either format

A label, an operation and operands that fit on a card can be punched on one, in their columns, or
written as words with a blank between them. Either way, and in capitals or small letters, the line
is cut into the same fields.

* `LineFields`, `LineFields.Fits`: the fields of a statement;
* `LineFields.card`, `LineFields.words`: the statement in either format;
* `Line.ofCard_card`, `Line.ofWords_words`: what its text is cut into;
* **`tokenize_formats`**: the line of either text.
-/

namespace SpsAssembler

/-! ## Blanks -/

namespace Text

theorem trimRight_append_blanks {t : Text} (h : ∀ b ∈ t, Line.isInk b = true) (n : Nat) :
    (t ++ blanks n).trimRight = t := by
  have hblanks : ∀ b ∈ blanks n, (b == Byte.blank) = true := fun b hb => by
    rw [(List.mem_replicate.mp hb).2, beq_self_eq_true]
  have hink : t.reverse.dropWhile (· == Byte.blank) = t.reverse := by
    cases hrev : t.reverse with
    | nil => rfl
    | cons b rest =>
      have hb : Line.isInk b = true := h b (List.mem_reverse.mp (by simp [hrev]))
      exact List.dropWhile_cons_of_neg (by simpa [Line.isInk] using hb)
  have hreverse : (blanks n).reverse = blanks n := List.reverse_replicate ..
  rw [trimRight, List.reverse_append, hreverse, List.dropWhile_append_of_pos hblanks, hink,
    List.reverse_reverse]

theorem trimLeft_of_head {t : Text} (h : t.head? ≠ some Byte.blank) : t.trimLeft = t := by
  cases t with
  | nil => rfl
  | cons b rest => exact List.dropWhile_cons_of_neg (by simpa using h)

theorem slice_append {t u v : Text} {i j : Nat} (hi : t.length = i) (hj : t.length + u.length = j) :
    (t ++ (u ++ v)).slice i j = u := by
  rw [slice, ← List.append_assoc, List.take_append_of_le_length (by simp; omega),
    List.take_of_length_le (by simp; omega), List.drop_left' hi]

end Text

/-! ## Capitals -/

theorem isAscii_of_toUpper : ∀ b : Byte, isSourceByte b.toUpper = true → b.isAscii = true := by
  refine forall_cell ?_
  decide +kernel

/-- A text whose capitals belong to the source alphabet is capitalized byte by byte. -/
theorem Text.toUpper_of_map {raw text : Text} (h : raw.map Byte.toUpper = text)
    (hsource : text.all isSourceByte = true) : raw.toUpper = text := by
  have hascii : raw.all Byte.isAscii = true := by
    refine List.all_eq_true.mpr fun b hb => isAscii_of_toUpper b ?_
    exact List.all_eq_true.mp hsource _ (h ▸ List.mem_map_of_mem hb)
  rw [Text.toUpper, if_pos hascii, h]

/-! ## The fields of a statement -/

/-- The label, the operation and the operands of a statement. -/
structure LineFields where
  label : Text
  operation : Text
  operands : Text
  deriving DecidableEq, Repr

namespace LineFields

/-- The fields have room in their columns and consist of source characters. Label and operation hold
no blank, the operands start with none, and the label does not start with the star of a comment. -/
structure Fits (f : LineFields) : Prop where
  source : (f.label ++ f.operation ++ f.operands).all isSourceByte = true
  label_length : f.label.length ≤ 6
  label_ink : ∀ b ∈ f.label, Line.isInk b = true
  label_star : f.label.head? ≠ some '*'.toUInt8
  operation_pos : 1 ≤ f.operation.length
  operation_length : f.operation.length ≤ 4
  operation_ink : ∀ b ∈ f.operation, Line.isInk b = true
  operands_length : f.operands.length ≤ 60
  operands_head : f.operands.head? ≠ some Byte.blank

/-- The card of a statement behind five columns that are not read. -/
def card (f : LineFields) (sequence : Text) : Text :=
  sequence ++ ((f.label ++ Text.blanks (6 - f.label.length)) ++
    ((f.operation ++ Text.blanks (4 - f.operation.length)) ++ f.operands))

/-- The statement as a row of words. -/
def words (f : LineFields) : Text :=
  f.label ++ Byte.blank :: (f.operation ++
    if f.operands.isEmpty then [] else Byte.blank :: f.operands)

variable {f : LineFields}

theorem Fits.operation_cons (h : f.Fits) : ∃ b rest, f.operation = b :: rest ∧ b ≠ Byte.blank := by
  cases hop : f.operation with
  | nil => exact absurd h.operation_pos (by simp [hop])
  | cons b rest => exact ⟨b, rest, rfl, by simpa [Line.isInk] using h.operation_ink b (by simp [hop])⟩

theorem blank_isSource : isSourceByte Byte.blank = true := by decide

theorem blanks_isSource (n : Nat) : (Text.blanks n).all isSourceByte = true :=
  List.all_eq_true.mpr fun b hb => by rw [(List.mem_replicate.mp hb).2, blank_isSource]

theorem Fits.card_isSource (h : f.Fits) {sequence : Text}
    (hsequence : sequence.all isSourceByte = true) : (f.card sequence).all isSourceByte = true := by
  have hfields := h.source
  simp only [List.all_append, Bool.and_eq_true] at hfields
  simp only [card, List.all_append, Bool.and_eq_true, blanks_isSource, and_true]
  exact ⟨hsequence, hfields.1.1, hfields.1.2, hfields.2⟩

theorem Fits.words_isSource (h : f.Fits) : f.words.all isSourceByte = true := by
  have hfields := h.source
  simp only [List.all_append, Bool.and_eq_true] at hfields
  have hrest : (if f.operands.isEmpty then [] else Byte.blank :: f.operands).all isSourceByte =
      true := by
    split
    · rfl
    · rw [List.all_cons, blank_isSource, hfields.2]
      rfl
  simp only [words, List.all_append, List.all_cons, Bool.and_eq_true, hrest, and_true]
  exact ⟨hfields.1.1, blank_isSource, hfields.1.2⟩

end LineFields

/-! ## Cutting -/

theorem Text.isBlank_eq_false_of_mem {t : Text} {b : Byte} (hmem : b ∈ t) (hb : b ≠ Byte.blank) :
    t.isBlank = false := by
  refine Bool.eq_false_iff.mpr fun hblank => hb ?_
  simpa using List.all_eq_true.mp hblank b hmem

namespace LineFields.Fits

variable {f : LineFields} {sequence : Text} (h : f.Fits) (hsequence : sequence.length = 5)

include h hsequence

theorem slice_label :
    (f.card sequence).slice 5 11 = f.label ++ Text.blanks (6 - f.label.length) := by
  have hlabel := h.label_length
  exact Text.slice_append hsequence (by simp [Text.blanks]; omega)

theorem slice_operation :
    (f.card sequence).slice 11 15 = f.operation ++ Text.blanks (4 - f.operation.length) := by
  have hlabel := h.label_length
  have hoperation := h.operation_length
  rw [card, ← List.append_assoc]
  exact Text.slice_append (by simp [Text.blanks]; omega) (by simp [Text.blanks]; omega)

theorem take_card : (f.card sequence).take 75 = f.card sequence := by
  have hlabel := h.label_length
  have hoperation := h.operation_length
  have hoperands := h.operands_length
  refine List.take_of_length_le ?_
  simp [card, Text.blanks]
  omega

theorem slice_operands : (f.card sequence).slice 15 75 = f.operands := by
  have hlabel := h.label_length
  have hoperation := h.operation_length
  rw [Text.slice, h.take_card hsequence, card, ← List.append_assoc, ← List.append_assoc]
  exact List.drop_left' (by simp [Text.blanks]; omega)

theorem isBlank_card : ((f.card sequence).slice 5 75).isBlank = false := by
  obtain ⟨b, rest, hop, hb⟩ := h.operation_cons
  refine Text.isBlank_eq_false_of_mem ?_ hb
  rw [Text.slice, h.take_card hsequence, card, List.drop_left' hsequence]
  simp [hop]

theorem slice_star : (f.card sequence).slice 5 6 ≠ ascii "*" := by
  have hfirst : (f.card sequence).slice 5 6 = ((f.card sequence).slice 5 11).take 1 := by
    simp [Text.slice, List.take_drop, List.take_take]
  rw [hfirst, h.slice_label hsequence]
  cases hcase : f.label with
  | nil => decide
  | cons b rest =>
    have hb := h.label_star
    rw [hcase] at hb
    simp only [List.cons_append, List.take_succ_cons, List.take_zero]
    intro heq
    exact hb (congrArg List.head? heq)

end LineFields.Fits

namespace Line

variable {f : LineFields}

/-- **A card** is cut into the fields that were punched on it. -/
theorem ofCard_card (h : f.Fits) {sequence : Text} (hsequence : sequence.length = 5) :
    ofCard (f.card sequence) =
      { text := f.card sequence
        label := f.label
        operation := f.operation
        operands := f.operands } := by
  rw [ofCard, h.isBlank_card hsequence, h.slice_label hsequence, h.slice_operation hsequence,
    h.slice_operands hsequence, if_neg (by simpa using h.slice_star hsequence),
    Text.trimRight_append_blanks h.label_ink, Text.trimRight_append_blanks h.operation_ink,
    Text.trimLeft_of_head h.operands_head]

/-- **A row of words** is cut into the fields that it was made of. -/
theorem ofWords_words (h : f.Fits) :
    ofWords f.words =
      { text := f.words
        label := f.label
        operation := f.operation
        operands := f.operands } := by
  obtain ⟨b, rest, hop, hb⟩ := h.operation_cons
  have hgap : isInk Byte.blank = false := by decide
  have hinked : f.words.isBlank = false :=
    Text.isBlank_eq_false_of_mem (by simp [LineFields.words, hop]) hb
  have hstar : f.words.head? ≠ some '*'.toUInt8 := by
    have hhead := h.label_star
    cases hcase : f.label with
    | nil => simp [LineFields.words, hcase, Byte.blank]; decide
    | cons c label => simpa [LineFields.words, hcase] using hhead
  have hlabel : f.words.takeWhile isInk = f.label := by
    rw [LineFields.words, List.takeWhile_append_of_pos h.label_ink,
      List.takeWhile_cons_of_neg (by simp [hgap]), List.append_nil]
  have hbehind : Text.trimLeft (f.words.dropWhile isInk) =
      f.operation ++ if f.operands.isEmpty then [] else Byte.blank :: f.operands := by
    rw [LineFields.words, List.dropWhile_append_of_pos h.label_ink,
      List.dropWhile_cons_of_neg (by simp [hgap]), Text.trimLeft,
      List.dropWhile_cons_of_pos (by simp)]
    exact Text.trimLeft_of_head (by simpa [hop] using hb)
  have hoperation : (f.operation ++ if f.operands.isEmpty then [] else Byte.blank :: f.operands).takeWhile
      isInk = f.operation := by
    rw [List.takeWhile_append_of_pos h.operation_ink]
    split
    · simp
    · rw [List.takeWhile_cons_of_neg (by simp [hgap]), List.append_nil]
  have hoperands : Text.trimLeft ((f.operation ++
      if f.operands.isEmpty then [] else Byte.blank :: f.operands).dropWhile isInk) = f.operands := by
    rw [List.dropWhile_append_of_pos h.operation_ink]
    split
    · rename_i hnone
      rw [List.isEmpty_iff.mp hnone]
      rfl
    · rw [List.dropWhile_cons_of_neg (by simp [hgap]), Text.trimLeft,
        List.dropWhile_cons_of_pos (by simp)]
      exact Text.trimLeft_of_head h.operands_head
  have hnonempty : (f.operation ++ if f.operands.isEmpty then [] else Byte.blank :: f.operands).isEmpty =
      false := by simp [hop]
  rw [ofWords, hinked, if_neg (by simpa using hstar)]
  simp only [hbehind, hnonempty, hlabel, hoperation, hoperands, Bool.false_eq_true, if_false]

end Line

/-! ## Lines -/

/-- **A statement is the same line in either format**, in capitals or small letters: both texts are
cut into its label, its operation and its operands. -/
theorem tokenize_formats {f : LineFields} (h : f.Fits) {sequence : Text}
    (hlength : sequence.length = 5) (hsequence : sequence.all isSourceByte = true)
    {punched written : Text} (hpunched : punched.map Byte.toUpper = f.card sequence)
    (hwritten : written.map Byte.toUpper = f.words) (tabs : TabStops) :
    tokenize .fixed tabs punched = .ok
        { text := f.card sequence
          label := f.label
          operation := f.operation
          operands := f.operands
          comment := false
          invalid := false } ∧
      tokenize .freeform tabs written = .ok
        { text := f.words
          label := f.label
          operation := f.operation
          operands := f.operands
          comment := false
          invalid := false } := by
  have hcard := h.card_isSource hsequence
  have hwords := h.words_isSource
  have hexpand : tabs.expand f.words = .ok f.words := by
    have htab : f.words.contains Byte.tab = false := by
      refine Bool.eq_false_iff.mpr fun hmem => ?_
      have hsource := List.all_eq_true.mp hwords Byte.tab (List.contains_iff_mem.mp hmem)
      exact absurd hsource (by decide)
    rw [TabStops.expand, htab]
    rfl
  constructor
  · rw [tokenize]
    simp only [Text.toUpper_of_map hpunched hcard, hcard, if_true, Line.ofCard_card h hlength]
  · rw [tokenize]
    simp only [Text.toUpper_of_map hwritten hwords, hexpand, hwords, if_true, Line.ofWords_words h]

/-- A constant with blanks inside and behind its operands, and an instruction without a label. -/
theorem tokenize_formats_constant :
    (tokenize .fixed .default (ascii "00010MSg   dac 4,a, b  ") = .ok
        { text := ascii "00010MSG   DAC 4,A, B  "
          label := ascii "MSG"
          operation := ascii "DAC"
          operands := ascii "4,A, B  " } ∧
      tokenize .freeform .default (ascii "msg DaC 4,a, b  ") = .ok
        { text := ascii "MSG DAC 4,A, B  "
          label := ascii "MSG"
          operation := ascii "DAC"
          operands := ascii "4,A, B  " }) ∧
    (tokenize .fixed .default (ascii "     " ++ ascii "      h   ") = .ok
        { text := ascii "           H   ", operation := ascii "H" } ∧
      tokenize .freeform .default (ascii " h") = .ok
        { text := ascii " H", operation := ascii "H" }) := by
  have hconstant : LineFields.Fits ⟨ascii "MSG", ascii "DAC", ascii "4,A, B  "⟩ := by
    constructor <;> decide +kernel
  have hhalt : LineFields.Fits ⟨[], ascii "H", []⟩ := by
    constructor <;> decide +kernel
  have hnumber : (ascii "00010").length = 5 := rfl
  have hblanks : (ascii "     ").length = 5 := rfl
  exact ⟨tokenize_formats hconstant hnumber (by decide) (by decide) (by decide) _,
    tokenize_formats hhalt hblanks (by decide) (by decide) (by decide) _⟩

end SpsAssembler
