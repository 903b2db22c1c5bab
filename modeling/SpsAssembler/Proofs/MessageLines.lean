import SpsAssembler.Output.Listing
import SpsAssembler.Proofs.CoreDump
import SpsAssembler.Proofs.Deliveries

/-!
# The messages of a listing

A message stands on a line of its own behind a margin that ends in three carets. No other line of a
listing starts with that margin: a statement has its number there, a row of flags holds no caret, and
neither do the names of symbols.

* `messageMargin`, `messageLines`: the messages that a text shows, line by line;
* `Displays`: what a part of a listing adds to them, whatever follows it;
* `displays_plain`, `displays_early`: parts without a message;
* `Displayable`: programs whose texts do not run over lines;
* **`messageLines_listing`**: a listing shows the messages of its program, one line each.
-/

namespace SpsAssembler

/-- The character that points at the line above. -/
def caret : Byte := '^'.toUInt8

/-- What stands before a message. -/
def messageMargin (p : Provenance) : Text :=
  (if p.multi then ascii "  " else []) ++ Text.blanks 31 ++ ascii "^^^ "

/-- The message on a line, if there is one. -/
def message? (p : Provenance) (line : Text) : Option Text :=
  if Text.hasPrefix (messageMargin p) line then some (line.drop (messageMargin p).length) else none

/-- The messages that a text shows, line by line. -/
def messageLines (p : Provenance) (t : Text) : List Text :=
  (t.fields Byte.newline).filterMap (message? p)

/-- A part of a text shows these messages, whatever follows it. -/
def Displays (p : Provenance) (t : Text) (messages : List Text) : Prop :=
  ∀ rest, messageLines p (t ++ rest) = messages ++ messageLines p rest

variable {p : Provenance}

namespace Displays

theorem nil : Displays p [] [] := fun _ => rfl

theorem append {t u : Text} {ms ns : List Text} (h : Displays p t ms) (g : Displays p u ns) :
    Displays p (t ++ u) (ms ++ ns) := by
  intro rest
  rw [List.append_assoc, h, g, List.append_assoc]

theorem behind {t u : Text} {ns : List Text} (h : Displays p t []) (g : Displays p u ns) :
    Displays p (t ++ u) ns := h.append g

theorem flatMap {α : Type} {xs : List α} {f : α → Text} {g : α → List Text}
    (h : ∀ x ∈ xs, Displays p (f x) (g x)) : Displays p (xs.flatMap f) (xs.flatMap g) := by
  induction xs with
  | nil => exact nil
  | cons x xs ih =>
    rw [List.flatMap_cons, List.flatMap_cons]
    exact (h x List.mem_cons_self).append (ih fun y hy => h y (List.mem_cons_of_mem x hy))

theorem flatMap_none {α : Type} {xs : List α} {f : α → Text} (h : ∀ x ∈ xs, Displays p (f x) []) :
    Displays p (xs.flatMap f) [] := by
  have hall := flatMap (g := fun _ => []) h
  rwa [List.flatMap_eq_nil_iff.mpr fun _ _ => rfl] at hall

end Displays

theorem displays_line {line : Text} (h : Byte.newline ∉ line) :
    Displays p (line ++ ascii "\n") (message? p line).toList := by
  intro rest
  have hfields : (line ++ ascii "\n" ++ rest).fields Byte.newline =
      line :: rest.fields Byte.newline := by
    rw [List.append_assoc]
    exact Text.fields_append h rest
  rw [messageLines, hfields, List.filterMap_cons, messageLines]
  cases message? p line <;> rfl

/-- **A message** is shown on a line of its own. -/
theorem displays_message {d : Diagnostic Cause} (h : Byte.newline ∉ d.render) :
    Displays p (listMessage p d) [d.render] := by
  have hmargin : ∀ q : Provenance, Byte.newline ∉ messageMargin q := by
    intro q
    unfold messageMargin
    cases q.multi <;> decide
  have hread : message? p (messageMargin p ++ d.render) = some d.render := by
    rw [message?, Text.hasPrefix, if_pos (List.isPrefixOf_iff_prefix.mpr (List.prefix_append _ _)),
      List.drop_left]
  have hnewline : Byte.newline ∉ messageMargin p ++ d.render := fun hmem =>
    (List.mem_append.mp hmem).elim (hmargin p) h
  have hline := displays_line (p := p) hnewline
  rw [hread] at hline
  exact hline

theorem displays_messages {ds : List (Diagnostic Cause)} (h : ∀ d ∈ ds, Byte.newline ∉ d.render) :
    Displays p (ds.flatMap (listMessage p)) (ds.map Diagnostic.render) := by
  rw [List.map_eq_flatMap]
  exact .flatMap fun d hd => displays_message (h d hd)

/-! ## Parts without a caret -/

theorem Text.fields_append_fields (sep : Byte) (t rest : Text) :
    (t ++ sep :: rest).fields sep = t.fields sep ++ rest.fields sep := by
  induction t with
  | nil => exact Text.fields_append List.not_mem_nil rest
  | cons b t ih =>
    change pushField sep b (fields sep (t ++ sep :: rest)) = pushField sep b (fields sep t) ++ _
    rw [ih]
    obtain ⟨first, more, hfirst⟩ := List.exists_cons_of_ne_nil (fields_ne_nil sep t)
    rw [hfirst]
    by_cases hb : (b == sep) = true <;> simp [pushField, hb]

theorem Text.mem_of_mem_fields {sep b : Byte} {t field : Text} (hfield : field ∈ t.fields sep)
    (hb : b ∈ field) : b ∈ t := by
  induction t generalizing field with
  | nil =>
    rw [List.mem_singleton.mp hfield] at hb
    cases hb
  | cons c t ih =>
    change field ∈ pushField sep c (fields sep t) at hfield
    obtain ⟨first, more, hfirst⟩ := List.exists_cons_of_ne_nil (fields_ne_nil sep t)
    rw [hfirst, pushField] at hfield
    rw [hfirst] at ih
    split at hfield
    · rcases List.mem_cons.mp hfield with rfl | hfield
      · cases hb
      · exact List.mem_cons_of_mem c (ih hfield hb)
    · rcases List.mem_cons.mp hfield with rfl | hfield
      · rcases List.mem_cons.mp hb with rfl | hb
        · exact List.mem_cons_self
        · exact List.mem_cons_of_mem c (ih List.mem_cons_self hb)
      · exact List.mem_cons_of_mem c (ih (List.mem_cons_of_mem first hfield) hb)

theorem caret_mem_messageMargin (p : Provenance) : caret ∈ messageMargin p := by
  unfold messageMargin
  cases p.multi <;> decide

theorem message?_of_caret {line : Text} (h : caret ∉ line) : message? p line = none := by
  refine if_neg fun hmargin => h ?_
  exact (List.isPrefixOf_iff_prefix.mp hmargin).subset (caret_mem_messageMargin p)

/-- **Lines without a caret** show no message. -/
theorem displays_plain {t : Text} (h : caret ∉ t) : Displays p (t ++ ascii "\n") [] := by
  intro rest
  have hfields : (t ++ ascii "\n" ++ rest).fields Byte.newline =
      t.fields Byte.newline ++ rest.fields Byte.newline := by
    rw [List.append_assoc]
    exact Text.fields_append_fields Byte.newline t rest
  have hnone : (t.fields Byte.newline).filterMap (message? p) = [] := by
    refine List.filterMap_eq_nil_iff.mpr fun field hfield => message?_of_caret fun hmem => ?_
    exact h (Text.mem_of_mem_fields hfield hmem)
  rw [messageLines, hfields, List.filterMap_append, hnone]
  rfl

/-! ## Parts that start early -/

/-- Something stands where the margin of a message is blank. -/
def Text.Early (t : Text) : Prop := ∃ i b, i < 31 ∧ t[i]? = some b ∧ b ≠ Byte.blank

theorem Text.Early.append {t : Text} (h : t.Early) (u : Text) : (t ++ u).Early := by
  obtain ⟨i, b, hi, hb, hblank⟩ := h
  exact ⟨i, b, hi, by rw [List.getElem?_append_left (List.getElem?_eq_some_iff.mp hb).1, hb], hblank⟩

theorem message?_of_early {line : Text} (h : line.Early) : message? p line = none := by
  obtain ⟨i, b, hi, hb, hblank⟩ := h
  refine if_neg fun hmargin => hblank ?_
  obtain ⟨rest, rfl⟩ := List.isPrefixOf_iff_prefix.mp hmargin
  have hall : ∀ q : Provenance, ∀ i ∈ List.range 31, (messageMargin q)[i]? = some Byte.blank := by
    intro q
    unfold messageMargin
    cases q.multi <;> decide
  have hi' := hall p i (List.mem_range.mpr hi)
  rw [List.getElem?_append_left (List.getElem?_eq_some_iff.mp hi').1, hi'] at hb
  exact (Option.some.inj hb).symm

/-- **A line that starts early** shows no message. -/
theorem displays_early {line : Text} (h : Byte.newline ∉ line) (hearly : line.Early) :
    Displays p (line ++ ascii "\n") [] := by
  have hline := displays_line (p := p) h
  rwa [message?_of_early hearly] at hline

/-! ## Numbers -/

/-- The characters that numbers are written with, and the marks between them. -/
def Byte.isFigure (b : Byte) : Bool :=
  b.isDigit || b == Byte.blank || b == '-'.toUInt8 || b == ':'.toUInt8

/-- Nothing but figures. -/
def Text.Figures (t : Text) : Prop := ∀ b ∈ t, b.isFigure = true

namespace Text.Figures

variable {t u : Text}

theorem newline_notMem (h : t.Figures) : Byte.newline ∉ t := fun hmem =>
  absurd (h _ hmem) (by decide)

theorem caret_notMem (h : t.Figures) : caret ∉ t := fun hmem => absurd (h _ hmem) (by decide)

theorem append (h : t.Figures) (g : u.Figures) : (t ++ u).Figures := fun b hb =>
  (List.mem_append.mp hb).elim (h b) (g b)

theorem single {b : Byte} (hb : b.isFigure = true) : Text.Figures [b] :=
  List.forall_mem_singleton.mpr hb

theorem replicate {b : Byte} (hb : b.isFigure = true) (n : Nat) :
    Text.Figures (List.replicate n b) := fun _ hc => (List.mem_replicate.mp hc).2 ▸ hb

theorem blanks (n : Nat) : (Text.blanks n).Figures := replicate (by decide) n

theorem ofNat (n : Nat) : (Text.ofNat n).Figures := fun b hb => by
  simp [Byte.isFigure, Text.isDigit_ofNat n b hb]

theorem ofWord (w : Word) : (Text.ofWord w).Figures := by
  unfold Text.ofWord Text.ofInt
  split
  · exact append (single (by decide)) (ofNat _)
  · exact ofNat _

theorem zeroPadded (n : Nat) (w : Word) : (Text.zeroPadded n w).Figures := by
  have hzeros : ∀ k, Text.Figures (List.replicate k '0'.toUInt8) := replicate (by decide)
  unfold Text.zeroPadded
  dsimp only
  split
  · exact append (single (by decide)) ((hzeros _).append (ofNat _))
  · exact (hzeros _).append (ofNat _)

theorem padLeft (h : t.Figures) (n : Nat) : (t.padLeft n).Figures := (blanks _).append h

theorem padRight (h : t.Figures) (n : Nat) : (t.padRight n).Figures := h.append (blanks _)

theorem lineNumber (p : Provenance) (key : Word) : (p.lineNumber key).Figures := by
  unfold Provenance.lineNumber
  dsimp only
  split
  · exact append (append (padLeft (ofWord _) 2) (single (by decide))) (padRight (ofWord _) 4)
  · exact padLeft (ofWord _) 7

end Text.Figures

theorem Text.early_blanks {t : Text} {n : Nat} (hn : n < 31) {b : Byte} (hhead : t.head? = some b)
    (hb : b ≠ Byte.blank) : (Text.blanks n ++ t).Early := by
  refine ⟨n, b, hn, ?_, hb⟩
  have hlength : (Text.blanks n).length = n := List.length_replicate
  rw [List.getElem?_append_right (by omega), hlength, Nat.sub_self, ← List.head?_eq_getElem?, hhead]

theorem Text.head?_ofNat (n : Nat) : ∃ b, (ofNat n).head? = some b ∧ b ≠ Byte.blank := by
  obtain ⟨b, rest, h⟩ := List.exists_cons_of_ne_nil (ofNat_ne_nil n)
  have hb : b.isDigit = true := isDigit_ofNat n b (by rw [h]; exact List.mem_cons_self)
  refine ⟨b, by rw [h]; rfl, ?_⟩
  rintro rfl
  cases hb

theorem Text.head?_ofWord (w : Word) : ∃ b, (ofWord w).head? = some b ∧ b ≠ Byte.blank := by
  unfold ofWord ofInt
  split
  · exact ⟨_, rfl, by decide⟩
  · exact head?_ofNat _

theorem early_lineNumber (p : Provenance) (key : Word) : (p.lineNumber key).Early := by
  unfold Provenance.lineNumber
  dsimp only
  split
  · obtain ⟨b, hhead, hb⟩ := Text.head?_ofWord (splitLineKey key).1
    exact ((Text.early_blanks (by omega) hhead hb).append _).append _
  · obtain ⟨b, hhead, hb⟩ := Text.head?_ofWord (splitLineKey key).2
    exact Text.early_blanks (by omega) hhead hb

/-! ## Statements -/

theorem notMem_cellText {conv : Cell → Byte} {b : Byte} (hblank : b ≠ Byte.blank)
    (hconv : ∀ c, b ≠ conv c) (gaps : List Nat) (n : Nat) (v : Value) :
    b ∉ cellText conv gaps n v := by
  intro hmem
  obtain ⟨i, -, hi⟩ := List.mem_flatMap.mp hmem
  rcases List.mem_append.mp hi with hi | hi
  · split at hi
    · exact hblank (List.mem_singleton.mp hi)
    · cases hi
  · exact hconv _ (List.mem_singleton.mp hi)

theorem notMem_dataText {conv : Cell → Byte} {ellipsis : String} {b : Byte}
    (hellipsis : b ∉ ascii ellipsis) (hconv : ∀ c, b ≠ conv c) (v : Value) :
    b ∉ dataText conv ellipsis v := by
  have hmap : ∀ v : Value, b ∉ v.map conv := by
    intro v hmem
    obtain ⟨c, -, hc⟩ := List.mem_map.mp hmem
    exact hconv c hc.symm
  unfold dataText
  split
  · exact hmap v
  · simp only [List.mem_append, not_or]
    exact ⟨⟨hmap _, hellipsis⟩, hmap _⟩

theorem newline_ne_listChar : ∀ c : Cell, Byte.newline ≠ listChar c := forall_cell (by decide +kernel)

theorem caret_ne_flagChar : ∀ c : Cell, caret ≠ flagChar c := forall_cell (by decide +kernel)

theorem displays_flagLine {flags : Text} (h : caret ∉ flags) (width : Nat) :
    Displays p (flagLine width flags) [] := by
  unfold flagLine
  split
  · exact .nil
  · refine displays_plain ?_
    rw [Text.padRight]
    simp only [List.mem_append, not_or]
    refine ⟨(Text.Figures.blanks 15).caret_notMem, ?_, (Text.Figures.blanks _).caret_notMem⟩
    exact fun hmem => h (Text.mem_of_mem_trimRight hmem)

variable {o : Outcome}

theorem newline_notMem_formatted (h : o.statement.line.OneLine) : Byte.newline ∉ formatted p o := by
  have htext : Byte.newline ∉ o.statement.line.text := by
    simp only [Line.OneLine, Line.bytes, List.mem_append, not_or] at h
    exact h.1.1.1
  have hcolumn : ∀ i j width, Byte.newline ∉ (o.statement.line.text.slice i j).padRight width :=
    fun i j width => Text.newline_notMem_padRight (fun hmem => htext (Text.mem_of_mem_slice hmem)) width
  have hdrop : ∀ i, Byte.newline ∉ o.statement.line.text.drop i := fun i hmem =>
    htext (List.mem_of_mem_drop hmem)
  have hgaps : Byte.newline ∉ ascii " " ∧ Byte.newline ∉ ascii "  " := by decide
  unfold formatted
  dsimp only
  split
  · exact fun hmem => htext (Text.mem_of_mem_trimRight hmem)
  · split <;> intro hmem <;> have hmem := Text.mem_of_mem_trimRight hmem <;>
      simp [hcolumn, hdrop, hgaps] at hmem

theorem displays_formatted (h : o.statement.line.OneLine) {front : Text} (hearly : front.Early)
    (hfront : Byte.newline ∉ front) : Displays p (front ++ (formatted p o ++ ascii "\n")) [] := by
  rw [← List.append_assoc]
  refine displays_early (fun hmem => ?_) (hearly.append _)
  exact (List.mem_append.mp hmem).elim hfront (newline_notMem_formatted h)

theorem newline_notMem_fiveDigits (w : Word) : Byte.newline ∉ fiveDigits w :=
  (Text.Figures.zeroPadded 5 w).newline_notMem

theorem newline_notMem_lineNumber (p : Provenance) (key : Word) : Byte.newline ∉ p.lineNumber key :=
  (Text.Figures.lineNumber p key).newline_notMem

theorem newline_notMem_blanks (n : Nat) : Byte.newline ∉ Text.blanks n :=
  (Text.Figures.blanks n).newline_notMem

theorem newline_notMem_gaps :
    Byte.newline ∉ ascii " " ∧ Byte.newline ∉ ascii "  " ∧ Byte.newline ∉ ascii "    " := by
  decide

/-- A statement with its cells shows no message. Its row of flags is a line of its own. -/
theorem displays_cells (h : o.statement.line.OneLine) {flags cells : Text} (hflags : caret ∉ flags)
    (hcells : Byte.newline ∉ cells) (width fill : Nat) :
    Displays p (flagLine width flags ++ p.lineNumber o.statement.line.number ++ ascii "  " ++
      fiveDigits o.placement.address ++ ascii " " ++ cells ++ Text.blanks fill ++
      (formatted p o ++ ascii "\n")) [] := by
  have hsplit : ∀ (flags number gap address gap' cells fill text : Text),
      flags ++ number ++ gap ++ address ++ gap' ++ cells ++ fill ++ text =
        flags ++ (number ++ gap ++ address ++ gap' ++ cells ++ fill ++ text) := by
    intros
    simp only [List.append_assoc]
  have hearly := early_lineNumber p o.statement.line.number
  rw [hsplit]
  refine (displays_flagLine hflags width).behind (displays_formatted h ?_ ?_)
  · exact ((((hearly.append _).append _).append _).append _).append _
  · simp [newline_notMem_lineNumber, newline_notMem_fiveDigits, newline_notMem_blanks,
      newline_notMem_gaps, hcells]

/-- **A statement** shows no message. -/
theorem displays_statement (h : o.statement.line.OneLine) : Displays p (listStatement p o) [] := by
  have hearly := early_lineNumber p o.statement.line.number
  have hcells : ∀ n width gaps fill, Displays p
      (flagLine width (cellText flagChar gaps n o.value) ++ p.lineNumber o.statement.line.number ++
        ascii "  " ++ fiveDigits o.placement.address ++ ascii " " ++
        (cellText listChar gaps n o.value).padRight width ++ Text.blanks fill ++
        (formatted p o ++ ascii "\n")) [] := fun n width gaps fill =>
    displays_cells h (notMem_cellText (by decide) caret_ne_flagChar gaps n _)
      (Text.newline_notMem_padRight (notMem_cellText (by decide) newline_ne_listChar gaps n _) width)
      width fill
  unfold listStatement
  dsimp only
  cases o.shape with
  | unknown | comment | control =>
    exact displays_formatted h (hearly.append _)
      (by simp [newline_notMem_lineNumber, newline_notMem_blanks])
  | address =>
    exact displays_formatted h (((hearly.append _).append _).append _) (by
      simp [newline_notMem_lineNumber, newline_notMem_blanks, newline_notMem_fiveDigits,
        newline_notMem_gaps])
  | instruction => exact hcells 12 14 [2, 7] 2
  | short2 => exact hcells 2 2 [] 14
  | short7 => exact hcells 7 8 [2] 8
  | data =>
    exact displays_cells h (notMem_dataText (by decide) caret_ne_flagChar _)
      (Text.newline_notMem_padRight (notMem_dataText (by decide) newline_ne_listChar _) 14) 14 2
  | reserve1 =>
    exact displays_formatted h (((((hearly.append _).append _).append _).append _).append _) (by
      simp [newline_notMem_lineNumber, newline_notMem_blanks, newline_notMem_fiveDigits,
        newline_notMem_gaps])
  | reserve2 =>
    exact displays_formatted h
      (((((((hearly.append _).append _).append _).append _).append _).append _).append _)
      (by simp [newline_notMem_lineNumber, newline_notMem_fiveDigits, newline_notMem_gaps])

/-! ## Lines -/

theorem displays_empty : Displays p (ascii "\n") [] := displays_plain (t := []) List.not_mem_nil

section Files

variable (hfiles : ∀ name ∈ p.files, Byte.newline ∉ name)

include hfiles

theorem displays_fileBanner (number : Nat) : Displays p (fileBanner p number) [] := by
  have hname : Byte.newline ∉ p.files.getD (number - 1) [] := by
    rw [List.getD_eq_getElem?_getD]
    cases hget : p.files[number - 1]? with
    | none => exact List.not_mem_nil
    | some name => exact hfiles name (List.mem_of_getElem? hget)
  have hnumber := (Text.Figures.ofNat number).newline_notMem
  have hrule : Byte.newline ∉ List.replicate 50 '-'.toUInt8 := by decide
  have hmarks : Byte.newline ∉ ascii "  ------ " ∧ Byte.newline ∉ ascii ": " ∧
      Byte.newline ∉ ascii " " := by decide
  have hsplit : fileBanner p number = ascii "\n" ++ ((ascii "  ------ " ++ (Text.ofNat number ++
      ascii ": " ++ p.files.getD (number - 1) [] ++ ascii " " ++ List.replicate 50 '-'.toUInt8)) ++
      ascii "\n") ++ ascii "\n" := by
    have hopening : ascii "\n  ------ " = ascii "\n" ++ ascii "  ------ " := by decide
    have hclosing : ascii "\n\n" = ascii "\n" ++ ascii "\n" := by decide
    rw [fileBanner, hopening, hclosing]
    simp only [List.append_assoc]
  rw [hsplit]
  refine (displays_empty.behind (displays_early ?_ ?_)).behind displays_empty
  · simp only [List.mem_append, not_or]
    exact ⟨hmarks.1, ⟨⟨⟨hnumber, hmarks.2.1⟩, hname⟩, hmarks.2.2⟩, hrule⟩
  · exact Text.Early.append ⟨2, '-'.toUInt8, by decide, by decide, by decide⟩ _

theorem displays_fileBanners (shown upTo : Nat) : Displays p (fileBanners p shown upTo) [] := by
  unfold fileBanners
  split
  · exact .flatMap_none fun k _ => displays_fileBanner hfiles _
  · exact .nil

theorem displays_listFiles : Displays p (listFiles p) [] := by
  unfold listFiles
  split
  · refine (displays_plain (by decide)).behind (.flatMap_none fun ⟨file, i⟩ hmem => ?_)
    have hfile := hfiles file (List.mem_zipIdx' hmem |>.2 ▸ List.getElem_mem _)
    obtain ⟨b, hhead, hb⟩ := Text.head?_ofNat (i + 1)
    have hnumber := ((Text.Figures.ofNat (i + 1)).padLeft 2).newline_notMem
    have hgap : Byte.newline ∉ ascii "  " := by decide
    refine displays_early (by simp [hnumber, hgap, hfile]) (Text.Early.append (.append ?_ _) _)
    have hindent : ascii "  " ++ (Text.ofNat (i + 1)).padLeft 2 =
        Text.blanks (2 + (2 - (Text.ofNat (i + 1)).width)) ++ Text.ofNat (i + 1) := by
      have hgap' : ascii "  " = Text.blanks 2 := by decide
      rw [hgap', Text.padLeft, ← List.append_assoc, Text.blanks, Text.blanks,
        List.replicate_append_replicate]
      rfl
    rw [hindent]
    exact Text.early_blanks (by omega) hhead hb
  · exact .nil

end Files

theorem displays_lines (hfiles : ∀ name ∈ p.files, Byte.newline ∉ name) (outcomes : List Outcome)
    (hlines : ∀ o ∈ outcomes, o.statement.line.OneLine)
    (hmessages : ∀ o ∈ outcomes, ∀ d ∈ o.diagnostics, Byte.newline ∉ d.render) (shown : Nat) :
    Displays p (listLines p shown outcomes)
      (outcomes.flatMap fun o => o.diagnostics.map Diagnostic.render) := by
  induction outcomes generalizing shown with
  | nil => exact displays_fileBanners hfiles shown _
  | cons o rest ih =>
    obtain ⟨hline, hlines⟩ := List.forall_mem_cons.mp hlines
    obtain ⟨hmessage, hmessages⟩ := List.forall_mem_cons.mp hmessages
    have hbelow : Displays p (listLine p o) (o.diagnostics.map Diagnostic.render) :=
      (displays_statement hline).behind (displays_messages hmessage)
    rw [List.flatMap_cons]
    exact ((displays_fileBanners hfiles shown _).behind hbelow).append (ih hlines hmessages _)

/-! ## Symbols -/

theorem caret_notMem_listReferences (p : Provenance) (n : Nat) (keys : List Word) :
    caret ∉ listReferences p n keys := by
  induction keys generalizing n with
  | nil => exact List.not_mem_nil
  | cons key rest ih =>
    have hnumber := ((Text.Figures.lineNumber p key).padLeft 7).caret_notMem
    have hindent := (Text.Figures.blanks 33).caret_notMem
    have hgaps : caret ∉ ascii "  " ∧ caret ∉ ascii "\n" := by decide
    unfold listReferences
    dsimp only
    split <;> simp [hnumber, hindent, hgaps, ih]

theorem displays_symbol {s : Symbol} (h : caret ∉ s.name) : Displays p (listSymbol p s) [] := by
  have hname : caret ∉ s.name.padRight 7 := by
    simp [Text.padRight, h, (Text.Figures.blanks _).caret_notMem]
  have hkind : caret ∉ (ascii s.kind.name).padRight 6 := by
    have hall : ∀ k : Kind, caret ∉ ascii k.name := by
      intro k
      cases k <;> decide
    simp [Text.padRight, hall, (Text.Figures.blanks _).caret_notMem]
  have hdefined : caret ∉ Text.padLeft (if s.isResolved then p.lineNumber s.defined else []) 7 := by
    refine (Text.Figures.padLeft ?_ 7).caret_notMem
    split
    · exact Text.Figures.lineNumber p _
    · exact nofun
  have haddress : caret ∉ fiveDigits s.address := (Text.Figures.zeroPadded 5 _).caret_notMem
  have hgap : caret ∉ ascii "  " := by decide
  refine displays_plain ?_
  simp only [List.mem_append, not_or]
  exact ⟨⟨⟨⟨⟨⟨⟨⟨hgap, hname⟩, hgap⟩, haddress⟩, hgap⟩, hkind⟩, hgap⟩, hdefined⟩,
    caret_notMem_listReferences p 0 _⟩

theorem displays_crossReference (hfiles : ∀ name ∈ p.files, Byte.newline ∉ name)
    {symbols : SymbolTable} (hnames : ∀ s ∈ symbols.symbols, caret ∉ s.name) :
    Displays p (crossReference p symbols) [] := by
  have hsplit : crossReference p symbols =
      (ascii "\x0c\n" ++ Text.blanks 33 ++ ascii "Symbol Cross-Reference Table\n" ++ Text.blanks 33 ++
        ascii "============================" ++ ascii "\n") ++ listFiles p ++
      (ascii "\n\n  Symbol   Addr.  Type    Defined  References\n" ++
        ascii "  -------  -----  ------  -------  " ++ List.replicate 61 '-'.toUInt8 ++ ascii "\n") ++
      symbols.sorted.flatMap (listSymbol p) := by
    have hrule : ascii "============================\n" =
        ascii "============================" ++ ascii "\n" := by decide
    simp only [crossReference, hrule, List.append_assoc]
  rw [hsplit]
  refine (((displays_plain ?_).behind (displays_listFiles hfiles)).behind (displays_plain ?_)).behind
    (.flatMap_none fun s hs => displays_symbol (hnames s (List.mem_mergeSort.mp hs)))
  · decide
  · decide

/-! ## The listing -/

/-- A program whose lines and messages do not run over several lines, and whose names hold no caret. -/
structure Program.Displayable (program : Program) : Prop where
  lines : ∀ o ∈ program.outcomes, o.statement.line.OneLine
  names : ∀ s ∈ program.symbols.symbols, caret ∉ s.name
  messages : ∀ d ∈ program.messages, Byte.newline ∉ d.render

theorem displays_heading (hfiles : ∀ name ∈ p.files, Byte.newline ∉ name) :
    Displays p (productName ++ ascii "    Source: " ++ p.sourceList ++ ascii "    Assembled: " ++
      p.stamp.render ++ ascii "\n\n") [] := by
  have hproduct : Byte.newline ∉ productName := by decide
  have htitles : Byte.newline ∉ ascii "    Source: " ∧ Byte.newline ∉ ascii "    Assembled: " := by decide
  have hclosing : ascii "\n\n" = ascii "\n" ++ ascii "\n" := by decide
  have hearly : productName.Early := ⟨0, 'I'.toUInt8, by decide, by decide, by decide⟩
  rw [hclosing, ← List.append_assoc]
  refine (displays_early ?_ ?_).behind displays_empty
  · simp [hproduct, htitles, Provenance.newline_notMem_sourceList hfiles, p.stamp.newline_notMem_render]
  · exact (((hearly.append _).append _).append _).append _

/-- **A listing shows the messages of its program**, one line each. -/
theorem messageLines_listing {program : Program} (h : program.Displayable)
    (hfiles : ∀ name ∈ p.files, Byte.newline ∉ name) :
    messageLines p (listing p program) = program.messages.map Diagnostic.render := by
  have hlisted : ∀ o ∈ program.outcomes, ∀ d ∈ o.diagnostics, Byte.newline ∉ d.render :=
    fun o ho d hd => h.messages d (List.mem_append_left _ (List.mem_flatMap.mpr ⟨o, ho, hd⟩))
  have htrailing : ∀ d ∈ program.trailing, Byte.newline ∉ d.render := fun d hd =>
    h.messages d (List.mem_append_right _ hd)
  have hlines := (displays_heading hfiles).behind (displays_lines hfiles _ h.lines hlisted 0)
  have hbody := (hlines.append (displays_messages htrailing)).append
    (displays_crossReference hfiles h.names)
  have hall := hbody []
  have hnone : messageLines p [] = [] := by
    have hempty : message? p [] = none := message?_of_caret List.not_mem_nil
    simp [messageLines, Text.fields, hempty]
  rw [List.append_nil, hnone, List.append_nil, List.append_nil] at hall
  rw [Program.messages, List.map_append, List.map_flatMap]
  exact hall

end SpsAssembler
