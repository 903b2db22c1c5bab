import SpsAssembler.Proofs.HeadNames
import SpsAssembler.Proofs.MessageLines
import SpsAssembler.Proofs.SymbolNames

/-!
# What messages quote

A message quotes a part of the line that it is about, or the key of a symbol. A key has the
characters of labels, perhaps with a head and the mark behind it in front; whatever a line refers to,
no other character gets into the symbol table.

* `Cause.quoted`, **`Cause.newline_notMem_message`**: the text that a message quotes;
* `isKeyByte`, `Text.Spelled`: the characters of keys;
* **`referenceKey_spelled`**: the key that a name stands for;
* `SymbolTable.Spelled`, **`evaluateIn_spelled`**: evaluating operands enters such keys only;
* `Quotable`: a sort of texts that has the keys, and with a text the parts of it;
* **`quotable_newline`**: the texts without an end of line.
-/

namespace SpsAssembler

/-- The text of the source that a message quotes. -/
def Cause.quoted : Cause → Text
  | invalidNumericOperation t | invalidOperation t | needsModel2 t | invalidOperand t
  | indexNotSupported t | invalidIndex t | invalidLabel t | duplicateLabel t | invalidSymbol t
  | invalidSymbolHead t | undefinedSymbol t | forwardReference t | unexpectedLabel t | invalidHead t
  | unsupportedControl t | invalidConstant t | invalidFlags t | pIgnored t | qIgnored t | qOverrides t
  | unreadable t => t
  | _ => []

namespace Cause

variable {c : Cause}

theorem newline_notMem_about {phrase : String} {subject : Text} (hphrase : Byte.newline ∉ ascii phrase)
    (h : Byte.newline ∉ subject) : Byte.newline ∉ about phrase subject := by
  have hbrackets : Byte.newline ∉ ascii " (" ∧ Byte.newline ∉ ascii ")" := by decide
  simp [about, hphrase, h, hbrackets]

theorem newline_notMem_beyond {phrase : String} (hphrase : Byte.newline ∉ ascii phrase) (limit : Nat) :
    Byte.newline ∉ beyond phrase limit := by
  have hgap : Byte.newline ∉ ascii " " := by decide
  simp [beyond, hphrase, hgap, Text.newline_notMem_ofNat]

theorem newline_notMem_notInRange {what : String} (hwhat : Byte.newline ∉ ascii what) (limit : Nat)
    (value : Word) : Byte.newline ∉ notInRange what limit value := by
  have hrange : Byte.newline ∉ ascii " not in range 1 - " := by decide
  have hvalue : Byte.newline ∉ about "" (Text.ofWord value) :=
    newline_notMem_about (by decide) (Text.Figures.ofWord value).newline_notMem
  simp [notInRange, hwhat, hrange, hvalue, Text.newline_notMem_ofNat]

/-- **A message** runs over several lines only if what it quotes does. -/
theorem newline_notMem_message (h : Byte.newline ∉ c.quoted) : Byte.newline ∉ c.message := by
  have hword : ∀ w, Byte.newline ∉ Text.ofWord w := fun w => (Text.Figures.ofWord w).newline_notMem
  cases c with
  | tooManyOperands limit =>
    have hparts : Byte.newline ∉ ascii "more than " ∧ Byte.newline ∉ ascii " operands" := by decide
    simp [message, hparts, Text.newline_notMem_ofNat]
  | indexNotSupported index =>
    have hphrase : Byte.newline ∉ ascii "indexing not supported " := by decide
    exact fun hmem => (List.mem_append.mp hmem).elim hphrase h
  | invalidIndex index =>
    have hphrase : Byte.newline ∉ ascii "invalid index " := by decide
    exact fun hmem => (List.mem_append.mp hmem).elim hphrase h
  | invalidNumericOperation | invalidOperation | needsModel2 | invalidOperand | invalidLabel
  | duplicateLabel | invalidSymbol | invalidSymbolHead | undefinedSymbol | forwardReference
  | unexpectedLabel | invalidHead | unsupportedControl | invalidConstant | invalidFlags | pIgnored
  | qIgnored | qOverrides | unreadable => exact newline_notMem_about (by decide +kernel) h
  | addressNotPositive | addressNotEven | addressNotOdd | addressTooLarge | valueNotPositive
  | valueTooLarge | cannotStore | bitAddressTooLarge =>
    exact newline_notMem_about (by decide +kernel) (hword _)
  | constantTooLong | totalTooLong | powerTooLarge | sectorTooLarge | sectorCountTooLarge =>
    exact newline_notMem_beyond (by decide +kernel) _
  | skipOutOfRange | spaceOutOfRange => exact newline_notMem_notInRange (by decide +kernel) _ _
  | _ => decide +kernel

end Cause

theorem Diagnostic.newline_notMem_render {d : Diagnostic Cause} (h : Byte.newline ∉ d.cause.quoted) :
    Byte.newline ∉ d.render := by
  have hseverity : Byte.newline ∉ ascii d.severity.name := by
    cases d.severity <;> decide
  have hcolon : Byte.newline ∉ ascii ": " := by decide
  simp [Diagnostic.render, hseverity, hcolon, Cause.newline_notMem_message h]

/-! ## Names -/

/-- A character of the key of a symbol. -/
def isKeyByte (b : Byte) : Bool := isNameByte true b || isHead b || b == headMark

theorem isKeyByte_spec : ∀ b : Byte, isKeyByte b = true →
    Glyph.encode b.toNat = [b] ∧ b ≠ Byte.newline ∧ b ≠ caret := forall_cell (by decide +kernel)

theorem isKeyByte_of_isNameByte {divide : Bool} : ∀ b : Byte, isNameByte divide b = true →
    isKeyByte b = true := by
  cases divide <;> exact forall_cell (by decide +kernel)

/-- Nothing but characters of keys. -/
def Text.Spelled (t : Text) : Prop := ∀ b ∈ t, isKeyByte b = true

namespace Text.Spelled

variable {t u : Text} {b : Byte}

theorem nil : Text.Spelled [] := nofun

theorem cons (hb : isKeyByte b = true) (h : t.Spelled) : Text.Spelled (b :: t) :=
  List.forall_mem_cons.mpr ⟨hb, h⟩

theorem subset (h : u.Spelled) (hsub : t ⊆ u) : t.Spelled := fun b hb => h b (hsub hb)

theorem encode (hb : isKeyByte b = true) : Text.Spelled (Glyph.encode b.toNat) := by
  rw [(isKeyByte_spec b hb).1]
  exact cons hb nil

theorem newline_notMem (h : t.Spelled) : Byte.newline ∉ t := fun hmem =>
  (isKeyByte_spec _ (h _ hmem)).2.1 rfl

theorem caret_notMem (h : t.Spelled) : caret ∉ t := fun hmem => (isKeyByte_spec _ (h _ hmem)).2.2 rfl

end Text.Spelled

section Names

variable {divide : Bool} {head : Byte} {name key : Text}

theorem isKeyByte_of_isHead (h : isHead head = true) : isKeyByte head = true := by
  simp [isKeyByte, h]

theorem spelled_of_isName {limit : Nat} (h : isName divide limit name = true) : name.Spelled := by
  simp only [isName, Bool.and_eq_true] at h
  exact fun b hb => isKeyByte_of_isNameByte b (List.all_eq_true.mp h.2 b hb)

theorem spelled_of_isHeadedName (h : isHeadedName divide name = true) : name.Spelled := by
  have hmark : isKeyByte headMark = true := by decide
  cases name with
  | nil => exact .nil
  | cons b rest =>
    rw [isHeadedName.eq_def] at h
    dsimp only at h
    split at h
    · rename_i hb
      rw [beq_iff_eq.mp hb]
      exact .cons hmark (spelled_of_isName h)
    · obtain ⟨hb, hrest⟩ := Bool.and_eq_true_iff.mp h
      have hbyte : isNameByte true b = true := by
        rcases Bool.or_eq_true_iff.mp hb with hb | hb <;> simp [isNameByte, hb]
      refine .cons (isKeyByte_of_isNameByte b hbyte) ?_
      cases rest with
      | nil => exact .nil
      | cons m rest =>
        obtain ⟨hm, hname⟩ := Bool.and_eq_true_iff.mp hrest
        rw [beq_iff_eq.mp hm]
        exact .cons hmark (spelled_of_isName hname)

theorem spelled_of_isSymbol (h : isSymbol divide name = true) : name.Spelled := by
  simp only [isSymbol, Bool.and_eq_true, Bool.or_eq_true] at h
  exact h.1.elim spelled_of_isName spelled_of_isHeadedName

theorem spelled_headKey (hhead : isHead head = true) (h : name.Spelled) :
    (headKey head name).Spelled := by
  unfold headKey
  split
  · intro b hb
    rcases List.mem_append.mp hb with hb | hb
    · exact Text.Spelled.encode (isKeyByte_of_isHead hhead) b hb
    · exact Text.Spelled.cons (by decide) h b hb
  · exact h

/-- **The key that a name stands for** has characters of keys, and so has what is said about a name
that stands for none. -/
theorem referenceKey_spelled (hhead : isHead head = true) (h : name.Spelled) :
    (∀ key, referenceKey divide head name = .ok key → key.Spelled) ∧
      ∀ c, referenceKey divide head name = .error c → c.quoted.Spelled := by
  have hbefore : name.takeWhile (· != headMark) ⊆ name := (List.takeWhile_prefix _).subset
  have hbehind : name.dropWhile (· != headMark) ⊆ name := (List.dropWhile_suffix _).subset
  unfold referenceKey
  split
  · split
    · exact ⟨by rintro _ ⟨⟩; exact spelled_headKey hhead h, nofun⟩
    · exact ⟨nofun, by rintro _ ⟨⟩; exact h⟩
  · rename_i hrest
    rw [hrest] at hbehind
    exact ⟨by rintro _ ⟨⟩; exact h.subset fun b hb => hbehind (List.mem_cons_of_mem _ hb), nofun⟩
  · rename_i first mark rest hfirst hrest
    rw [hrest] at hbehind
    rw [hfirst] at hbefore
    split
    · refine ⟨nofun, ?_⟩
      rintro _ ⟨⟩
      exact .encode (h _ (hbefore (List.mem_singleton_self _)))
    · split
      · refine ⟨nofun, ?_⟩
        rintro _ ⟨⟩
        exact h.subset fun b hb => hbehind (List.mem_cons_of_mem _ hb)
      · exact ⟨by rintro _ ⟨⟩; exact h, nofun⟩
  · exact ⟨nofun, by rintro _ ⟨⟩; exact h.subset hbefore⟩

end Names

/-! ## Tables -/

namespace SymbolTable

variable {t : SymbolTable} {s : Symbol}

/-- The symbols of the table have characters of keys. -/
def Spelled (t : SymbolTable) : Prop := ∀ name ∈ t.symbols.map Symbol.name, name.Spelled

theorem Spelled.referTo (h : t.Spelled) (key : Text) (line : Word) : (t.referTo key line).Spelled := by
  unfold Spelled
  rwa [names_referTo]

theorem Spelled.enter (h : t.Spelled) (hs : s.name.Spelled) : (t.enter s).Spelled := by
  unfold Spelled SymbolTable.enter
  rw [List.map_append]
  intro name hname
  rcases List.mem_append.mp hname with hname | hname
  · exact h name hname
  · rwa [List.mem_singleton.mp hname]

theorem Spelled.lookup (h : t.Spelled) {head : Byte} (hhead : isHead head = true) {name : Text}
    (hname : name.Spelled) (line : Word) (ordered entering : Bool) :
    (t.lookup name line ordered head entering).table.Spelled := by
  rcases t.lookup_cases name line ordered head entering with ⟨ht, -⟩ | ⟨key, ht, -, hkey⟩ <;> rw [ht]
  · exact h
  · rcases t.resolve_table key line ordered entering with ht | ht | ⟨-, -, ht⟩ <;> rw [ht]
    · exact h
    · exact h.referTo key line
    · exact h.enter ((referenceKey_spelled hhead hname).1 key hkey)

theorem Spelled.define (h : t.Spelled) {head : Byte} (hhead : isHead head = true) (name : Text)
    (address : Word) (kind : Kind) (line : Word) :
    (t.define name address kind line head).1.Spelled := by
  rcases t.define_cases name address kind line head with ⟨hd, -⟩ | ⟨c, hd⟩ | ⟨hd, hlabel, -⟩
  · rw [hd]
    exact h
  · rw [hd]
    exact h
  · rw [hd]
    exact h.enter (spelled_headKey hhead (spelled_of_isSymbol (isSymbol_of_isLabel hlabel)))

end SymbolTable

theorem evaluateIn_spelled {scope : Scope} {t : SymbolTable} (h : t.Spelled)
    (hhead : isHead scope.head = true) (usage : Usage) (operand : Text) :
    (evaluateIn scope usage t operand).table.Spelled :=
  evaluateIn_keeps operand
    (fun _ _ hsymbol hu => hu.lookup hhead (spelled_of_isSymbol hsymbol) _ _ _) h

/-! ## Texts that may be quoted -/

/-- A sort of texts that has all keys, and with a text its parts, with or without the blanks in
them. -/
structure Quotable (Q : Text → Prop) : Prop where
  spelled : ∀ {t}, t.Spelled → Q t
  part : ∀ {t u}, t ⊆ u → Q u → Q t
  strip : ∀ {t}, Q t → Q t.strip

theorem Quotable.nil {Q : Text → Prop} (hQ : Quotable Q) : Q [] := hQ.spelled .nil

/-- A character is an ASCII byte of the text, or it has none in its code. -/
theorem Glyph.code_read (b : Byte) (rest : Text) :
    (b < 0x80 ∧ (Glyph.read b rest).1.code = b.toNat) ∨
      (0x80 ≤ (Glyph.read b rest).1.code ∧ (Glyph.read b rest).1.code < 0x110000) := by
  have hstray : 0x80 ≤ (Glyph.stray b).code ∧ (Glyph.stray b).code < 0x110000 := by
    simp [code, replacement]
  have hpayload : ∀ c : Byte, payload c < 0x40 := fun c => Nat.mod_lt _ (by decide)
  unfold read
  simp only [UInt8.lt_iff_toNat_lt, UInt8.reduceToNat]
  split
  · rename_i hb
    exact .inl ⟨hb, rfl⟩
  right
  split
  · exact hstray
  split
  · split
    · rename_i c _
      have hc := hpayload c
      split
      · simp only [code]
        omega
      · exact hstray
    · exact hstray
  split
  · split
    · rename_i c d _
      have hc := hpayload c
      have hd := hpayload d
      split
      · rename_i hcode
        simp only [Bool.and_eq_true, decide_eq_true_eq] at hcode
        simp only [code]
        omega
      · exact hstray
    · exact hstray
  split
  · split
    · split
      · rename_i hcode
        simp only [Bool.and_eq_true, decide_eq_true_eq] at hcode
        simp only [code]
        omega
      · exact hstray
    · exact hstray
  · exact hstray

theorem Glyph.le_of_mem_encode {c : Nat} (hlow : 0x80 ≤ c) (hhigh : c < 0x110000) {b : Byte}
    (hb : b ∈ encode c) : 0x80 ≤ b := by
  have hbyte : ∀ n : Nat, 0x80 ≤ n → n < 0x100 → (0x80 : Byte) ≤ n.toUInt8 := by
    intro n hn hn'
    have hvalue : n.toUInt8.toNat = n := Nat.mod_eq_of_lt hn'
    rw [UInt8.le_iff_toNat_le, hvalue]
    exact hn
  unfold encode at hb
  split at hb
  · omega
  split at hb
  · simp only [List.mem_cons, List.not_mem_nil, or_false] at hb
    rcases hb with rfl | rfl <;> exact hbyte _ (by omega) (by omega)
  split at hb
  · simp only [List.mem_cons, List.not_mem_nil, or_false] at hb
    rcases hb with rfl | rfl | rfl <;> exact hbyte _ (by omega) (by omega)
  · simp only [List.mem_cons, List.not_mem_nil, or_false] at hb
    rcases hb with rfl | rfl | rfl | rfl <;> exact hbyte _ (by omega) (by omega)

theorem Text.mem_of_mem_encode {t : Text} {r : Glyph} {b : Byte} (hr : r ∈ t.glyphs)
    (hb : b ∈ Glyph.encode r.code) (hascii : b < 0x80) : b ∈ t := by
  fun_induction glyphs t with
  | case1 => cases hr
  | case2 c rest ih =>
    rcases List.mem_cons.mp hr with rfl | hr
    · rcases Glyph.code_read c rest with ⟨hc, hcode⟩ | ⟨hlow, hhigh⟩
      · rw [hcode, Glyph.encode, if_pos (by simpa [UInt8.lt_iff_toNat_lt] using hc)] at hb
        rw [List.mem_singleton.mp hb, show c.toNat.toUInt8 = c from UInt8.ofNat_toNat]
        exact List.mem_cons_self
      · exact absurd (Glyph.le_of_mem_encode hlow hhigh hb) (UInt8.not_le.mpr hascii)
    · exact List.mem_cons_of_mem c (List.mem_of_mem_drop (ih hr))

/-- **Dropping blanks** brings no new ASCII byte. -/
theorem Text.mem_of_mem_strip {t : Text} {b : Byte} (h : b ∈ t.strip) (hascii : b < 0x80) : b ∈ t := by
  unfold strip at h
  split at h
  · obtain ⟨r, hr, hb⟩ := List.mem_flatMap.mp h
    exact mem_of_mem_encode (List.mem_filter.mp hr).1 hb hascii
  · exact h

/-- **Texts without an end of line** may be quoted. -/
theorem quotable_newline : Quotable (Byte.newline ∉ ·) where
  spelled h := h.newline_notMem
  part hsub h hmem := h (hsub hmem)
  strip h hmem := h (Text.mem_of_mem_strip hmem (by decide))

theorem quotable_any : Quotable fun _ => True := ⟨fun _ => trivial, fun _ _ => trivial, fun _ => trivial⟩

end SpsAssembler
