import Mathlib.Data.List.TakeWhile
import SpsAssembler.Proofs.Fields
import SpsAssembler.Proofs.TableCalls

/-!
# Names under heads

A head puts names of fewer than six characters into a name space of their own. No two name spaces
share a key, so a label is found under every spelling that means it, and by no other.

* `headKey_eq_iff`: labels with the same key;
* `Spelling`: the ways to refer to a label;
* **`referenceKey_of_spelling`**: each of them means the key of the label;
* `TableState.valueAt_run`: a definition holds behind all later calls;
* **`heads_apart`**: definitions and references under heads.
-/

namespace SpsAssembler

variable {divide : Bool} {head other : Byte} {name label : Text}

/-! ## Keys -/

theorem length_of_isLabel (h : isLabel divide name = true) : name.length ≤ 6 := by
  simp only [isLabel, isName, Bool.and_eq_true, decide_eq_true_eq] at h
  exact h.1.1.2

theorem headMark_notMem (h : isLabel divide name = true) : headMark ∉ name := by
  simp only [isLabel, isName, Bool.and_eq_true] at h
  intro hmem
  have hbyte := List.all_eq_true.mp h.1.2 headMark hmem
  cases divide <;> cases hbyte

theorem head_spec : ∀ b : Byte, isHead b = true → Glyph.encode b.toNat = [b] ∧ b ≠ headMark := by
  refine forall_cell ?_
  decide +kernel

theorem headKey_of_short (hhead : isHead head = true) (hblank : head ≠ Byte.blank)
    (hshort : name.length < 6) : headKey head name = head :: headMark :: name := by
  unfold headKey
  rw [if_pos (by simp [hblank, hshort]), (head_spec head hhead).1]
  rfl

theorem headKey_of_bare (h : head = Byte.blank ∨ ¬ name.length < 6) : headKey head name = name := by
  unfold headKey
  rw [if_neg]
  rcases h with rfl | h
  · simp
  · simp [h]

/-- **Labels with the same key** are the same label, under the same head or of six characters. -/
theorem headKey_eq_iff (hhead : isHead head = true) (hother : isHead other = true)
    (hname : isLabel divide name = true) (hlabel : isLabel divide label = true) :
    headKey head name = headKey other label ↔
      name = label ∧ (head = other ∨ name.length = 6) := by
  have hn := length_of_isLabel hname
  have hl := length_of_isLabel hlabel
  have hnmark := headMark_notMem hname
  have hlmark := headMark_notMem hlabel
  by_cases hleft : head = Byte.blank ∨ ¬ name.length < 6
  · rw [headKey_of_bare hleft]
    by_cases hright : other = Byte.blank ∨ ¬ label.length < 6
    · rw [headKey_of_bare hright]
      refine ⟨?_, And.left⟩
      rintro rfl
      refine ⟨rfl, ?_⟩
      rcases hleft with rfl | hleft
      · rcases hright with rfl | hright
        · exact .inl rfl
        · exact .inr (by omega)
      · exact .inr (by omega)
    · obtain ⟨hblank, hshort⟩ := not_or.mp hright
      rw [headKey_of_short hother hblank (not_not.mp hshort)]
      constructor
      · rintro rfl
        simp at hnmark
      · rintro ⟨rfl, rfl | hsix⟩
        · exact absurd hleft hright
        · omega
  · obtain ⟨hblank, hshort⟩ := not_or.mp hleft
    rw [headKey_of_short hhead hblank (not_not.mp hshort)]
    by_cases hright : other = Byte.blank ∨ ¬ label.length < 6
    · rw [headKey_of_bare hright]
      constructor
      · rintro rfl
        simp at hlmark
      · rintro ⟨rfl, rfl | hsix⟩
        · exact absurd hright hleft
        · omega
    · obtain ⟨hblank', hshort'⟩ := not_or.mp hright
      rw [headKey_of_short hother hblank' (not_not.mp hshort')]
      constructor
      · intro heq
        simp only [List.cons.injEq, true_and] at heq
        exact ⟨heq.2, .inl heq.1⟩
      · rintro ⟨rfl, rfl | hsix⟩
        · rfl
        · omega

/-! ## References -/

/-- The ways to refer to the label `name` of `head`, each with the head that is in force where it is
written. -/
inductive Spelling (head : Byte) (name : Text) : Text → Byte → Prop
  | plain : Spelling head name name head
  | headed (force : Byte) (hhead : head ≠ Byte.blank) (hshort : name.length < 6) :
      Spelling head name (head :: headMark :: name) force
  | unheaded (force : Byte) (hhead : head = Byte.blank) :
      Spelling head name (headMark :: name) force
  | full (force : Byte) (hlong : name.length = 6) : Spelling head name name force

/-- A label that is written without a head means its key under the head in force. -/
theorem referenceKey_of_label (h : isLabel divide name = true) (force : Byte) :
    referenceKey divide force name = .ok (headKey force name) := by
  have hall : ∀ b ∈ name, (b != headMark) = true := by
    intro b hb
    rw [bne_iff_ne]
    rintro rfl
    exact headMark_notMem h hb
  have hdrop : name.dropWhile (· != headMark) = [] := List.dropWhile_eq_nil_iff.mpr hall
  unfold referenceKey
  rw [hdrop]
  simp [SymbolTable.isSymbol_of_isLabel h]

/-- **Every spelling of a label means its key.** -/
theorem referenceKey_of_spelling {reference : Text} {force : Byte}
    (hname : isLabel divide name = true) (hhead : isHead head = true)
    (h : Spelling head name reference force) :
    referenceKey divide force reference = .ok (headKey head name) := by
  cases h with
  | plain => exact referenceKey_of_label hname head
  | headed force hblank hshort =>
    have hmark : (head != headMark) = true := bne_iff_ne.mpr (head_spec head hhead).2
    rw [headKey_of_short hhead hblank hshort]
    simp [referenceKey, List.takeWhile, List.dropWhile, hmark, hhead,
      SymbolTable.isSymbol_of_isLabel hname]
  | unheaded force hblank =>
    rw [headKey_of_bare (.inl hblank)]
    simp [referenceKey, List.takeWhile, List.dropWhile]
  | full force hlong =>
    rw [referenceKey_of_label hname, headKey_of_bare (.inr (by omega)),
      headKey_of_bare (.inr (by omega))]

theorem not_isBlank_of_spelling {reference : Text} {force : Byte}
    (hname : isLabel divide name = true) (h : Spelling head name reference force) :
    reference.isBlank = false := by
  have hblank := isBlank_of_isSymbol (SymbolTable.isSymbol_of_isLabel hname)
  have hmark : headMark ≠ Byte.blank := by decide
  cases h with
  | plain => exact hblank
  | headed => simp [Text.isBlank, hmark]
  | unheaded => simp [Text.isBlank, hmark]
  | full => exact hblank

/-! ## Definitions and references -/

namespace SymbolTable

variable {t : SymbolTable}

theorem lookup_spelling (hname : isLabel t.divide name = true) (hhead : isHead head = true)
    {reference : Text} {force : Byte} (h : Spelling head name reference force) (line : Word)
    (ordered entering : Bool) : (t.lookup reference line ordered force entering).value =
      t.valueAt (headKey head name) line ordered := by
  rw [lookup_value, not_isBlank_of_spelling hname h, referenceKey_of_spelling hname hhead h]
  rfl

theorem define_of_free (hname : isLabel t.divide name = true)
    (hfree : t.get? (headKey head name) = none) (address : Word) (kind : Kind) (line : Word) :
    (t.define name address kind line head).1 =
      t.enter { name := headKey head name, address, kind, defined := line } := by
  have hblank := isBlank_of_isSymbol (isSymbol_of_isLabel hname)
  simp [define, hblank, hname, hfree]

theorem valueAt_define {key : Text} (h : isLabel t.divide name = true → headKey head name ≠ key)
    (address : Word) (kind : Kind) (defined line : Word) (ordered : Bool) :
    (t.define name address kind defined head).1.valueAt key line ordered =
      t.valueAt key line ordered := by
  rcases t.define_cases name address kind defined head with ⟨hd, -⟩ | ⟨c, hd⟩ | ⟨hd, hlabel, -⟩
  · rw [hd]
  · rw [hd]
  · unfold valueAt
    rw [hd, bare?_enter, if_neg (h hlabel), Option.or_none]

theorem divide_define (address : Word) (kind : Kind) (line : Word) :
    (t.define name address kind line head).1.divide = t.divide := by
  rcases t.define_cases name address kind line head with ⟨hd, -⟩ | ⟨c, hd⟩ | ⟨hd, -⟩ <;> rw [hd]
  rfl

end SymbolTable

/-- **A definition holds behind all later calls.** -/
theorem TableState.valueAt_run {s : TableState} {key : Text} {symbol : Symbol}
    (h : s.table.bare? key = some symbol) (calls : List TableCall) (line : Word) (ordered : Bool) :
    (s.run calls).table.valueAt key line ordered = symbol.valueOn line ordered := by
  unfold SymbolTable.valueAt
  rw [(s.embeds_run calls).bare key symbol h]

/-- **Definitions and references under heads.** The keys of two labels are the same only if the
labels are, under the same head or with six characters. So a label whose key was free is found
behind any further calls under every spelling that means it, unless it must stand further up and
does not; and a definition of another label, or of a short one under another head, changes none of
this. -/
theorem heads_apart {t : SymbolTable} {head : Byte} {name : Text}
    (hname : isLabel t.divide name = true) (hhead : isHead head = true) :
    (∀ other label, isHead other = true → isLabel t.divide label = true →
      (headKey head name = headKey other label ↔
        name = label ∧ (head = other ∨ name.length = 6))) ∧
    (∀ address kind defined, 0 < defined → t.get? (headKey head name) = none →
      ∀ pass calls reference force line ordered, Spelling head name reference force →
        ¬ (ordered = true ∧ line < defined) →
        let later := TableState.run ⟨(t.define name address kind defined head).1, pass⟩ calls
        (later.table.lookup reference line ordered force later.entering).value = address) ∧
    ∀ other label address kind defined, isHead other = true →
      ¬ (name = label ∧ (head = other ∨ name.length = 6)) →
      ∀ reference force line ordered entering, Spelling head name reference force →
        ((t.define label address kind defined other).1.lookup reference line ordered force
            entering).value =
          (t.lookup reference line ordered force entering).value := by
  refine ⟨fun other label hother hlabel => headKey_eq_iff hhead hother hname hlabel, ?_, ?_⟩
  · intro address kind defined hdefined hfree pass calls reference force line ordered hspelling
      hseen later
    have hbare : (t.define name address kind defined head).1.bare? (headKey head name) =
        some { name := headKey head name, address, kind, defined } := by
      rw [SymbolTable.define_of_free hname hfree, SymbolTable.bare?_enter,
        SymbolTable.bare?_eq_none.mpr hfree, if_pos rfl]
      rfl
    have hdivide : later.table.divide = t.divide :=
      (TableState.embeds_run _ calls).divide.trans (SymbolTable.divide_define address kind defined)
    rw [SymbolTable.lookup_spelling (hdivide ▸ hname) hhead hspelling,
      TableState.valueAt_run hbare]
    simp [Symbol.valueOn, Symbol.isResolved, hdefined, hseen]
  · intro other label address kind defined hother hpair reference force line ordered entering
      hspelling
    have hkeys : isLabel t.divide label = true → headKey other label ≠ headKey head name := by
      intro hlabel heq
      exact hpair ((headKey_eq_iff hhead hother hname hlabel).mp heq.symm)
    have hdivide : (t.define label address kind defined other).1.divide = t.divide :=
      SymbolTable.divide_define address kind defined
    rw [SymbolTable.lookup_spelling (hdivide ▸ hname) hhead hspelling,
      SymbolTable.lookup_spelling hname hhead hspelling, SymbolTable.valueAt_define hkeys]

/-- Calls behind the definition of a label under head `B`: a second pass that has the label under
head `C`, too, and refers to both. -/
def otherHeadCalls : List TableCall := [
  .enterPass 2,
  .define (ascii "LOOP") 500 .instruction 4 'C'.toUInt8,
  .lookup (ascii "LOOP") 5 true 'C'.toUInt8,
  .lookup (ascii "B$LOOP") 6 true 'C'.toUInt8]

theorem heads_apart_otherHead :
    isLabel true (ascii "LOOP") = true ∧ isHead 'B'.toUInt8 = true ∧
      headKey 'B'.toUInt8 (ascii "LOOP") ≠ headKey 'C'.toUInt8 (ascii "LOOP") ∧
      let table : SymbolTable := { divide := true }
      let defined := (table.define (ascii "LOOP") 402 .instruction 3 'B'.toUInt8).1
      let later := TableState.run ⟨defined, 1⟩ otherHeadCalls
      (later.table.lookup (ascii "B$LOOP") 7 true 'C'.toUInt8 later.entering).value = 402 ∧
      ((defined.define (ascii "LOOP") 500 .instruction 4 'C'.toUInt8).1.lookup (ascii "LOOP") 7
          true 'B'.toUInt8 false).value =
        (defined.lookup (ascii "LOOP") 7 true 'B'.toUInt8 false).value := by
  have hname : isLabel true (ascii "LOOP") = true := by decide
  have hhead : isHead 'B'.toUInt8 = true := by decide
  have hother : isHead 'C'.toUInt8 = true := by decide
  refine ⟨hname, hhead, ?_, ?_, ?_⟩
  · obtain ⟨hkeys, -⟩ := heads_apart (t := { divide := true }) hname hhead
    rw [ne_eq, hkeys 'C'.toUInt8 (ascii "LOOP") hother hname]
    decide
  · obtain ⟨-, hfound, -⟩ := heads_apart (t := { divide := true }) hname hhead
    exact hfound 402 .instruction 3 (by decide) rfl 1 otherHeadCalls _ _ 7 true
      (.headed 'C'.toUInt8 (by decide) (by decide)) (by decide)
  · obtain ⟨-, -, hkept⟩ := heads_apart
      (t := (SymbolTable.define { divide := true } (ascii "LOOP") 402 .instruction 3
        'B'.toUInt8).1) hname hhead
    exact hkept 'C'.toUInt8 (ascii "LOOP") 500 .instruction 4 hother (by decide) _ _ 7 true false
      .plain

end SpsAssembler
