import SpsAssembler.Proofs.Fields
import SpsAssembler.Proofs.Reports

/-!
# The grammar of operands

An operand is spelled by a row of terms with operators between them, perhaps with a minus in front
and an index behind. The star is a term as well as an operator, the minus an operator as well as a
sign, and the slash an operator or a character of names; still a row is read back term by term, and
what is read back without a fault was spelled by a row.

* `IsTerm`, `Formula`, `IsOperand`: the grammar;
* `Expression.read_text`, `Expression.exists_formula`: reading finds the formula that an operand
  spells, and there is one if nothing is left over;
* `isOperand_iff`: the grammar is what reading accepts;
* **`invalidOperand_iff`**: an operand is reported as invalid exactly if the grammar does not have it,
  and then once.
-/

namespace SpsAssembler

/-! ## The grammar -/

/-- The character of an operator. -/
def Operator.sign : Operator → Byte
  | add => '+'.toUInt8
  | sub => '-'.toUInt8
  | mul => '*'.toUInt8
  | div => '/'.toUInt8

/-- Terms: the star, decimal numbers up to `2 ^ 63 - 1`, and symbols. -/
inductive IsTerm (divide : Bool) : Text → Prop where
  | star : IsTerm divide (ascii "*")
  | literal (t : Text) : t.isNumber = true → t.digitsValue ≤ 9223372036854775807 → IsTerm divide t
  | symbol (t : Text) : isSymbol divide t = true → IsTerm divide t

/-- A row of terms with an operator before each but the first, perhaps with a minus in front. Where
the slash is a character of names it is no operator. -/
structure Formula (divide : Bool) where
  minus : Bool
  first : Text
  rest : List (Operator × Text)
  isTerm_first : IsTerm divide first
  isTerm_rest : ∀ x ∈ rest, IsTerm divide x.2
  ne_div : divide = true → ∀ x ∈ rest, x.1 ≠ .div

/-- Terms as they are spelled, each behind its operator. -/
def spell (terms : List (Operator × Text)) : Text := terms.flatMap fun x => x.1.sign :: x.2

namespace Formula

variable {divide : Bool}

/-- The text of a formula. -/
def text (f : Formula divide) : Text :=
  (if f.minus then [Operator.sub.sign] else []) ++ f.first ++ spell f.rest

/-- The terms of a formula, the first one behind its sign. -/
def terms (f : Formula divide) : List (Operator × Text) :=
  (if f.minus then .sub else .add, f.first) :: f.rest

end Formula

/-- What may stand behind a formula: nothing, or anything that a bracket opens. -/
def IsTail (t : Text) : Prop := t = [] ∨ t.head? = some Expression.openBracket

/-- Operands: a formula, and perhaps an index behind it. -/
def IsOperand (divide : Bool) (t : Text) : Prop :=
  ∃ (f : Formula divide) (tail : Text), IsTail tail ∧ t = f.text ++ tail

/-! ## Characters -/

theorem Operator.read?_sign {divide : Bool} {op : Operator} (h : divide = true → op ≠ .div) :
    Operator.read? divide op.sign = some op := by
  cases divide with
  | false => cases op <;> decide
  | true =>
    cases op with
    | div => exact absurd rfl (h rfl)
    | _ => decide

theorem Operator.of_read? {divide : Bool} {b : Byte} {op : Operator}
    (h : Operator.read? divide b = some op) : b = op.sign ∧ (divide = true → op ≠ .div) := by
  unfold Operator.read? at h
  split at h
  · cases h
    exact ⟨beq_iff_eq.mp ‹_›, by simp⟩
  · split at h
    · cases h
      exact ⟨beq_iff_eq.mp ‹_›, by simp⟩
    · split at h
      · cases h
        exact ⟨beq_iff_eq.mp ‹_›, by simp⟩
      · split at h
        · rename_i hslash
          simp only [Bool.and_eq_true, beq_iff_eq, Bool.not_eq_true'] at hslash
          cases h
          exact ⟨hslash.1, by simp [hslash.2]⟩
        · cases h

/-- A character that neither ends a term nor opens an index. -/
def isInner (divide : Bool) (b : Byte) : Bool :=
  b != Expression.openBracket && (Operator.read? divide b).isNone

theorem isInner_of_isNameByte (divide : Bool) : ∀ b : Byte, isNameByte divide b = true →
    isInner divide b = true ∧ b ≠ Operator.sub.sign := by
  cases divide with
  | false => exact forall_cell (by decide +kernel)
  | true => exact forall_cell (by decide +kernel)

theorem isNameByte_of_isDigit (divide : Bool) {b : Byte} (h : b.isDigit = true) :
    isNameByte divide b = true := by simp [isNameByte, h]

theorem isNameByte_of_isUpper (divide : Bool) {b : Byte} (h : b.isUpper = true) :
    isNameByte divide b = true := by simp [isNameByte, h]

theorem isInner_headMark (divide : Bool) : isInner divide headMark = true := by
  cases divide <;> decide

theorem isName_bytes {divide : Bool} {limit : Nat} {name : Text}
    (h : isName divide limit name = true) : ∀ b ∈ name, isNameByte divide b = true := by
  simp only [isName, Bool.and_eq_true, List.all_eq_true] at h
  exact h.2

theorem isSymbol_bytes {divide : Bool} {name : Text} (h : isSymbol divide name = true) :
    ∀ b ∈ name, isNameByte divide b = true ∨ b = headMark := by
  simp only [isSymbol, Bool.and_eq_true, Bool.or_eq_true] at h
  rcases h.1 with hname | hheaded
  · exact fun b hb => .inl (isName_bytes hname b hb)
  · unfold isHeadedName at hheaded
    split at hheaded
    · cases hheaded
    · rename_i b rest
      split at hheaded
      · rename_i hmark
        intro c hc
        rcases List.mem_cons.mp hc with rfl | hc
        · exact .inr (by simpa using hmark)
        · exact .inl (isName_bytes hheaded c hc)
      · simp only [Bool.and_eq_true, Bool.or_eq_true] at hheaded
        obtain ⟨hhead, hrest⟩ := hheaded
        have hb : isNameByte divide b = true :=
          hhead.elim (isNameByte_of_isUpper divide) (isNameByte_of_isDigit divide)
        split at hrest
        · cases hrest
        · simp only [Bool.and_eq_true, beq_iff_eq] at hrest
          intro c hc
          simp only [List.mem_cons] at hc
          rcases hc with rfl | rfl | hc
          · exact .inl hb
          · exact .inr hrest.1
          · exact .inl (isName_bytes hrest.2 c hc)

theorem isSymbol_ne_nil {divide : Bool} {name : Text} (h : isSymbol divide name = true) :
    name ≠ [] := by
  rintro rfl
  simp [isSymbol, isName, isHeadedName] at h

/-- **A term has a first character**, which is no minus, and no operator or bracket behind it. -/
theorem IsTerm.cons {divide : Bool} {t : Text} (h : IsTerm divide t) :
    ∃ b s, t = b :: s ∧ b ≠ Operator.sub.sign ∧ ∀ c ∈ s, isInner divide c = true := by
  have hmark : ∀ c : Byte, isNameByte divide c = true ∨ c = headMark →
      isInner divide c = true ∧ c ≠ Operator.sub.sign := by
    rintro c (hc | rfl)
    · exact isInner_of_isNameByte divide c hc
    · exact ⟨isInner_headMark divide, by decide⟩
  have hbytes : t ≠ [] → (∀ c ∈ t, isNameByte divide c = true ∨ c = headMark) →
      ∃ b s, t = b :: s ∧ b ≠ Operator.sub.sign ∧ ∀ c ∈ s, isInner divide c = true := by
    intro hne hall
    obtain ⟨b, s, rfl⟩ := List.exists_cons_of_ne_nil hne
    exact ⟨b, s, rfl, (hmark b (hall b List.mem_cons_self)).2,
      fun c hc => (hmark c (hall c (List.mem_cons_of_mem b hc))).1⟩
  cases h with
  | star => exact ⟨_, [], rfl, by decide, by simp⟩
  | literal t hnumber _ =>
    simp only [Text.isNumber, Bool.and_eq_true, Bool.not_eq_true', List.isEmpty_eq_false_iff,
      List.all_eq_true] at hnumber
    exact hbytes hnumber.1 fun c hc => .inl (isNameByte_of_isDigit divide (hnumber.2 c hc))
  | symbol t hsymbol => exact hbytes (isSymbol_ne_nil hsymbol) (isSymbol_bytes hsymbol)

theorem isTerm_iff {divide : Bool} {t : Text} :
    IsTerm divide t ↔ (Term.read? divide t).isSome = true := by
  constructor
  · intro h
    by_cases hstar : (t == ascii "*") = true
    · rw [Term.read?, if_pos hstar]
      rfl
    rw [Term.read?, if_neg hstar]
    cases h with
    | star => exact absurd rfl hstar
    | literal t hnumber hsmall =>
      rw [if_pos hnumber, if_pos (by omega)]
      rfl
    | symbol t hsymbol =>
      have hnumber : ¬ t.isNumber = true := by
        simp only [isSymbol, Bool.and_eq_true, Bool.not_eq_true'] at hsymbol
        simp [hsymbol.2]
      rw [if_neg hnumber, if_pos hsymbol]
      rfl
  · intro h
    unfold Term.read? at h
    split at h
    · rename_i hstar
      obtain rfl := beq_iff_eq.mp hstar
      exact .star
    · split at h
      · split at h
        · exact .literal t ‹_› (by omega)
        · cases h
      · split at h
        · exact .symbol t ‹_›
        · cases h

/-! ## Reading what is spelled -/

namespace Expression

variable {divide : Bool}

theorem scan_append {s : Text} (hs : ∀ c ∈ s, isInner divide c = true) (u : Text) :
    scan divide (s ++ u) = (s ++ (scan divide u).1, (scan divide u).2) := by
  induction s with
  | nil => rfl
  | cons b s ih =>
    have hb := hs b List.mem_cons_self
    simp only [isInner, Bool.and_eq_true, bne_iff_ne, Option.isNone_iff_eq_none] at hb
    have hrest := ih fun c hc => hs c (List.mem_cons_of_mem b hc)
    rw [List.cons_append, scan, if_neg (by simpa using hb.1), hb.2, hrest]
    rfl

theorem scan_tail {tail : Text} (h : IsTail tail) : scan divide tail = ([], { index := tail }) := by
  cases tail with
  | nil => rfl
  | cons b t =>
    have hb : b = openBracket := by simpa [IsTail] using h
    rw [scan, if_pos (by simpa using hb)]

theorem scan_sign {op : Operator} (hop : divide = true → op ≠ .div) (b : Byte) (u : Text) :
    scan divide (op.sign :: b :: u) =
      ([], (scan divide u).2.cons op (b :: (scan divide u).1)) := by
  have hbracket : op.sign ≠ openBracket := by cases op <;> decide
  rw [scan, if_neg (by simpa using hbracket), Operator.read?_sign hop]

/-- **Reading a row of terms** behind another term finds them all. -/
theorem scan_spell {terms : List (Operator × Text)} (hterms : ∀ x ∈ terms, IsTerm divide x.2)
    (hops : divide = true → ∀ x ∈ terms, x.1 ≠ .div) {tail : Text} (htail : IsTail tail) :
    scan divide (spell terms ++ tail) = ([], { terms, index := tail }) := by
  induction terms with
  | nil => exact scan_tail htail
  | cons first rest ih =>
    obtain ⟨op, t⟩ := first
    obtain ⟨b, s, rfl, -, hs⟩ := (hterms _ List.mem_cons_self).cons
    have hrest := ih (fun x hx => hterms x (List.mem_cons_of_mem _ hx))
      fun hd x hx => hops hd x (List.mem_cons_of_mem _ hx)
    have htext : spell ((op, b :: s) :: rest) ++ tail = op.sign :: b :: (s ++ (spell rest ++ tail)) := by
      simp [spell]
    rw [htext, scan_sign fun hd => hops hd _ List.mem_cons_self, scan_append hs, hrest]
    simp [cons]

theorem read_minus (u : Text) : read divide (Operator.sub.sign :: u) = readFrom divide .sub u := rfl

theorem read_cons {b : Byte} (hb : b ≠ Operator.sub.sign) (u : Text) :
    read divide (b :: u) = readFrom divide .add (b :: u) := by
  rw [read, if_neg (by simpa [Operator.sign] using hb)]

/-- **An operand is read** as the formula that it spells. -/
theorem read_text (f : Formula divide) {tail : Text} (htail : IsTail tail) :
    read divide (f.text ++ tail) = { terms := f.terms, index := tail } := by
  obtain ⟨b, s, hfirst, hminus, hs⟩ := f.isTerm_first.cons
  have hrest := scan_spell f.isTerm_rest f.ne_div htail
  have hread : ∀ op, readFrom divide op (f.first ++ (spell f.rest ++ tail)) =
      { terms := (op, f.first) :: f.rest, index := tail } := by
    intro op
    rw [hfirst, List.cons_append, readFrom, scan_append hs, hrest]
    simp [cons]
  unfold Formula.text Formula.terms
  cases f.minus with
  | true =>
    simp only [if_true, List.append_assoc, List.singleton_append]
    rw [List.cons_append, read_minus, hread]
  | false =>
    simp only [Bool.false_eq_true, if_false, List.nil_append, List.append_assoc]
    rw [← hread .add, hfirst, List.cons_append, read_cons hminus]

/-! ## Spelling what is read -/

/-- What is read behind the start of a term is spelled by the rest of that term, the terms that
follow and the index, unless an operator is left over. -/
theorem spell_scan (u : Text) (h : (scan divide u).2.dangling = false) :
    u = (scan divide u).1 ++ (spell (scan divide u).2.terms ++ (scan divide u).2.index) ∧
      IsTail (scan divide u).2.index ∧
      (divide = true → ∀ x ∈ (scan divide u).2.terms, x.1 ≠ .div) := by
  fun_induction scan divide u with
  | case1 => exact ⟨rfl, .inl rfl, by simp⟩
  | case2 b rest hb => exact ⟨rfl, .inr (by simpa using hb), by simp⟩
  | case3 b rest _ _ term e hscan ih =>
    rw [hscan] at ih
    obtain ⟨htext, htail, hops⟩ := ih h
    exact ⟨congrArg (b :: ·) htext, htail, hops⟩
  | case4 => cases h
  | case5 b _ op hop c rest term e hscan ih =>
    rw [hscan] at ih
    obtain ⟨htext, htail, hops⟩ := ih h
    obtain ⟨rfl, hdiv⟩ := Operator.of_read? hop
    refine ⟨?_, htail, fun hd x hx => ?_⟩
    · simpa [cons, spell] using htext
    · rcases List.mem_cons.mp hx with rfl | hx
      · exact hdiv hd
      · exact hops hd x hx

/-- **Operands are spelled by formulas**, if nothing is left over and all their terms are terms. -/
theorem exists_formula {t : Text} (hdangling : (read divide t).dangling = false)
    (hne : (read divide t).terms ≠ []) (hterms : ∀ x ∈ (read divide t).terms, IsTerm divide x.2) :
    IsOperand divide t := by
  -- The two ways to start differ by the sign only.
  have hfrom : ∀ (minus : Bool) (op : Operator) (b : Byte) (u : Text),
      (readFrom divide op (b :: u)).dangling = false →
      (∀ x ∈ (readFrom divide op (b :: u)).terms, IsTerm divide x.2) →
      ∃ (f : Formula divide) (tail : Text), f.minus = minus ∧ IsTail tail ∧
        b :: u = f.first ++ spell f.rest ++ tail := by
    intro minus op b u hd hall
    simp only [readFrom, cons] at hd hall
    obtain ⟨htext, htail, hops⟩ := spell_scan u hd
    refine ⟨⟨minus, b :: (scan divide u).1, (scan divide u).2.terms, hall _ List.mem_cons_self,
      fun x hx => hall x (List.mem_cons_of_mem _ hx), hops⟩, (scan divide u).2.index, rfl, htail, ?_⟩
    simpa using htext
  cases t with
  | nil => exact absurd rfl hne
  | cons b u =>
    by_cases hb : b = Operator.sub.sign
    · subst hb
      rw [read_minus] at hdangling hne hterms
      cases u with
      | nil => exact absurd rfl hne
      | cons c u =>
        obtain ⟨f, tail, hminus, htail, htext⟩ := hfrom true .sub c u hdangling hterms
        exact ⟨f, tail, htail, by rw [Formula.text, hminus, htext]; simp⟩
    · rw [read_cons hb] at hdangling hterms
      obtain ⟨f, tail, hminus, htail, htext⟩ := hfrom false .add b u hdangling hterms
      exact ⟨f, tail, htail, by rw [Formula.text, hminus, htext]; simp⟩

/-- Only a lone minus has no terms. -/
theorem terms_read_eq_nil (divide : Bool) {t : Text} (hne : t ≠ []) :
    (read divide t).terms = [] ↔ t = ascii "-" := by
  cases t with
  | nil => exact absurd rfl hne
  | cons b u =>
    by_cases hb : b = Operator.sub.sign
    · subst hb
      rw [read_minus]
      cases u with
      | nil => exact ⟨fun _ => rfl, fun _ => rfl⟩
      | cons c u => exact ⟨fun h => by simp [readFrom, cons] at h, fun h => by simp [ascii] at h⟩
    · rw [read_cons hb]
      refine ⟨fun h => by simp [readFrom, cons] at h, fun h => ?_⟩
      exact absurd (congrArg (·.headD 0) h) hb

end Expression

/-- **The grammar is what reading accepts.** -/
theorem isOperand_iff {divide : Bool} {t : Text} : IsOperand divide t ↔
    (Expression.read divide t).terms ≠ [] ∧ (Expression.read divide t).dangling = false ∧
      ∀ x ∈ (Expression.read divide t).terms, IsTerm divide x.2 := by
  constructor
  · rintro ⟨f, tail, htail, rfl⟩
    rw [Expression.read_text f htail]
    refine ⟨by simp [Formula.terms], rfl, fun x hx => ?_⟩
    rcases List.mem_cons.mp hx with rfl | hx
    · exact f.isTerm_first
    · exact f.isTerm_rest x hx
  · rintro ⟨hne, hdangling, hterms⟩
    exact Expression.exists_formula hdangling hne hterms

instance (divide : Bool) (t : Text) : Decidable (IsTerm divide t) :=
  decidable_of_iff _ isTerm_iff.symm

instance (divide : Bool) (t : Text) : Decidable (IsOperand divide t) :=
  decidable_of_iff ((Expression.read divide t).terms ≠ [] ∧
    (Expression.read divide t).dangling = false ∧
    (Expression.read divide t).terms.all (fun x => decide (IsTerm divide x.2)) = true)
    (by simp only [List.all_eq_true, decide_eq_true_eq, isOperand_iff])

example : IsOperand false (ascii "-A***B/2(1)") := by decide +kernel

example : ¬ IsOperand true (ascii "5+-3") := by decide +kernel

/-! ## Reports -/

/-- Whether a cause says that an operand is invalid. -/
def Cause.saysInvalidOperand (c : Cause) : Bool := Text.hasPrefix (ascii "invalid operand") c.message

theorem Cause.saysInvalidOperand_iff {c : Cause} :
    c.saysInvalidOperand = true ↔ ∃ operand, c = .invalidOperand operand := by
  constructor
  · intro h
    cases c
    case invalidOperand operand => exact ⟨operand, rfl⟩
    all_goals exact absurd h (by rw [Bool.not_eq_true]; rfl)
  · rintro ⟨operand, rfl⟩
    rfl

/-- What is wrong with a symbol that is referred to. -/
def Cause.concernsReference : Cause → Bool
  | invalidSymbol _ | invalidSymbolHead _ | undefinedSymbol _ | forwardReference _ => true
  | _ => false

section Reports

variable (scope : Scope) (usage : Usage) (table : SymbolTable)

theorem valuesOf_concernsReference (terms : List (Operator × Text)) :
    Throughout (·.concernsReference = true) (valuesOf scope usage table terms).reports := by
  refine valuesOf_throughout (fun name c _ hc => ?_) (fun _ _ _ _ => ⟨rfl, rfl⟩) rfl usage rfl terms
  rcases referenceKey_error hc with ⟨t, rfl⟩ | ⟨t, rfl⟩ <;> rfl

theorem chainOf_isSome (terms : List (Operator × Text)) :
    (chainOf scope usage table terms).isSome = true ↔ ∀ x ∈ terms, IsTerm table.divide x.2 := by
  induction terms with
  | nil => simp [chainOf]
  | cons first rest ih =>
    obtain ⟨op, text⟩ := first
    rw [List.forall_mem_cons, isTerm_iff, ← ih, chainOf]
    cases Term.read? table.divide text <;> simp

theorem filter_invalid_of_throughout {P : Cause → Prop} {reports : List (Report Cause)}
    (h : Throughout P reports) (hP : ∀ operand, ¬ P (.invalidOperand operand)) :
    reports.filter (·.cause.saysInvalidOperand) = [] := by
  refine List.filter_eq_nil_iff.mpr fun r hr hsays => ?_
  obtain ⟨operand, hcause⟩ := Cause.saysInvalidOperand_iff.mp hsays
  exact hP operand (hcause ▸ h r hr)

/-- What a check says, and what is said of an index, is not that the operand is invalid. -/
theorem filter_invalid_rest (v size : Word) (index : Text) :
    ((usage.check.apply size v).2 ++
      if usage.indexed then (readIndex index).2 else []).filter (·.cause.saysInvalidOperand) = [] := by
  have hvalue : Throughout (·.concernsValue = true) (usage.check.apply size v).2 :=
    Check.apply_throughout (fun _ hc => hc) _ _ _
  have hindex : Throughout (· = .invalidIndex index) (if usage.indexed then (readIndex index).2 else []) :=
    .ite (readIndex_throughout rfl) .nil
  rw [List.filter_append, filter_invalid_of_throughout hvalue (by simp [Cause.concernsValue]),
    filter_invalid_of_throughout hindex (by simp), List.append_nil]

/-- **Whether an operand is reported as invalid.** -/
theorem filter_invalid_evaluateIn {operand : Text} (hblank : operand.isBlank = false) :
    (evaluateIn scope usage table operand).reports.filter (·.cause.saysInvalidOperand) = [] ∧
      (operand = ascii "-" ∨ IsOperand table.divide operand) ∨
    (evaluateIn scope usage table operand).reports.filter (·.cause.saysInvalidOperand) =
        [error (.invalidOperand operand)] ∧
      ¬ (operand = ascii "-" ∨ IsOperand table.divide operand) := by
  have hne : operand ≠ [] := by
    rintro rfl
    cases hblank
  have hchain := chainOf_isSome scope usage table (Expression.read table.divide operand).terms
  rw [evaluateIn_reports, isOperand_iff, ← Expression.terms_read_eq_nil table.divide hne,
    hblank, Bool.false_or, ← hchain]
  generalize Expression.read table.divide operand = e
  by_cases hnil : e.terms = []
  · exact .inl ⟨by simp [hnil], .inl hnil⟩
  have hvalues : (valuesOf scope usage table e.terms).reports.filter (·.cause.saysInvalidOperand) = [] :=
    filter_invalid_of_throughout (valuesOf_concernsReference scope usage table e.terms)
      (by simp [Cause.concernsReference])
  rw [if_neg (by simpa using hnil), List.filter_append, hvalues, List.nil_append]
  cases chainOf scope usage table e.terms with
  | none => exact .inr ⟨rfl, by simp [hnil]⟩
  | some chain =>
    have hrefused : (if !e.index.isEmpty && !usage.indexed then
        [error (.indexNotSupported e.index)] else []).filter (·.cause.saysInvalidOperand) = [] :=
      filter_invalid_of_throughout (P := (· = .indexNotSupported e.index)) (.ite (.one rfl) .nil)
        (by simp)
    rw [restReports, List.filter_append, hrefused, List.nil_append]
    by_cases hdangling : e.dangling = true
    · rw [if_pos hdangling]
      exact .inr ⟨rfl, by simp [hnil, hdangling]⟩
    · rw [if_neg hdangling]
      refine .inl ⟨?_, .inr ⟨hnil, by simpa using hdangling, rfl⟩⟩
      cases total chain with
      | none => rfl
      | some v => exact filter_invalid_rest usage v _ _

end Reports

/-- Of what reports become, the messages with causes of one sort are those of the reports of that
sort. -/
theorem Log.filter_kept {ρ : Type} (log : Log ρ) (p : ρ → Bool) (reports : List (Report ρ)) :
    (log.kept reports).filter (fun d => p d.cause) = log.kept (reports.filter fun r => p r.cause) := by
  unfold kept
  split
  · rw [List.filter_map, List.filter_filter, List.filter_filter]
    congr 1
    exact List.filter_congr fun r _ => Bool.and_comm ..
  · rfl

theorem pending_evaluate (operand : Text) (usage : Usage) (a : Assembly) :
    (evaluate operand usage a).2.log.pending =
      a.log.pending ++ a.log.kept (evaluateIn a.scope usage a.symbols operand).reports := by
  rw [evaluate_apply]
  exact congrArg (·.pending) (a.log.raiseAll_eq (evaluateIn a.scope usage a.symbols operand).reports)

/-- **Exactly the operands outside the grammar are invalid**, and that is said once. -/
theorem invalidOperand_iff (a : Assembly) (hmuted : a.log.muted = 0) (usage : Usage) (operand : Text)
    (hblank : operand.isBlank = false) :
    ∃ messages, (evaluate operand usage a).2.log.pending = a.log.pending ++ messages ∧
      ((∃ d ∈ messages, d.severity = .error ∧ d.cause.saysInvalidOperand = true) ↔
        operand ≠ ascii "-" ∧ ¬ IsOperand a.symbols.divide operand) ∧
      messages.countP (·.cause.saysInvalidOperand) ≤ 1 := by
  have hkept := a.log.filter_kept Cause.saysInvalidOperand
    (evaluateIn a.scope usage a.symbols operand).reports
  refine ⟨_, pending_evaluate operand usage a, ?_⟩
  generalize a.log.kept (evaluateIn a.scope usage a.symbols operand).reports = messages at hkept ⊢
  rw [List.countP_eq_length_filter, hkept, ← not_or]
  rcases filter_invalid_evaluateIn a.scope usage a.symbols hblank with
    ⟨hfilter, hoperand⟩ | ⟨hfilter, hoperand⟩
  · have hnone : a.log.kept [] = ([] : List (Diagnostic Cause)) := by simp [Log.kept]
    rw [hfilter, hnone] at hkept ⊢
    refine ⟨⟨fun hreported => ?_, fun h => absurd hoperand h⟩, Nat.zero_le _⟩
    obtain ⟨d, hd, -, hsays⟩ := hreported
    exact absurd hsays (List.filter_eq_nil_iff.mp hkept d hd)
  · have hone : a.log.kept [error (.invalidOperand operand)] =
        [a.log.placed (error (.invalidOperand operand))] := by
      simp [Log.kept, hmuted, Report.isError, error]
    rw [hfilter, hone] at hkept ⊢
    refine ⟨⟨fun _ => hoperand, fun _ => ?_⟩, Nat.le_refl _⟩
    have hmem := List.mem_filter.mp (hkept ▸ List.mem_singleton_self _)
    exact ⟨_, hmem.1, rfl, hmem.2⟩

/-- A state before the first line, on a machine without core, where the slash divides. -/
def dividingState : Assembly where
  options := { divide := false }
  log := Log.start true
  symbols := { divide := false }
  memory := ⟨#[]⟩

theorem invalidOperand_iff_stars : dividingState.log.muted = 0 ∧
    (∃ d ∈ (evaluate (ascii "**") { star := 7 } dividingState).2.log.pending,
      d.severity = .error ∧ d.cause.saysInvalidOperand = true) ∧
    ¬ ∃ d ∈ (evaluate (ascii "-2***A/B(") { star := 7 } dividingState).2.log.pending,
      d.severity = .error ∧ d.cause.saysInvalidOperand = true := by
  obtain ⟨_, hbad, hreported, -⟩ :=
    invalidOperand_iff dividingState rfl { star := 7 } (ascii "**") (by decide)
  obtain ⟨_, hgood, haccepted, -⟩ :=
    invalidOperand_iff dividingState rfl { star := 7 } (ascii "-2***A/B(") (by decide)
  rw [hbad, hgood]
  exact ⟨rfl, hreported.mpr (by decide +kernel), fun h => (haccepted.mp h).2 (by decide +kernel)⟩

end SpsAssembler
