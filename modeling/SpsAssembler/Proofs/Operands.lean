import SpsAssembler.Proofs.Expressions
import SpsAssembler.Proofs.Symbols

/-!
# What the value of an operand depends on

An operand is evaluated from left to right, and every term may note a reference in the table. The
value is the one that all terms have in the table as it was before.

* `operandKeys`: the keys of the symbols of an operand;
* `rawValue`: the value of an operand before it is checked;
* **`evaluateIn_value`**: the value is the raw value after its check;
* `evaluateIn_keeps`: what every reference keeps of the table;
* **`rawValue_congr`**: it depends on the table through the values of the keys only;
* **`settled_of_evaluateIn`**: an operand without an error has only settled keys.
-/

namespace SpsAssembler

/-- The key of a term that is a symbol. -/
def termKey? (divide : Bool) (head : Byte) (term : Text) : Option Text :=
  match Term.read? divide term with
  | some (.symbol name) => (referenceKey divide head name).toOption
  | _ => none

/-- The keys of a row of terms. -/
def termKeys (divide : Bool) (head : Byte) (terms : List (Operator × Text)) : List Text :=
  terms.filterMap fun term => termKey? divide head term.2

/-- The keys of the symbols of an operand where `head` is in force. -/
def operandKeys (divide : Bool) (head : Byte) (operand : Text) : List Text :=
  if operand.isBlank then [] else termKeys divide head (Expression.read divide operand).terms

/-- The values of a row of terms, all by the same table. -/
def chainOf (scope : Scope) (usage : Usage) (table : SymbolTable) :
    List (Operator × Text) → Option Chain
  | [] => some []
  | (op, t) :: rest =>
    (Term.read? table.divide t).bind fun term =>
      (chainOf scope usage table rest).map ((op, (term.value scope usage table).value) :: ·)

/-- The value of an operand before it is checked, `none` for one that has no value. -/
def rawValue (scope : Scope) (usage : Usage) (table : SymbolTable) (operand : Text) : Option Word :=
  let e := Expression.read table.divide operand
  if operand.isBlank || e.terms.isEmpty || e.dangling then none
  else (chainOf scope usage table e.terms).bind total

theorem isBlank_of_isSymbol {divide : Bool} {name : Text} (h : isSymbol divide name = true) :
    name.isBlank = false := by
  cases name with
  | nil => simp [isSymbol, isName, isHeadedName] at h
  | cons b rest =>
    by_cases hb : b = Byte.blank
    · subst hb
      have h1 : isNameByte divide Byte.blank = false := by cases divide <;> decide
      have h2 : (Byte.blank == headMark) = false := by decide
      have h3 : (Byte.blank.isUpper || Byte.blank.isDigit) = false := by decide
      simp [isSymbol, isName, isHeadedName, h1, h2, h3] at h
    · simp [Text.isBlank, hb]

theorem isSymbol_of_read? {divide : Bool} {t name : Text}
    (h : Term.read? divide t = some (.symbol name)) : isSymbol divide name = true := by
  unfold Term.read? at h
  split at h
  · cases h
  · split at h
    · split at h <;> cases h
    · split at h
      · cases h; assumption
      · cases h

theorem mem_termKeys_cons {divide : Bool} {head : Byte} {op : Operator} {text key : Text}
    {rest : List (Operator × Text)} : key ∈ termKeys divide head ((op, text) :: rest) ↔
      termKey? divide head text = some key ∨ key ∈ termKeys divide head rest := by
  unfold termKeys
  rw [List.filterMap_cons]
  cases termKey? divide head text with
  | none => simp
  | some k => simp [eq_comm]

/-! ## Terms -/

section Terms

variable {scope : Scope} {usage : Usage}

theorem Term.value_noted (scope : Scope) (usage : Usage) (t : SymbolTable) (term : Term) :
    SymbolTable.Noted scope.entering t (term.value scope usage t).table := by
  cases term with
  | star => exact .refl ..
  | literal n => exact .refl ..
  | symbol name => exact SymbolTable.lookup_noted ..

theorem Term.value_congr {scope' : Scope} {t u : SymbolTable} {text : Text} {term : Term}
    (hterm : Term.read? t.divide text = some term) (hdivide : u.divide = t.divide)
    (hhead : scope'.head = scope.head) (hline : scope'.line = scope.line)
    (hkey : ∀ key, termKey? t.divide scope.head text = some key →
      u.valueAt key scope.line usage.ordered = t.valueAt key scope.line usage.ordered) :
    (term.value scope' usage u).value = (term.value scope usage t).value := by
  cases term with
  | star => rfl
  | literal n => rfl
  | symbol name =>
    simp only [Term.value, SymbolTable.lookup_value, hdivide, hhead, hline]
    cases hk : referenceKey t.divide scope.head name with
    | error c => rfl
    | ok key =>
      have h := hkey key (by simp [termKey?, hterm, hk, Except.toOption])
      simp only [h]

theorem chainOf_congr {scope' : Scope} {t u : SymbolTable} (hdivide : u.divide = t.divide)
    (hhead : scope'.head = scope.head) (hline : scope'.line = scope.line)
    (terms : List (Operator × Text)) (hkeys : ∀ key ∈ termKeys t.divide scope.head terms,
      u.valueAt key scope.line usage.ordered = t.valueAt key scope.line usage.ordered) :
    chainOf scope' usage u terms = chainOf scope usage t terms := by
  induction terms with
  | nil => rfl
  | cons first rest ih =>
    obtain ⟨op, text⟩ := first
    have hrest := ih fun key hkey => hkeys key (mem_termKeys_cons.mpr (.inr hkey))
    simp only [chainOf, hdivide, hrest]
    cases hterm : Term.read? t.divide text with
    | none => rfl
    | some term =>
      have hvalue : (term.value scope' usage u).value = (term.value scope usage t).value :=
        Term.value_congr hterm hdivide hhead hline fun key hkey =>
          hkeys key (mem_termKeys_cons.mpr (.inl hkey))
      simp only [Option.bind_some, hvalue]

theorem chainOf_noted {t u : SymbolTable} {entering : Bool} (h : SymbolTable.Noted entering t u)
    (terms : List (Operator × Text)) : chainOf scope usage u terms = chainOf scope usage t terms :=
  chainOf_congr h.divide rfl rfl terms fun key _ => h.valueAt_eq key _ _

/-- **What every reference keeps** of the table, a row of terms keeps. -/
theorem valuesOf_keeps {P : SymbolTable → Prop}
    (hlookup : ∀ t name, isSymbol t.divide name = true → P t →
      P (t.lookup name scope.line usage.ordered scope.head scope.entering).table)
    {t : SymbolTable} (h : P t) (terms : List (Operator × Text)) :
    P (valuesOf scope usage t terms).table := by
  induction terms generalizing t with
  | nil => exact h
  | cons first rest ih =>
    obtain ⟨op, text⟩ := first
    unfold valuesOf
    cases hterm : Term.read? t.divide text with
    | none => exact h
    | some term =>
      refine ih ?_
      cases term with
      | star => exact h
      | literal n => exact h
      | symbol name => exact hlookup t name (isSymbol_of_read? hterm) h

/-- Noting references on the way does not change the values of the terms behind. -/
theorem valuesOf_chain (t : SymbolTable) (terms : List (Operator × Text)) :
    (valuesOf scope usage t terms).chain = chainOf scope usage t terms := by
  induction terms generalizing t with
  | nil => rfl
  | cons first rest ih =>
    obtain ⟨op, text⟩ := first
    unfold valuesOf chainOf
    cases Term.read? t.divide text with
    | none => rfl
    | some term =>
      have h := ih (term.value scope usage t).table
      rw [chainOf_noted (Term.value_noted scope usage t term)] at h
      simp only [h, Option.bind_some]

/-- The keys of terms that all have values and raise no error are settled. -/
theorem settled_of_valuesOf (t : SymbolTable) (terms : List (Operator × Text))
    (hchain : (valuesOf scope usage t terms).chain.isSome = true)
    (hreports : ∀ r ∈ (valuesOf scope usage t terms).reports, r.isError = false) :
    ∀ key ∈ termKeys t.divide scope.head terms, t.Settled key scope.line usage.ordered := by
  induction terms generalizing t with
  | nil => simp [termKeys]
  | cons first rest ih =>
    obtain ⟨op, text⟩ := first
    unfold valuesOf at hchain hreports
    cases hterm : Term.read? t.divide text with
    | none => simp [hterm] at hchain
    | some term =>
      simp only [hterm, Option.isSome_map] at hchain hreports
      have hnoted := Term.value_noted scope usage t term
      have hrest := ih _ hchain fun r hr => hreports r (List.mem_append_right _ hr)
      rw [hnoted.divide] at hrest
      intro key hkey
      rcases mem_termKeys_cons.mp hkey with hk | hkey
      · cases term with
        | star => simp [termKey?, hterm] at hk
        | literal n => simp [termKey?, hterm] at hk
        | symbol name =>
          have hblank := isBlank_of_isSymbol (isSymbol_of_read? hterm)
          have hname := fun r hr => hreports r (List.mem_append_left _ hr)
          simp only [termKey?, hterm] at hk
          simp only [Term.value, SymbolTable.lookup, hblank] at hname
          cases href : referenceKey t.divide scope.head name with
          | error c => simp [href, Except.toOption] at hk
          | ok k =>
            simp only [href, Except.toOption, Option.some.injEq] at hk hname
            subst hk
            exact SymbolTable.settled_of_resolve hname
      · exact (hrest key hkey).of_noted hnoted

end Terms

/-! ## Operands -/

section Operands

variable (scope : Scope) (usage : Usage) (table : SymbolTable) (operand : Text)

/-- An operand has nothing to evaluate, or it fails with an error, or it has a value that is
checked. -/
theorem evaluateIn_cases :
    (rawValue scope usage table operand = none ∧
      operandKeys table.divide scope.head operand = [] ∧
      evaluateIn scope usage table operand = { value := 0, table }) ∨
    ∃ vs, vs = valuesOf scope usage table (Expression.read table.divide operand).terms ∧
      operand.isBlank = false ∧
      ((rawValue scope usage table operand = none ∧ ∃ refused c,
        evaluateIn scope usage table operand =
          { value := 0, table := vs.table, reports := vs.reports ++ refused ++ [error c] }) ∨
      ∃ v refused wrong index, rawValue scope usage table operand = some v ∧
        vs.chain.isSome = true ∧
        evaluateIn scope usage table operand =
          { value := (usage.check.apply scope.memorySize v).1, index, table := vs.table,
            reports := vs.reports ++ refused ++ (usage.check.apply scope.memorySize v).2 ++
              wrong }) := by
  by_cases hblank : operand.isBlank = true
  · exact .inl ⟨by simp [rawValue, hblank], by simp [operandKeys, hblank],
      by simp [evaluateIn_eq, hblank]⟩
  by_cases hterms : (Expression.read table.divide operand).terms.isEmpty = true
  · have hnil := List.isEmpty_iff.mp hterms
    exact .inl ⟨by simp [rawValue, hterms], by simp [operandKeys, hblank, hnil, termKeys],
      by simp [evaluateIn_eq, hblank, hterms]⟩
  refine .inr ⟨_, rfl, by simpa using hblank, ?_⟩
  have hraw : rawValue scope usage table operand =
      if (Expression.read table.divide operand).dangling then none
      else (valuesOf scope usage table (Expression.read table.divide operand).terms).chain.bind
        total := by
    rw [valuesOf_chain, rawValue]
    simp only [hblank, hterms, Bool.false_or]
  rw [hraw, evaluateIn_eq, if_neg hblank]
  dsimp only
  rw [if_neg hterms]
  generalize Expression.read table.divide operand = e
  generalize valuesOf scope usage table e.terms = vs
  generalize (if !e.index.isEmpty && !usage.indexed then [error (Cause.indexNotSupported e.index)]
    else []) = refused
  cases hchain : vs.chain with
  | none =>
    exact .inl ⟨by simp, [], .invalidOperand operand, by simp⟩
  | some chain =>
    by_cases hdangling : e.dangling = true
    · exact .inl ⟨if_pos hdangling, refused, .invalidOperand operand, if_pos hdangling⟩
    · rw [if_neg hdangling]
      dsimp only
      rw [if_neg hdangling, Option.bind_some]
      cases htotal : total chain with
      | none => exact .inl ⟨rfl, refused, .divideByZero, rfl⟩
      | some v => exact .inr ⟨v, refused, _, _, rfl, rfl, rfl⟩

/-- **The value of an operand** is its raw value after the check, zero if it has none. -/
theorem evaluateIn_value : (evaluateIn scope usage table operand).value =
    match rawValue scope usage table operand with
    | none => 0
    | some v => (usage.check.apply scope.memorySize v).1 := by
  obtain ⟨hraw, -, h⟩ | ⟨vs, -, -, ⟨hraw, _, _, h⟩ | ⟨v, _, _, _, hraw, -, h⟩⟩ :=
    evaluateIn_cases scope usage table operand
  · rw [h, hraw]
  · rw [h, hraw]
  · rw [h, hraw]

variable {scope usage table} in
/-- **What every reference keeps** of the table, an operand keeps. -/
theorem evaluateIn_keeps {P : SymbolTable → Prop}
    (hlookup : ∀ t name, isSymbol t.divide name = true → P t →
      P (t.lookup name scope.line usage.ordered scope.head scope.entering).table)
    (h : P table) : P (evaluateIn scope usage table operand).table := by
  obtain ⟨-, -, he⟩ | ⟨vs, rfl, -, ⟨-, _, _, he⟩ | ⟨_, _, _, _, -, -, he⟩⟩ :=
    evaluateIn_cases scope usage table operand
  · rwa [he]
  · rw [he]
    exact valuesOf_keeps hlookup h _
  · rw [he]
    exact valuesOf_keeps hlookup h _

theorem evaluateIn_noted :
    SymbolTable.Noted scope.entering table (evaluateIn scope usage table operand).table :=
  evaluateIn_keeps operand (fun t _ _ h => h.trans (t.lookup_noted ..)) (.refl ..)

/-- **An operand that raises no error** has only settled keys. -/
theorem settled_of_evaluateIn
    (h : ∀ r ∈ (evaluateIn scope usage table operand).reports, r.isError = false) :
    ∀ key ∈ operandKeys table.divide scope.head operand,
      table.Settled key scope.line usage.ordered := by
  obtain ⟨-, hkeys, -⟩ | ⟨vs, rfl, hblank, ⟨-, _, c, he⟩ | ⟨_, _, _, _, -, hsome, he⟩⟩ :=
    evaluateIn_cases scope usage table operand
  · simp [hkeys]
  · have := h (error c) (by rw [he]; simp)
    simp [Report.isError, error] at this
  · rw [operandKeys, hblank]
    refine settled_of_valuesOf table _ hsome fun r hr => h r ?_
    rw [he]
    exact List.mem_append_left _ (List.mem_append_left _ (List.mem_append_left _ hr))

/-- An operand that raises no error is zero, or has a raw value that its check lets pass. -/
theorem evaluateIn_value_of_clean
    (h : ∀ r ∈ (evaluateIn scope usage table operand).reports, r.isError = false) :
    (evaluateIn scope usage table operand).value = 0 ∨
      ∃ v, (evaluateIn scope usage table operand).value = (usage.check.apply scope.memorySize v).1 ∧
        ∀ r ∈ (usage.check.apply scope.memorySize v).2, r.isError = false := by
  obtain ⟨-, -, he⟩ | ⟨vs, -, -, ⟨-, _, _, he⟩ | ⟨v, _, _, _, -, -, he⟩⟩ :=
    evaluateIn_cases scope usage table operand
  · exact .inl (by rw [he])
  · exact .inl (by rw [he])
  · refine .inr ⟨v, by rw [he], fun r hr => h r ?_⟩
    rw [he]
    exact List.mem_append_left _ (List.mem_append_right _ hr)

theorem mem_reports_of_check {v : Word} (hv : rawValue scope usage table operand = some v) :
    ∀ r ∈ (usage.check.apply scope.memorySize v).2,
      r ∈ (evaluateIn scope usage table operand).reports := by
  obtain ⟨hnone, -⟩ | ⟨vs, -, -, ⟨hnone, -⟩ | ⟨w, _, _, _, hw, -, he⟩⟩ :=
    evaluateIn_cases scope usage table operand
  · rw [hnone] at hv
    cases hv
  · rw [hnone] at hv
    cases hv
  · rw [hw] at hv
    cases hv
    rw [he]
    exact fun r hr => List.mem_append_left _ (List.mem_append_right _ hr)

theorem check_of_clean (h : ∀ r ∈ (evaluateIn scope usage table operand).reports, r.isError = false)
    {v : Word} (hv : rawValue scope usage table operand = some v) :
    ∀ r ∈ (usage.check.apply scope.memorySize v).2, r.isError = false :=
  fun r hr => h r (mem_reports_of_check _ _ _ _ hv r hr)

end Operands

/-- **The raw value of an operand** depends on the table through the values of its keys. -/
theorem rawValue_congr {scope scope' : Scope} {usage : Usage} {t u : SymbolTable} {operand : Text}
    (hdivide : u.divide = t.divide) (hhead : scope'.head = scope.head)
    (hline : scope'.line = scope.line)
    (hkeys : ∀ key ∈ operandKeys t.divide scope.head operand,
      u.valueAt key scope.line usage.ordered = t.valueAt key scope.line usage.ordered) :
    rawValue scope' usage u operand = rawValue scope usage t operand := by
  unfold rawValue
  rw [hdivide]
  dsimp only
  by_cases hblank : operand.isBlank = true
  · simp [hblank]
  · rw [operandKeys, if_neg hblank] at hkeys
    rw [chainOf_congr hdivide hhead hline _ hkeys]

end SpsAssembler
