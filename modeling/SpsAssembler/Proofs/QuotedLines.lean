import SpsAssembler.Proofs.Quotations

/-!
# Messages quote the lines they are about

Every step that reports is looked at once: what it quotes is a text of its statement, and a statement
has the texts of its line. So the messages of a pass quote only what was read in it, and keys.

* `Assembly.Quotes`: the messages that wait quote texts of one sort;
* `parse_parts`: a statement has the texts of its line;
* `place_quotes`, `encode_quotes`: steps that report;
* **`quotes_of_handleLine`**, **`runPass_quotes`**: a line, and a pass.
-/

namespace SpsAssembler

/-! ## Steps -/

/-- A head is in force, the names have characters of keys, and the messages that wait quote texts of
one sort. -/
structure Assembly.Quotes (Q : Text → Prop) (a : Assembly) : Prop where
  head : isHead a.head = true
  names : a.symbols.Spelled
  pending : ∀ d ∈ a.log.pending, Q d.cause.quoted

/-- The label, the operation and the operands of a line are texts of one sort. -/
structure Line.Quotes (Q : Text → Prop) (l : Line) : Prop where
  label : Q l.label
  operation : Q l.operation
  operands : Q l.operands

/-- The texts of a statement that messages quote are of one sort. -/
structure Statement.Quotes (Q : Text → Prop) (s : Statement) : Prop where
  label : Q s.label
  mnemonic : s.kind ∈ [.send, .tcd, .tra] → Q s.descriptor.mnemonic
  operands : ∀ t ∈ s.operands, Q t

/-- The step keeps it so that messages quote texts of one sort. -/
def Step.Quotes {α : Type} (Q : Text → Prop) (x : Step α) : Prop :=
  ∀ a, a.Quotes Q → (x a).2.Quotes Q

/-- The step keeps it so that messages quote texts of one sort, also when it stops at a fault. -/
def Build.Quotes {α : Type} (Q : Text → Prop) (x : Build α) : Prop :=
  ∀ a, a.Quotes Q → (Build.final (x a)).Quotes Q

variable {α β : Type} {Q : Text → Prop}

theorem Assembly.Quotes.raise {a : Assembly} (h : a.Quotes Q) {reports : List (Report Cause)}
    (hreports : Throughout (Q ·.quoted) reports) : (a.raise reports).Quotes Q where
  head := h.head
  names := h.names
  pending := by
    obtain ⟨ds, hds, hcauses⟩ := a.log.pending_raiseAll reports
    intro d hd
    change d ∈ (a.log.raiseAll reports).pending at hd
    rw [hds] at hd
    rcases List.mem_append.mp hd with hd | hd
    · exact h.pending d hd
    · obtain ⟨r, hr, hcause⟩ := hcauses d hd
      rw [hcause]
      exact hreports r hr

namespace Step.Quotes

theorem pure (v : α) : Step.Quotes Q (pure v) := fun _ h => h

theorem bind {x : Step α} {f : α → Step β} (hx : Step.Quotes Q x) (hf : ∀ v, Step.Quotes Q (f v)) :
    Step.Quotes Q (x >>= f) := fun a h => hf _ _ (hx a h)

theorem get_bind {f : Assembly → Step β} (hf : ∀ a, Step.Quotes Q (f a)) :
    Step.Quotes Q (get >>= f) := fun a h => hf a a h

theorem ite {c : Prop} [Decidable c] {x y : Step α} (hx : Step.Quotes Q x) (hy : Step.Quotes Q y) :
    Step.Quotes Q (if c then x else y) := by
  split
  · exact hx
  · exact hy

theorem closed (Q : Text → Prop) : Step.Closed fun _ => Step.Quotes Q := ⟨pure, bind⟩

end Step.Quotes

namespace Build.Quotes

theorem pure (v : α) : Build.Quotes Q (pure v) := fun _ h => h

theorem lift {x : Step α} (hx : Step.Quotes Q x) : Build.Quotes Q (liftM x) := hx

theorem bind {x : Build α} {f : α → Build β} (hx : Build.Quotes Q x)
    (hf : ∀ v, Build.Quotes Q (f v)) : Build.Quotes Q (x >>= f) := by
  intro a h
  have hfinal := hx a h
  cases hxa : x a with
  | ok v b =>
    rw [hxa] at hfinal
    rw [bind_ok hxa]
    exact hf v b hfinal
  | error e b =>
    rw [hxa] at hfinal
    rwa [bind_error hxa]

theorem ite {c : Prop} [Decidable c] {x y : Build α} (hx : Build.Quotes Q x) (hy : Build.Quotes Q y) :
    Build.Quotes Q (if c then x else y) := by
  split
  · exact hx
  · exact hy

theorem ofExcept_bind {x : Except Fault α} {f : α → Build β}
    (hf : ∀ v, x = .ok v → Build.Quotes Q (f v)) :
    Build.Quotes Q (MonadExcept.ofExcept x >>= f) := by
  intro a h
  cases x with
  | ok v => exact hf v rfl a h
  | error e => exact h

end Build.Quotes

theorem report_quotes {reports : List (Report Cause)} (h : Throughout (Q ·.quoted) reports) :
    Step.Quotes Q (report reports) := fun _ ha => ha.raise h

theorem reportIf_quotes (c : Bool) {r : Report Cause} (h : Q r.cause.quoted) :
    Step.Quotes Q (reportIf c r) := report_quotes (.ite (.one h) .nil)

section Parts

variable (hQ : Quotable Q)

include hQ

theorem coversOperand {divide : Bool} {head : Byte} {operand : Text} (hhead : isHead head = true)
    (h : Q operand) : CoversOperand (Q ·.quoted) divide head operand where
  value c hc := by
    have hnone : c.quoted = [] := by cases c <;> first | rfl | cases hc
    rw [hnone]
    exact hQ.nil
  whole := h
  index index hindex := ⟨hQ.part hindex.subset h, hQ.part hindex.subset h⟩
  name name c hname hkey :=
    hQ.spelled ((referenceKey_spelled hhead (spelled_of_isSymbol hname)).2 c hkey)
  key name key hname hkey := by
    have hspelled := (referenceKey_spelled hhead (spelled_of_isSymbol hname)).1 key hkey
    exact ⟨hQ.spelled hspelled, hQ.spelled hspelled⟩

theorem evaluate_quotes {operand : Text} (h : Q operand) (usage : Usage) :
    Step.Quotes Q (evaluate operand usage) := by
  intro a ha
  have hreports : Throughout (Q ·.quoted) (evaluateIn a.scope usage a.symbols operand).reports :=
    evaluateIn_throughout (coversOperand hQ ha.head h)
  have htable : Assembly.Quotes Q
      { a with symbols := (evaluateIn a.scope usage a.symbols operand).table } :=
    ⟨ha.head, evaluateIn_spelled ha.names ha.head usage operand, ha.pending⟩
  rw [evaluate_apply]
  exact htable.raise hreports

omit hQ in
theorem evaluateQuietly_quotes (operand : Text) (usage : Usage) :
    Step.Quotes Q (evaluateQuietly operand usage) := by
  intro a ha
  rw [evaluateQuietly_eq]
  exact ⟨ha.head, evaluateIn_spelled ha.names ha.head usage operand, ha.pending⟩

theorem evaluateLayout_quotes {operand : Text} (h : Q operand) (check : Check) :
    Step.Quotes Q (evaluateLayout operand check) :=
  .get_bind fun _ => .bind (evaluate_quotes hQ h _) fun _ => .pure _

theorem evaluateLength_quotes {operand : Text} (h : Q operand) :
    Step.Quotes Q (evaluateLength operand) := evaluateLayout_quotes hQ h _

/-! ## Parsing -/

theorem splitText_quotes (text : Text) : Step.Quotes Q (splitText text) := by
  rw [splitText_eq]
  cases text.dropWhile (· != Byte.comma) with
  | nil => exact .pure _
  | cons b rest =>
    refine .get_bind fun a => .bind (evaluateQuietly_quotes _ _) fun n => .ite ?_ (.pure _)
    exact .bind (reportIf_quotes _ hQ.nil) fun _ => .pure _

theorem splitOperands_quotes (d : Descriptor) (text : Text) :
    Step.Quotes Q (splitOperands d text) := by
  unfold splitOperands
  split
  · exact splitText_quotes hQ text
  · exact splitText_quotes hQ text
  · rw [splitAddresses_eq]
    exact .bind (reportIf_quotes _ hQ.nil) fun _ => .pure _
  · exact .pure _

theorem parse_quotes {line : Line} (h : line.Quotes Q) : Step.Quotes Q (parse line) := by
  rw [parse_eq]
  refine .get_bind fun a => .ite ?_ (.ite (.pure _) (.ite (.pure _) (.ite ?_ ?_)))
  · exact .bind (report_quotes (.one hQ.nil)) fun _ => .pure _
  · exact .bind (report_quotes (.one hQ.nil)) fun _ => .pure _
  · cases Descriptor.find? line.operation with
    | none =>
      have hcause : ∀ first, Q (unknownOperation first line.operation).quoted := by
        intro first
        unfold unknownOperation
        split <;> exact h.operation
      exact .bind (report_quotes (.one (hcause _))) fun _ => .pure _
    | some d =>
      exact .bind (reportIf_quotes _ h.operation) fun _ =>
        .bind (splitOperands_quotes hQ d line.operands) fun _ => .pure _

theorem splitFields {text : Text} (h : Q text) : ∀ t ∈ text.fields Byte.comma, Q t.strip :=
  fun _ ht => hQ.strip (hQ.part (fun _ hb => Text.mem_of_mem_fields ht hb) h)

theorem splitOperands_parts {text : Text} (h : Q text) (d : Descriptor) (a : Assembly) :
    ∀ t ∈ (splitOperands d text a).1, Q t := by
  have hlength : Q (Text.strip (text.takeWhile (· != Byte.comma))) :=
    hQ.strip (hQ.part (List.takeWhile_prefix _).subset h)
  have htext : ∀ a, ∀ t ∈ (splitText text a).1, Q t := by
    intro a
    rw [splitText_eq]
    have hbehind : text.dropWhile (· != Byte.comma) ⊆ text := (List.dropWhile_suffix _).subset
    cases hrest : text.dropWhile (· != Byte.comma) with
    | nil => simpa using ⟨hlength, hQ.nil⟩
    | cons b rest =>
      rw [hrest] at hbehind
      have hpart : ∀ t, t ⊆ rest → Q t := fun t ht =>
        hQ.part (fun c hc => hbehind (List.mem_cons_of_mem b (ht hc))) h
      simp only [Step.bind_apply, Step.get_apply, Step.ite_apply]
      split
      · have haddress : ∀ fields : List Text, (∀ t ∈ fields, Q t.strip) →
            Q (Text.strip ((fields.drop 1).headD [])) := by
          intro fields hfields
          rw [List.headD_eq_head?_getD]
          cases hhead : (fields.drop 1).head? with
          | none => exact hQ.strip hQ.nil
          | some t => exact hfields t (List.mem_of_mem_drop (List.mem_of_mem_head? hhead))
        simp only [Step.pure_apply, List.forall_mem_cons]
        exact ⟨hlength, hpart _ (List.take_subset _ _),
          haddress _ (splitFields hQ (hpart _ (List.drop_subset _ _))), List.forall_mem_nil _⟩
      · simp only [Step.pure_apply, List.forall_mem_cons]
        exact ⟨hlength, hpart _ (List.Subset.refl _), hQ.nil, List.forall_mem_nil _⟩
  have hfields : ∀ n, ∀ t ∈ ((text.fields Byte.comma).take n).map Text.strip, Q t := by
    intro n t ht
    obtain ⟨u, hu, rfl⟩ := List.mem_map.mp ht
    exact splitFields hQ h u (List.mem_of_mem_take hu)
  have hfixed : ∀ t ∈ splitFixed d.operands text, Q t := by
    intro t ht
    rw [splitFixed_eq] at ht
    rcases List.mem_append.mp ht with ht | ht
    · exact hfields _ t ht
    · rw [(List.mem_replicate.mp ht).2]
      exact hQ.nil
  unfold splitOperands
  cases d.kind with
  | dac | dsac => exact htext a
  | dsa =>
    change ∀ t ∈ (splitAddresses text a).1, Q t
    rw [splitAddresses_eq]
    exact hfields maxAddressOperands
  | _ => exact hfixed

/-- **The statement of a line** has the texts of the line. -/
theorem parse_parts {line : Line} (h : line.Quotes Q) (a : Assembly) :
    (parse line a).1.Quotes Q := by
  have hkinds : Kind.unknown ∉ [Kind.send, .tcd, .tra] ∧ Kind.comment ∉ [Kind.send, .tcd, .tra] := by
    decide
  have hunknown : Statement.Quotes Q { line } := ⟨h.label, fun hkind => absurd hkind hkinds.1, nofun⟩
  rw [parse_apply]
  split_ifs
  · exact hunknown
  · exact hunknown
  · exact ⟨h.label, fun hkind => absurd hkind hkinds.2, nofun⟩
  · exact hunknown
  · cases hd : Descriptor.find? line.operation with
    | none => exact hunknown
    | some d =>
      have hmnemonic : d.mnemonic = line.operation := by simpa using List.find?_some hd
      exact ⟨h.label, fun _ => hmnemonic ▸ h.operation, splitOperands_parts hQ h.operands d _⟩

theorem Statement.Quotes.operand {s : Statement} (h : s.Quotes Q) (i : Nat) : Q (s.operand i) := by
  rw [s.operand_eq, List.getD_eq_getElem?_getD]
  cases hget : s.operands[i]? with
  | none => exact hQ.nil
  | some t => exact h.operands t (List.mem_of_getElem? hget)

/-! ## Placing -/

omit hQ in
theorem takeCells_quotes (n : Word) : Step.Quotes Q (takeCells n) := fun _ h => { h with }

omit hQ in
theorem alignEven_quotes : Step.Quotes Q alignEven := by
  intro a h
  change Assembly.Quotes Q (if _ then _ else _)
  split
  · exact { h with }
  · exact h

theorem placeAt_quotes {address : Text} (h : Q address) (aligned : Bool) (check : Check)
    (length offset : Word) : Step.Quotes Q (placeAt aligned check length offset address) := by
  unfold placeAt
  refine .ite ?_ (.bind (evaluateLayout_quotes hQ h _) fun _ => .pure _)
  cases aligned with
  | false => exact .bind (takeCells_quotes _) fun _ => .pure _
  | true => exact .bind alignEven_quotes fun _ => .bind (takeCells_quotes _) fun _ => .pure _

theorem constantLength_quotes {operand : Text} (h : Q operand) :
    Step.Quotes Q (constantLength operand) :=
  .bind (evaluateLength_quotes hQ h) fun _ => .bind (reportIf_quotes _ hQ.nil) fun _ => .pure _

theorem octalLength_quotes {operand : Text} (h : Q operand) :
    Step.Quotes Q (octalLength operand) := by
  rw [octalLength_eq]
  refine .bind (.bind (evaluateLength_quotes hQ h) fun _ => .ite ?_ (.ite ?_ (.pure _))) fun _ =>
    .pure _
  · exact .bind (report_quotes (.one hQ.nil)) fun _ => .pure _
  · exact .bind (report_quotes (.one hQ.nil)) fun _ => .pure _

omit hQ in
theorem changeHead_quotes {operand : Text} (h : Q operand) : Step.Quotes Q (changeHead operand) := by
  have hreport : Step.Quotes Q (report [error (.invalidHead operand)]) := report_quotes (.one h)
  have hturn : ∀ {head : Byte}, isHead head = true →
      Step.Quotes Q (modify ({ · with head }) : Step Unit) :=
    fun hhead _ ha => ⟨hhead, ha.names, ha.pending⟩
  unfold changeHead
  refine .ite (hturn (by decide)) ?_
  split
  · split
    · exact hturn (by assumption)
    · exact hreport
  · exact hreport

theorem define_quotes {t : SymbolTable} {name : Text} (h : Q name) {head : Byte}
    (hhead : isHead head = true) (address : Word) (kind : Kind) (line : Word) :
    Throughout (Q ·.quoted) (t.define name address kind line head).2 := by
  unfold SymbolTable.define
  split
  · exact .nil
  · split
    · exact .one h
    · rename_i hlabel
      dsimp only
      split
      · have hname := SymbolTable.isSymbol_of_isLabel (by simpa using hlabel : isLabel t.divide name = true)
        exact .one (hQ.spelled (spelled_headKey hhead (spelled_of_isSymbol hname)))
      · exact .nil

theorem verify_quotes {t : SymbolTable} {name : Text} (h : Q name) {head : Byte}
    (hhead : isHead head = true) (line : Word) :
    Throughout (Q ·.quoted) (t.verify name line head) := by
  unfold SymbolTable.verify
  split
  · exact .nil
  · split
    · exact .one h
    · rename_i hsymbol
      have hname : isSymbol t.divide name = true := by simpa using hsymbol
      have hkey := hQ.spelled (spelled_headKey hhead (spelled_of_isSymbol hname))
      dsimp only
      split
      · exact .ite (.one hkey) .nil
      · exact .nil

section Statements

variable {s : Statement} (h : s.Quotes Q)

include h

omit hQ in
theorem unexpectedLabel_quotes : Step.Quotes Q (unexpectedLabel s) := reportIf_quotes _ h.label

theorem placeEnd_quotes : Step.Quotes Q (placeEnd s) := by
  refine .bind (fun _ ha => { ha with }) fun _ => .bind (unexpectedLabel_quotes h) fun _ => ?_
  refine .bind (evaluateLayout_quotes hQ (h.operand hQ 0) _) fun _ => ?_
  exact .bind (fun _ ha => { ha with }) fun _ => .pure _

theorem placeOrigin_quotes : Step.Quotes Q (placeOrigin s) :=
  .bind (evaluateLayout_quotes hQ (h.operand hQ 0) _) fun _ =>
    .bind (fun _ ha => { ha with }) fun _ => .pure _

theorem placeBlock_quotes : Step.Quotes Q (placeBlock s) := by
  refine .bind (evaluateLength_quotes hQ (h.operand hQ 0)) fun _ =>
    .bind (evaluateLength_quotes hQ (h.operand hQ 1)) fun _ => .ite ?_ (.get_bind fun _ => ?_)
  · exact .bind (takeCells_quotes _) fun _ => .pure _
  · exact .bind (evaluateLayout_quotes hQ (h.operand hQ 2) _) fun _ => .pure _

theorem placeFields_quotes : Step.Quotes Q (placeFields s) := by
  refine .bind ((Step.Quotes.closed Q).mapM fun j _ => evaluateLength_quotes hQ (h.operand hQ _))
    fun _ => ?_
  exact .bind (reportIf_quotes _ hQ.nil) fun _ =>
    .bind (placeAt_quotes hQ (h.operand hQ 0) _ _ _ _) fun _ => .pure _

/-- **Placing a statement** quotes its texts. -/
theorem place_quotes : Step.Quotes Q (place s) := by
  have hlength : ∀ i, Step.Quotes Q (constantLength (s.operand i)) := fun i =>
    constantLength_quotes hQ (h.operand hQ i)
  have hcount : ∀ i, Step.Quotes Q (evaluateLength (s.operand i)) := fun i =>
    evaluateLength_quotes hQ (h.operand hQ i)
  have hplace : ∀ i aligned check length offset,
      Step.Quotes Q (placeAt aligned check length offset (s.operand i)) := fun i =>
    placeAt_quotes hQ (h.operand hQ i)
  have hcontrol : s.kind ∈ [.send, .tcd, .tra] →
      Step.Quotes Q (report [warning (.unsupportedControl s.descriptor.mnemonic)]) := fun hkind =>
    report_quotes (.one (h.mnemonic hkind))
  unfold place
  cases hkind : s.kind with
  | unknown | comment | unlisted => exact .pure _
  | dend => exact placeEnd_quotes hQ h
  | dorg => exact placeOrigin_quotes hQ h
  | head =>
    exact .bind (unexpectedLabel_quotes h) fun _ =>
      .bind (changeHead_quotes (h.operand hQ 0)) fun _ => .pure _
  | send | tcd =>
    exact .bind (unexpectedLabel_quotes h) fun _ =>
      .bind (hcontrol (by rw [hkind]; decide)) fun _ => .pure _
  | tra => exact .bind (hcontrol (by rw [hkind]; decide)) fun _ => .pure _
  | dac | dsac => exact .bind (hlength 0) fun _ => hplace 2 _ _ _ _
  | das => exact .bind (hcount 0) fun _ => hplace 1 _ _ _ _
  | dc | dsc => exact .bind (hlength 0) fun _ => hplace 2 _ _ _ _
  | dnb => exact .bind (hlength 0) fun _ => hplace 1 _ _ _ _
  | dgm => exact hplace 0 _ _ _ _
  | dot => exact .bind (octalLength_quotes hQ (h.operand hQ 0)) fun _ => hplace 1 _ _ _ _
  | ds | dss => exact .bind (hcount 0) fun _ => hplace 1 _ _ _ _
  | dsb => exact placeBlock_quotes hQ h
  | dsa => exact .get_bind fun _ => .bind (takeCells_quotes _) fun _ => .pure _
  | dda => exact hplace 0 _ _ _ _
  | dvlc => exact placeFields_quotes hQ h
  | instruction => exact .bind alignEven_quotes fun _ => .bind (takeCells_quotes _) fun _ => .pure _

theorem defineLabel_quotes (p : Placement) : Step.Quotes Q (defineLabel s p) := by
  intro a ha
  rcases defineLabel_apply s p a with ⟨-, hd⟩ | ⟨-, hd⟩ <;> rw [hd]
  · have hnames := ha.names.define ha.head s.label p.labelAddress s.kind a.log.line
    have hstate : Assembly.Quotes Q { a with
        symbols := (a.symbols.define s.label p.labelAddress s.kind a.log.line a.head).1 } :=
      ⟨ha.head, hnames, ha.pending⟩
    exact hstate.raise (define_quotes hQ h.label ha.head _ _ _)
  · exact ha.raise (verify_quotes hQ h.label ha.head _)

theorem layOut_quotes : Step.Quotes Q (layOut s) := by
  intro a ha
  have hplace := place_quotes hQ h a ha
  have hbefore : (beforeLabel s a).Quotes Q := by
    unfold beforeLabel
    split
    · have hbounds : Step.Quotes Q (checkBounds (place s a).1) :=
        .get_bind fun _ => reportIf_quotes _ hQ.nil
      exact hbounds _ hplace
    · exact hplace
  rw [layOut_apply]
  dsimp only
  split
  · exact defineLabel_quotes hQ h _ _ hbefore
  · exact hbefore

end Statements

/-! ## Encoding -/

/-- What a numeric constant is refused for is a part of it. -/
theorem encodeNumber_error {length : Word} {extended : Bool} {text : Text} (h : Q text) {c : Constant}
    (hc : encodeNumber length extended text = .ok c) : ∀ e ∈ c.error, Q e.cause.quoted := by
  rw [encodeNumber_eq] at hc
  split at hc
  · cases hc
  · extract_lets negative marked unmarked digits room mark excess cells signed lost at hc
    have hunmarked : unmarked ⊆ text := by
      unfold unmarked
      split
      · exact List.dropLast_subset _
      · exact List.Subset.refl _
    have hdigits : digits ⊆ text := by
      unfold digits
      split
      · exact fun b hb => hunmarked (List.mem_of_mem_drop hb)
      · exact hunmarked
    split at hc
    · cases hc
      rintro e ⟨⟩
      exact hQ.part hdigits h
    · cases hc
      intro e he
      cases hlost : lost with
      | true =>
        rw [hlost] at he
        cases he
        exact hQ.nil
      | false =>
        rw [hlost] at he
        cases he

omit hQ in
theorem encodeText_error {length : Word} {text : Text} (h : Q text) {c : Constant}
    (hc : encodeText length text = .ok c) : ∀ e ∈ c.error, Q e.cause.quoted := by
  rw [encodeText_eq] at hc
  split at hc
  · cases hc
  · dsimp only at hc
    generalize (if isMarked text = true then text.dropLast else text) = body at hc
    split at hc
    · cases hc
      rintro e ⟨⟩
      exact h
    · cases hc
      exact nofun

omit hQ in
theorem constantCells_quotes {c : Except Fault Constant}
    (h : ∀ k, c = .ok k → ∀ e ∈ k.error, Q e.cause.quoted) : Build.Quotes Q (constantCells c) := by
  refine .ofExcept_bind fun k hk => .bind (.lift (report_quotes ?_)) fun _ => .pure _
  have herror := h k hk
  cases hcause : k.error with
  | none => exact .nil
  | some e => exact .one (herror e hcause)

section Statements

variable {s : Statement} (h : s.Quotes Q)

include h

theorem putAddresses_quotes (p : Placement) (v : Value) : Step.Quotes Q (putAddresses s p v) := by
  refine .get_bind fun _ => (Step.Quotes.closed Q).foldlM (fun _ item hitem => ?_) _
  have hoperand : item.1 ∈ s.operands := List.fst_mem_of_mem_zipIdx hitem
  exact .bind (evaluate_quotes hQ (h.operands _ hoperand) _) fun _ => .pure _

theorem encodeDisk_quotes : Step.Quotes Q (encodeDisk s) := by
  have hsector : ∀ i, Step.Quotes Q (sectorOperand (s.operand i)) := by
    refine fun i => .bind (evaluate_quotes hQ (h.operand hQ i) _) fun _ => .ite ?_ (.pure _)
    exact .bind (report_quotes (.one hQ.nil)) fun _ => .pure _
  have hcount : ∀ i, Step.Quotes Q (sectorCountOperand (s.operand i)) := by
    refine fun i => .bind (evaluate_quotes hQ (h.operand hQ i) _) fun _ => .ite ?_ (.ite ?_ (.pure _))
    · exact .bind (report_quotes (.one hQ.nil)) fun _ => .pure _
    · exact .bind (report_quotes (.one hQ.nil)) fun _ => .pure _
  exact .bind (evaluate_quotes hQ (h.operand hQ 1) _) fun _ => .bind (hsector 2) fun _ =>
    .bind (hcount 3) fun _ => .bind (evaluateLayout_quotes hQ (h.operand hQ 4) _) fun _ => .pure _

theorem encodeFieldsFrom_quotes (fields : List (Word × Nat)) (stop : Word) (v : Value) :
    Step.Quotes Q (encodeFieldsFrom s fields stop v) := by
  induction fields generalizing stop v with
  | nil => exact .pure v
  | cons field rest ih => exact .bind (evaluate_quotes hQ (h.operand hQ _) _) fun _ => ih _ _

theorem encodeP_quotes (star : Word) : Step.Quotes Q (encodeP s star) := by
  have hoperand := h.operand hQ 0
  refine .get_bind fun _ => ?_
  cases s.descriptor.p with
  | none => exact .bind (reportIf_quotes _ hoperand) fun _ => .pure _
  | reference | referenceEven | referenceOdd | value => exact evaluate_quotes hQ hoperand _

theorem selectCode_quotes (codes : List Word) {outOfRange : Nat → Word → Cause} (i : Nat) (star : Word)
    (hcause : ∀ n w, (outOfRange n w).quoted = []) :
    Step.Quotes Q (selectCode codes outOfRange (s.operand i) star) := by
  rw [selectCode_eq]
  refine .bind (evaluate_quotes hQ (h.operand hQ i) _) fun _ => .ite (.pure _) ?_
  exact .bind (report_quotes (.one ((hcause _ _).symm ▸ hQ.nil))) fun _ => .pure _

theorem bitAddress_quotes (star : Word) : Step.Quotes Q (bitAddress s star) := by
  refine .bind (evaluate_quotes hQ (h.operand hQ 1) _) fun _ =>
    .bind (evaluate_quotes hQ (h.operand hQ 2) _) fun _ => .ite ?_ (.ite (.pure _) (.pure _))
  exact .bind (report_quotes (.one hQ.nil)) fun _ => .pure _

theorem encodeQ_quotes (star : Word) : Step.Quotes Q (encodeQ s star) := by
  have hoperand := h.operand hQ 1
  refine .get_bind fun _ => ?_
  cases s.descriptor.q with
  | none => exact .bind (reportIf_quotes _ hoperand) fun _ => .pure _
  | reference | immediate | immediateIndex | value => exact evaluate_quotes hQ hoperand _
  | referenceBit => exact bitAddress_quotes hQ h star
  | skip | skipAfter | space | spaceAfter => exact selectCode_quotes hQ h _ 1 star fun _ _ => rfl
  | literal =>
    exact .ite (.pure _) (.bind (report_quotes (.one hoperand)) fun _ => evaluate_quotes hQ hoperand _)

theorem buildInstruction_quotes (p : Placement) : Step.Quotes Q (buildInstruction s p) := by
  have hflags : Q (flagsOperand s) := by
    unfold flagsOperand
    split <;> exact h.operand hQ _
  refine .bind (encodeP_quotes hQ h p.star) fun _ => .bind (encodeQ_quotes hQ h p.star) fun _ => ?_
  dsimp only
  split
  · exact .pure _
  · exact .bind (report_quotes (.one hflags)) fun _ => .pure _

/-- **Encoding a statement** quotes its texts. -/
theorem encode_quotes (p : Placement) : Build.Quotes Q (encode s p) := by
  have hnumber : ∀ extended,
      Build.Quotes Q (constantCells (encodeNumber p.length extended (s.operand 1))) := fun _ =>
    constantCells_quotes fun _ => encodeNumber_error hQ (h.operand hQ 1)
  have htext : Build.Quotes Q (constantCells (encodeText (p.length / 2) (s.operand 1))) :=
    constantCells_quotes fun _ => encodeText_error (h.operand hQ 1)
  unfold encode
  cases s.kind with
  | dac | dsac => exact .ite (.bind htext fun _ => .pure _) (.pure _)
  | dc =>
    exact .ite (.pure _) (.bind (hnumber false) fun _ => .ofExcept_bind fun _ _ => .pure _)
  | dsc => exact .ite (.pure _) (hnumber true)
  | dnb => exact .ite (.ofExcept_bind fun _ _ => .pure _) (.pure _)
  | dot => exact .ofExcept_bind fun _ _ => .pure _
  | dsa => exact .ofExcept_bind fun _ _ => .lift (putAddresses_quotes hQ h p _)
  | dda => exact .lift (encodeDisk_quotes hQ h)
  | dvlc =>
    exact .ite (.pure _) (.ofExcept_bind fun _ _ => .lift (encodeFieldsFrom_quotes hQ h _ _ _))
  | instruction =>
    exact .bind (.lift (buildInstruction_quotes hQ h p)) fun _ => .ofExcept_bind fun _ _ => .pure _
  | _ => exact .pure _

end Statements

/-! ## Lines -/

section Lines

variable {s : Statement} {a b : Assembly} {o : Outcome} {processed : Bool} {events : List Event}

theorem store_quotes {address : Word} {value : Value} (h : store address value a = .ok () b)
    (ha : a.Quotes Q) : b.Quotes Q := by
  rcases store_cases h with ⟨-, rfl⟩ | ⟨-, rfl⟩
  · exact ha.raise (.one hQ.nil)
  · exact { ha with }

theorem Processed.quotes (h : Processed s a o b) (hs : s.Quotes Q) (ha : a.Quotes Q) :
    b.Quotes Q := by
  have hlaid := layOut_quotes hQ hs a ha
  rcases h.core with ⟨-, -, rfl⟩ | ⟨-, c, hc, hstore⟩
  · exact hlaid
  · have hencoded := encode_quotes hQ hs o.placement _ hlaid
    rw [hc] at hencoded
    exact store_quotes hQ hstore hencoded

/-- **The messages of a line** quote the texts of the line, and keys. -/
theorem quotes_of_handleLine {line : Line} (hline : line.Quotes Q)
    (h : handleLine line a = .ok (o, processed) b) (ha : a.Quotes Q) : b.Quotes Q := by
  have hparsed := parse_quotes hQ hline (a.atLine line.number) { ha with }
  have hstatement := parse_parts hQ hline (a.atLine line.number)
  cases handles_of_handleLine h with
  | comment => exact hparsed
  | processed _ _ hp => exact (processed_of_process hp).quotes hQ hstatement hparsed
  | beyond =>
    have hraised : ((parse line (a.atLine line.number)).2.raise [error .beyondEnd]).Quotes Q :=
      hparsed.raise (.one hQ.nil)
    exact { hraised with }
  | overrun => exact hparsed

omit hQ in
theorem Assembly.Quotes.raised (h : a.Quotes Q) (n : Nat) :
    ∀ d ∈ raisedIn ((a.log.pending.drop n).map Event.raised), Q d.cause.quoted := by
  rw [raisedIn_map]
  exact fun d hd => h.pending d (List.mem_of_mem_drop hd)

theorem finishLine_quotes {line : Line} (hline : line.Quotes Q)
    (h : finishLine line a = .ok events b) (ha : a.Quotes Q) :
    b.Quotes Q ∧ ∀ d ∈ raisedIn events, Q d.cause.quoted := by
  obtain ⟨o, processed, c, hhandled, -, rfl, rfl⟩ := finishLine_cases h
  have hc := quotes_of_handleLine hQ hline hhandled ha
  refine ⟨⟨hc.head, hc.names, nofun⟩, fun d hd => ?_⟩
  rw [raisedIn_append] at hd
  exact (List.mem_append.mp hd).elim (hc.raised _ d) nofun

omit hQ in
theorem announceError_quotes {line : Word} {cause : Cause} (hcause : Q cause.quoted)
    (h : announceError line cause a = .ok events b) (ha : a.Quotes Q) :
    b.Quotes Q ∧ ∀ d ∈ raisedIn events, Q d.cause.quoted := by
  rw [announceError_apply] at h
  cases h
  have hat : (a.atLine line).Quotes Q := { ha with }
  have hraised : ((a.atLine line).raise [error cause]).Quotes Q := hat.raise (.one hcause)
  exact ⟨hraised, hraised.raised _⟩

/-! ## A pass -/

/-- What messages may quote of something that was read. -/
def Item.Quotes (Q : Text → Prop) : Item Line → Prop
  | .opened _ _ => True
  | .line l => l.Quotes Q
  | .unreadable _ reason => Q reason

theorem sweep_quotes {count : Nat} {items : List (Item Line)} (hitems : ∀ item ∈ items, Item.Quotes Q item)
    (h : sweep count items a = .ok events b) (ha : a.Quotes Q) :
    b.Quotes Q ∧ ∀ d ∈ raisedIn events, Q d.cause.quoted := by
  induction items generalizing count a events with
  | nil =>
    cases h
    exact ⟨ha, nofun⟩
  | cons item items ih =>
    obtain ⟨hitem, hothers⟩ := List.forall_mem_cons.mp hitems
    obtain ⟨next, es, c, fs, hswept, hrest, rfl⟩ := sweep_cons h
    have hfirst : c.Quotes Q ∧ ∀ d ∈ raisedIn es, Q d.cause.quoted := by
      cases hswept with
      | opened file name => exact ⟨ha, List.forall_mem_nil _⟩
      | @unreadable name reason _ _ hfirst =>
        have hcause : Q (Cause.unreadable reason).quoted := hitem
        exact announceError_quotes hcause hfirst ha
      | line hfirst => exact finishLine_quotes hQ hitem hfirst ha
    obtain ⟨hb, hraised⟩ := ih hothers hrest hfirst.1
    rw [raisedIn_append]
    exact ⟨hb, List.forall_mem_append.mpr ⟨hfirst.2, hraised⟩⟩

/-- **The messages of a pass** quote texts of its lines, reasons why a file is unreadable, and keys. -/
theorem runPass_quotes {reading : Reading Line} (hitems : ∀ item ∈ reading.items, Item.Quotes Q item)
    (h : runPass reading a = .ok events b) (ha : a.Quotes Q) :
    b.Quotes Q ∧ ∀ d ∈ raisedIn events, Q d.cause.quoted := by
  obtain ⟨swept, c, hsweep, hclosed⟩ := runPass_cases h
  obtain ⟨hc, hraised⟩ := sweep_quotes hQ hitems hsweep ha
  rcases hclosed with ⟨rfl, rfl, -⟩ | ⟨-, -, closing, hclose, rfl⟩
  · exact ⟨hc, hraised⟩
  · have hcause : Q Cause.missingEnd.quoted := hQ.nil
    obtain ⟨hb, hraised'⟩ := announceError_quotes hcause hclose hc
    rw [raisedIn_append]
    exact ⟨hb, List.forall_mem_append.mpr ⟨hraised, hraised'⟩⟩

end Lines

end Parts

end SpsAssembler
