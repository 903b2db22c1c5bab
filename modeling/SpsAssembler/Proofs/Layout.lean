import SpsAssembler.Proofs.Effects

/-!
# What the placement of a statement depends on

A statement is placed by the address counter and by some of its operands. Two states that agree on
both place it alike, whatever else their tables hold.

* `Statement.layoutOperands`: the operands that position a statement;
* `Step.Relates`, `Tracks`: relations between states that parsing and placing keep;
* **`place_relates`**, **`parse_relates`**: then both states parse and place a statement alike;
* `Assembly.Agrees`, **`parse_agree`**, **`place_agree`**: two states agree on the values of operands;
* `Demanded`, **`place_demands`**: what placing without an error shows of the layout operands;
* `settlesKeys_demanded`: their keys are settled.
-/

namespace SpsAssembler

/-- The places of the operands that position the statements of a kind. -/
def Kind.layoutPlaces : Kind → List Nat
  | dend | dorg | dgm | dda => [0]
  | dac | dsac | dc | dsc => [0, 2]
  | das | dnb | dot | ds | dss => [0, 1]
  | dsb => [0, 1, 2]
  | dvlc => 0 :: (List.range maxFields).map (1 + 2 * ·)
  | _ => []

/-- The operands that position a statement: lengths, counts, powers and addresses. -/
def Statement.layoutOperands (s : Statement) : List Text := s.kind.layoutPlaces.map s.operand

theorem Statement.mem_layoutOperands {s : Statement} {i : Nat} (h : i ∈ s.kind.layoutPlaces) :
    s.operand i ∈ s.layoutOperands := List.mem_map_of_mem h

/-! ## Related states -/

variable {α β : Type} {operands : List Text} {R : Assembly → Assembly → Prop}

/-- The step gives the same answer in related states and leaves them related. -/
def Step.Relates (R : Assembly → Assembly → Prop) (x : Step α) : Prop :=
  ∀ a b, R a b → (x b).1 = (x a).1 ∧ R (x a).2 (x b).2

/-- A relation between states that says enough to parse and place a statement with the given layout
operands, and is kept by all that this does. -/
structure Tracks (operands : List Text) (R : Assembly → Assembly → Prop) : Prop where
  reads : ∀ {a b}, R a b → b.options.model = a.options.model ∧
    b.options.memorySize = a.options.memorySize ∧ b.counter = a.counter ∧ b.last = a.last ∧
    b.ending = a.ending
  report : ∀ {reports}, Unlabelled reports → Step.Relates R (report reports)
  layout : ∀ {operand}, operand ∈ operands → ∀ check, Step.Relates R (evaluateLayout operand check)
  quiet : ∀ {operand}, operand ∈ operands → ∀ usage : Usage, usage.ordered = true →
    Step.Relates R (evaluateQuietly operand usage)
  count : ∀ {a b}, R a b → ∀ counter last, R { a with counter, last } { b with counter, last }
  stop : ∀ {a b}, R a b → ∀ ending, R { a with ending } { b with ending }
  enter : ∀ {a b}, R a b → ∀ entry, R { a with entry } { b with entry }
  turn : operands = [] → ∀ {a b}, R a b → ∀ head, R { a with head } { b with head }

namespace Step.Relates

theorem pure (v : α) : Step.Relates R (pure v) := fun _ _ h => ⟨rfl, h⟩

theorem bind {x : Step α} {f : α → Step β} (hx : Step.Relates R x)
    (hf : ∀ v, Step.Relates R (f v)) : Step.Relates R (x >>= f) := by
  intro a b h
  obtain ⟨hv, hs⟩ := hx a b h
  simp only [Step.bind_apply, hv]
  exact hf _ _ _ hs

theorem get_bind {f : Assembly → Step β} (hf : ∀ a, Step.Relates R (f a))
    (hread : ∀ a b, R a b → f b = f a) : Step.Relates R (get >>= f) := by
  intro a b h
  simp only [Step.bind_apply, Step.get_apply, hread a b h]
  exact hf a a b h

theorem ite {c : Prop} [Decidable c] {x y : Step α} (hx : Step.Relates R x)
    (hy : Step.Relates R y) : Step.Relates R (if c then x else y) := by
  split_ifs
  · exact hx
  · exact hy

theorem closed (R : Assembly → Assembly → Prop) : Step.Closed fun _ => Step.Relates R := ⟨pure, bind⟩

end Step.Relates

/-! ## Parts of statements -/

section Parts

variable (hR : Tracks operands R)
include hR

theorem reportIf_relates (c : Bool) {r : Report Cause} (h : r.cause.concernsLabel = false) :
    Step.Relates R (reportIf c r) := by
  cases c with
  | false => exact hR.report .nil
  | true => exact hR.report (.one h)

theorem evaluateLength_relates {operand : Text} (hmem : operand ∈ operands) :
    Step.Relates R (evaluateLength operand) := hR.layout hmem .positive

theorem takeCells_relates (n : Word) : Step.Relates R (takeCells n) := by
  intro a b h
  obtain ⟨-, -, hcounter, -⟩ := hR.reads h
  refine ⟨hcounter, ?_⟩
  change R _ { b with counter := b.counter + n, last := b.counter + n - tailOf n }
  rw [hcounter]
  exact hR.count h _ _

theorem alignEven_relates : Step.Relates R alignEven := by
  intro a b h
  obtain ⟨-, -, hcounter, hlast, -⟩ := hR.reads h
  refine ⟨rfl, ?_⟩
  change R (if Check.isOdd a.counter then { a with counter := a.counter + 1 } else a)
    (if Check.isOdd b.counter then { b with counter := b.counter + 1 } else b)
  rw [hcounter]
  split
  · rw [hlast]
    exact hR.count h _ _
  · exact h

theorem placeAt_relates {aligned : Bool} {check : Check} {length offset : Word} {address : Text}
    (hmem : address ∈ operands) :
    Step.Relates R (placeAt aligned check length offset address) := by
  refine .ite ?_ ?_
  · cases aligned with
    | false => exact .bind (takeCells_relates hR length) fun _ => .pure _
    | true =>
      exact .bind (alignEven_relates hR) fun _ => .bind (takeCells_relates hR length) fun _ => .pure _
  · exact .bind (hR.layout hmem check) fun _ => .pure _

theorem constantLength_relates {operand : Text} (hmem : operand ∈ operands) :
    Step.Relates R (constantLength operand) :=
  .bind (evaluateLength_relates hR hmem) fun _ => .bind (reportIf_relates hR _ rfl) fun _ => .pure _

theorem octalPower_relates {operand : Text} (hmem : operand ∈ operands) :
    Step.Relates R (octalPower operand) := by
  refine .bind (evaluateLength_relates hR hmem) fun power => .ite ?_ (.ite ?_ (.pure _))
  · exact .bind (hR.report (.one rfl)) fun _ => .pure _
  · exact .bind (hR.report (.one rfl)) fun _ => .pure _

theorem octalLength_relates {operand : Text} (hmem : operand ∈ operands) :
    Step.Relates R (octalLength operand) := by
  rw [octalLength_eq]
  exact .bind (octalPower_relates hR hmem) fun _ => .pure _

theorem unexpectedLabel_relates (s : Statement) : Step.Relates R (unexpectedLabel s) :=
  reportIf_relates hR _ rfl

/-- Both states take the same head. No operand may be left to evaluate under it. -/
theorem changeHead_relates (hnone : operands = []) (operand : Text) :
    Step.Relates R (changeHead operand) := by
  have hmove : ∀ h : Byte, Step.Relates R (modify ({ · with head := h })) := fun h a b hab =>
    ⟨rfl, hR.turn hnone hab h⟩
  have hreport : Step.Relates R (report [error (.invalidHead operand)]) := hR.report (.one rfl)
  refine .ite (hmove _) ?_
  split
  · exact .ite (hmove _) hreport
  · exact hreport

theorem checkBounds_relates (p : Placement) : Step.Relates R (checkBounds p) := by
  refine .get_bind (fun _ => reportIf_relates hR _ rfl) fun a b h => ?_
  rw [(hR.reads h).2.1]

/-! ## Statements -/

variable (s : Statement)

theorem placeEnd_relates (h0 : s.operand 0 ∈ operands) : Step.Relates R (placeEnd s) := by
  refine .bind (fun _ _ h => ⟨rfl, hR.stop h _⟩) fun _ =>
    .bind (unexpectedLabel_relates hR s) fun _ => .bind (hR.layout h0 _) fun _ => ?_
  exact .bind (fun _ _ h => ⟨rfl, hR.enter h _⟩) fun _ => .pure _

theorem placeOrigin_relates (h0 : s.operand 0 ∈ operands) : Step.Relates R (placeOrigin s) :=
  .bind (hR.layout h0 _) fun _ => .bind (fun _ _ h => ⟨rfl, hR.count h _ _⟩) fun _ => .pure _

theorem placeBlock_relates (h0 : s.operand 0 ∈ operands) (h1 : s.operand 1 ∈ operands)
    (h2 : s.operand 2 ∈ operands) : Step.Relates R (placeBlock s) := by
  refine .bind (evaluateLength_relates hR h0) fun size =>
    .bind (evaluateLength_relates hR h1) fun count => ?_
  refine .ite (.bind (takeCells_relates hR _) fun _ => .pure _)
    (.get_bind (fun _ => .bind (hR.layout h2 _) fun _ => .pure _) fun a b h => ?_)
  rw [(hR.reads h).2.2.1]

theorem placeAddresses_relates : Step.Relates R (placeAddresses s) := by
  refine .get_bind (fun _ => .bind (takeCells_relates hR _) fun _ => .pure _) fun a b h => ?_
  rw [(hR.reads h).2.2.2.1]

theorem placeFields_relates (h0 : s.operand 0 ∈ operands)
    (h1 : ∀ j ∈ List.range maxFields, s.operand (1 + 2 * j) ∈ operands) :
    Step.Relates R (placeFields s) := by
  refine .bind ((Step.Relates.closed R).mapM fun j hj => evaluateLength_relates hR (h1 j hj))
    fun widths => ?_
  exact .bind (reportIf_relates hR _ rfl) fun _ => .bind (placeAt_relates hR h0) fun _ => .pure _

end Parts

/-- **Related states place a statement alike.** -/
theorem place_relates {s : Statement} (hR : Tracks s.layoutOperands R) :
    Step.Relates R (place s) := by
  have hmem : ∀ i ∈ s.kind.layoutPlaces, s.operand i ∈ s.layoutOperands :=
    fun i => s.mem_layoutOperands
  have hcontrol : Step.Relates R (report [warning (.unsupportedControl s.descriptor.mnemonic)]) :=
    hR.report (.one rfl)
  unfold place
  cases hkind : s.kind <;> rw [hkind] at hmem
  case unknown => exact .pure _
  case comment => exact .pure _
  case unlisted => exact .pure _
  case dend => exact placeEnd_relates hR s (hmem 0 (by decide))
  case dorg => exact placeOrigin_relates hR s (hmem 0 (by decide))
  case head =>
    have hnone : s.layoutOperands = [] := by rw [Statement.layoutOperands, hkind]; rfl
    exact .bind (unexpectedLabel_relates hR s) fun _ =>
      .bind (changeHead_relates hR hnone _) fun _ => .pure _
  case send => exact .bind (unexpectedLabel_relates hR s) fun _ => .bind hcontrol fun _ => .pure _
  case tcd => exact .bind (unexpectedLabel_relates hR s) fun _ => .bind hcontrol fun _ => .pure _
  case tra => exact .bind hcontrol fun _ => .pure _
  case dac =>
    exact .bind (constantLength_relates hR (hmem 0 (by decide))) fun _ =>
      placeAt_relates hR (hmem 2 (by decide))
  case dsac =>
    exact .bind (constantLength_relates hR (hmem 0 (by decide))) fun _ =>
      placeAt_relates hR (hmem 2 (by decide))
  case das =>
    exact .bind (evaluateLength_relates hR (hmem 0 (by decide))) fun _ =>
      placeAt_relates hR (hmem 1 (by decide))
  case dc =>
    exact .bind (constantLength_relates hR (hmem 0 (by decide))) fun _ =>
      placeAt_relates hR (hmem 2 (by decide))
  case dsc =>
    exact .bind (constantLength_relates hR (hmem 0 (by decide))) fun _ =>
      placeAt_relates hR (hmem 2 (by decide))
  case dnb =>
    exact .bind (constantLength_relates hR (hmem 0 (by decide))) fun _ =>
      placeAt_relates hR (hmem 1 (by decide))
  case dgm => exact placeAt_relates hR (hmem 0 (by decide))
  case dot =>
    exact .bind (octalLength_relates hR (hmem 0 (by decide))) fun _ =>
      placeAt_relates hR (hmem 1 (by decide))
  case ds =>
    exact .bind (evaluateLength_relates hR (hmem 0 (by decide))) fun _ =>
      placeAt_relates hR (hmem 1 (by decide))
  case dss =>
    exact .bind (evaluateLength_relates hR (hmem 0 (by decide))) fun _ =>
      placeAt_relates hR (hmem 1 (by decide))
  case dsb =>
    exact placeBlock_relates hR s (hmem 0 (by decide)) (hmem 1 (by decide)) (hmem 2 (by decide))
  case dsa => exact placeAddresses_relates hR s
  case dda => exact placeAt_relates hR (hmem 0 (by decide))
  case dvlc =>
    exact placeFields_relates hR s (hmem 0 List.mem_cons_self) fun j hj =>
      hmem _ (List.mem_cons_of_mem _ (List.mem_map_of_mem hj))
  case instruction =>
    exact .bind (alignEven_relates hR) fun _ => .bind (takeCells_relates hR _) fun _ => .pure _

/-! ## Parsing -/

theorem splitText_relates (hR : Tracks operands R) {text : Text}
    (hmem : Text.strip (text.takeWhile (· != Byte.comma)) ∈ operands) :
    Step.Relates R (splitText text) := by
  rw [splitText_eq]
  cases text.dropWhile (· != Byte.comma) with
  | nil => exact .pure _
  | cons b rest =>
    refine .get_bind (fun _ => .bind (hR.quiet hmem _ rfl) fun n => .ite ?_ (.pure _))
      fun a b h => by rw [(hR.reads h).2.2.2.1]
    exact .bind (reportIf_relates hR _ rfl) fun _ => .pure _

/-- The first part of a text is its length, however the rest is cut. -/
theorem splitText_head (text : Text) (a : Assembly) :
    (splitText text a).1.getD 0 [] = Text.strip (text.takeWhile (· != Byte.comma)) := by
  rw [splitText_eq]
  cases text.dropWhile (· != Byte.comma) with
  | nil => rfl
  | cons b rest =>
    simp only [Step.bind_apply, Step.get_apply, Step.ite_apply]
    split_ifs <;> rfl

/-- The statement of a line whose operation is in the catalog, before its operands are cut. -/
def Assembly.announce (a : Assembly) (d : Descriptor) (line : Line) : Assembly :=
  (reportIf (d.model == .two && a.options.model != .two) (warning (.needsModel2 line.operation)) a).2

theorem parse_apply (line : Line) (a : Assembly) : parse line a =
    if line.invalid then ({ line }, a.raise [error .invalidCharacters])
    else if a.ending != .running then ({ line }, a)
    else if line.comment then ({ line, descriptor := Descriptor.comment }, a)
    else if line.operation.isBlank then ({ line }, a.raise [error .missingOperation])
    else match Descriptor.find? line.operation with
      | none =>
        ({ line }, a.raise [error (unknownOperation (line.operation.headD default) line.operation)])
      | some d =>
        ({ line, descriptor := d,
           operands := (splitOperands d line.operands (a.announce d line)).1 },
          (splitOperands d line.operands (a.announce d line)).2) := by
  rw [parse_eq]
  change (if _ then _ else _ : Step Statement) a = _
  rw [Step.ite_apply]
  congr 1
  rw [Step.ite_apply]
  congr 1
  rw [Step.ite_apply]
  congr 1
  rw [Step.ite_apply]
  congr 1
  cases Descriptor.find? line.operation <;> rfl

/-- What is true of the whole catalog is true of the operation of every statement. -/
theorem parse_descriptor {P : Descriptor → Bool} (hcatalog : catalog.all P = true)
    (hunknown : P .unknown = true) (hcomment : P .comment = true) (line : Line) (a : Assembly) :
    P (parse line a).1.descriptor = true := by
  rw [parse_apply]
  split_ifs
  · exact hunknown
  · exact hunknown
  · exact hcomment
  · exact hunknown
  · cases hd : Descriptor.find? line.operation with
    | none => exact hunknown
    | some d => exact List.all_eq_true.mp hcatalog d (List.mem_of_find?_eq_some hd)

theorem splitOperands_relates (hR : Tracks operands R) {d : Descriptor} {text : Text}
    (hmem : d.kind = .dac ∨ d.kind = .dsac →
      Text.strip (text.takeWhile (· != Byte.comma)) ∈ operands) :
    Step.Relates R (splitOperands d text) := by
  unfold splitOperands
  split
  · exact splitText_relates hR (hmem (.inl ‹_›))
  · exact splitText_relates hR (hmem (.inr ‹_›))
  · rw [splitAddresses_eq]
    exact .bind (reportIf_relates hR _ rfl) fun _ => .pure _
  · exact .pure _

theorem splitOperands_head {d : Descriptor} (hd : d.kind = .dac ∨ d.kind = .dsac) (text : Text)
    (a : Assembly) :
    (splitOperands d text a).1.getD 0 [] = Text.strip (text.takeWhile (· != Byte.comma)) := by
  unfold splitOperands
  rcases hd with hd | hd <;> rw [hd] <;> exact splitText_head text a

/-- **Related states parse a line alike.** -/
theorem parse_relates {line : Line} {a b : Assembly}
    (hR : Tracks (parse line a).1.layoutOperands R) (h : R a b) :
    (parse line b).1 = (parse line a).1 ∧ R (parse line a).2 (parse line b).2 := by
  obtain ⟨hmodel, -, -, -, hending⟩ := hR.reads h
  rw [parse_apply] at hR ⊢
  rw [parse_apply, hending]
  split_ifs at hR ⊢
  · exact ⟨rfl, (hR.report (.one rfl) a b h).2⟩
  · exact ⟨rfl, h⟩
  · exact ⟨rfl, h⟩
  · exact ⟨rfl, (hR.report (.one rfl) a b h).2⟩
  · cases hd : Descriptor.find? line.operation with
    | none => exact ⟨rfl, (hR.report (.one (unknownOperation_concernsLabel ..)) a b h).2⟩
    | some d =>
      rw [hd] at hR
      have hmem : d.kind = .dac ∨ d.kind = .dsac →
          Text.strip (line.operands.takeWhile (· != Byte.comma)) ∈
            (Statement.layoutOperands
              ⟨line, d, (splitOperands d line.operands (a.announce d line)).1⟩) := by
        intro hk
        rw [← splitOperands_head hk line.operands (a.announce d line)]
        refine Statement.operand_eq ⟨line, d, _⟩ 0 ▸ Statement.mem_layoutOperands ?_
        rcases hk with hk | hk <;> simp [Statement.kind, hk, Kind.layoutPlaces]
      have hannounce : R (a.announce d line) (b.announce d line) := by
        unfold Assembly.announce
        rw [hmodel]
        exact (reportIf_relates hR _ rfl a b h).2
      obtain ⟨hsplit, hafter⟩ := splitOperands_relates hR hmem _ _ hannounce
      exact ⟨by simp only [hsplit], hafter⟩

/-! ## States that agree -/

theorem Leads.rawValue_eq {a b : Assembly} (h : Leads .still a b) (usage : Usage) (operand : Text) :
    rawValue b.scope usage b.symbols operand = rawValue a.scope usage a.symbols operand := by
  rw [h.scope_eq rfl]
  exact rawValue_congr h.frame.noted.divide rfl rfl fun key _ => h.frame.noted.valueAt_eq key _ _

namespace Assembly

/-- Two states place statements from the same counter, under the same head. -/
structure Aligned (a b : Assembly) : Prop where
  options : b.options = a.options
  counter : b.counter = a.counter
  last : b.last = a.last
  head : b.head = a.head
  ending : b.ending = a.ending

/-- Two aligned states give, on the same line, the same values to operands whose symbols are defined
further up. -/
structure Agrees (operands : List Text) (a b : Assembly) : Prop extends Aligned a b where
  line : b.log.line = a.log.line
  values : ∀ operand ∈ operands, ∀ usage : Usage, usage.ordered = true →
    rawValue b.scope usage b.symbols operand = rawValue a.scope usage a.symbols operand

variable {operands : List Text} {a b a' b' : Assembly}

theorem Aligned.leads (h : Aligned a b) (ha : Leads .still a a') (hb : Leads .still b b') :
    Aligned a' b' where
  options := by rw [ha.frame.options, hb.frame.options, h.options]
  counter := by rw [(ha.counter_eq rfl).1, (hb.counter_eq rfl).1, h.counter]
  last := by rw [(ha.counter_eq rfl).2, (hb.counter_eq rfl).2, h.last]
  head := by rw [ha.head_eq rfl, hb.head_eq rfl, h.head]
  ending := by rw [(ha.entry_eq rfl).1, (hb.entry_eq rfl).1, h.ending]

theorem Agrees.leads (h : Agrees operands a b) (ha : Leads .still a a') (hb : Leads .still b b') :
    Agrees operands a' b' where
  toAligned := h.toAligned.leads ha hb
  line := by
    have hna : a'.log.line = a.log.line := ha.frame.line_eq
    have hnb : b'.log.line = b.log.line := hb.frame.line_eq
    rw [hna, hnb, h.line]
  values operand hmem usage hord := by
    rw [ha.rawValue_eq, hb.rawValue_eq, h.values operand hmem usage hord]

theorem Agrees.move (h : Agrees operands a b) {counter counter' last last' entry entry' : Word}
    {ending ending' : Ending} (hcounter : counter' = counter) (hlast : last' = last)
    (hending : ending' = ending) : Agrees operands { a with counter, last, ending, entry }
      { b with counter := counter', last := last', ending := ending', entry := entry' } where
  options := h.options
  line := h.line
  counter := hcounter
  last := hlast
  head := h.head
  ending := hending
  values := h.values

end Assembly

open Assembly (Agrees)

/-- The step gives the same answer in states that agree, and keeps them in agreement. -/
def Step.Agree (operands : List Text) (x : Step α) : Prop :=
  ∀ a b, Agrees operands a b → (x b).1 = (x a).1 ∧ Agrees operands (x a).2 (x b).2

theorem evaluateIn_agree {a b : Assembly} (h : Agrees operands a b) {operand : Text}
    (hmem : operand ∈ operands) {usage : Usage} (hord : usage.ordered = true) :
    (evaluateIn b.scope usage b.symbols operand).value =
      (evaluateIn a.scope usage a.symbols operand).value := by
  have hsize : b.scope.memorySize = a.scope.memorySize := congrArg Options.memorySize h.options
  rw [evaluateIn_value, evaluateIn_value, h.values operand hmem usage hord, hsize]

theorem agrees_tracks (operands : List Text) : Tracks operands (Agrees operands) where
  reads h := ⟨by rw [h.options], by rw [h.options], h.counter, h.last, h.ending⟩
  report hu a b h := ⟨rfl, h.leads (report_within hu a) (report_within hu b)⟩
  layout {operand} hmem check a b h := by
    refine ⟨?_, h.leads (evaluateLayout_within a) (evaluateLayout_within b)⟩
    change (evaluateIn b.scope { star := b.last, ordered := true, check } b.symbols operand).value =
      (evaluateIn a.scope { star := a.last, ordered := true, check } a.symbols operand).value
    rw [h.last]
    exact evaluateIn_agree h hmem rfl
  quiet hmem _ hord a b h :=
    ⟨evaluateIn_agree h hmem hord, h.leads (evaluateQuietly_within a) (evaluateQuietly_within b)⟩
  count h _ _ := h.move rfl rfl h.ending
  stop h _ := h.move h.counter h.last rfl
  enter h _ := h.move h.counter h.last h.ending
  turn hnone _ _ h _ := by
    subst hnone
    exact { h with head := rfl, values := by simp }

/-- **Two states that agree on the layout operands** place a statement alike. -/
theorem place_agree (s : Statement) : Step.Agree s.layoutOperands (place s) :=
  place_relates (agrees_tracks s.layoutOperands)

theorem parse_agree {line : Line} {a b : Assembly}
    (h : Agrees (parse line a).1.layoutOperands a b) : (parse line b).1 = (parse line a).1 :=
  (parse_relates (agrees_tracks _) h).1

/-! ## Statements without an error -/

/-- Checks of operands that position a statement: they put a negative value right and report it. -/
def Check.positions : Check → Bool
  | address | addressEven | addressOdd | positive => true
  | _ => false

/-- What evaluating an operand without an error shows of the states before it. -/
structure Demanded (P : Text → Assembly → Prop) : Prop where
  blank : ∀ {operand} a, operand.isBlank = true → P operand a
  before : ∀ {operand a b}, Leads .still a b → P operand b → P operand a
  ending : ∀ {operand} a ending, P operand { a with ending } → P operand a
  layout : ∀ {operand check}, check.positions = true → ∀ a : Assembly, a.log.muted = 0 →
    (evaluateLayout operand check a).2.log.errorCount ≤ a.log.errorCount → P operand a

/-- If the step raises no error, the operand has the property before it. -/
def Step.Demands (P : Text → Assembly → Prop) (operand : Text) (x : Step α) : Prop :=
  ∀ a, a.log.muted = 0 → (x a).2.log.errorCount ≤ a.log.errorCount → P operand a

variable {P : Text → Assembly → Prop} (hP : Demanded P)

namespace Step.Demands

variable {operand : Text}

theorem bind_left {x : Step α} {f : α → Step β} (hx : Step.Demands P operand x)
    (hf : ∀ v, Step.Within .full (f v)) : Step.Demands P operand (x >>= f) := by
  intro a hmuted hcount
  exact hx a hmuted (Nat.le_trans (hf (x a).1 (x a).2).frame.errors hcount)

include hP in
theorem blank {x : Step α} (h : operand.isBlank = true) : Step.Demands P operand x :=
  fun a _ _ => hP.blank a h

include hP in
theorem bind_right {x : Step α} {f : α → Step β} (hx : Step.Within .still x)
    (hf : ∀ v, Step.Demands P operand (f v)) : Step.Demands P operand (x >>= f) := by
  intro a hmuted hcount
  have hframe := (hx a).frame
  have hmuted' : (x a).2.log.muted = a.log.muted := congrArg (·.2.1) hframe.place
  exact hP.before (hx a) (hf (x a).1 (x a).2 (hmuted'.trans hmuted)
    (Nat.le_trans hcount hframe.errors))

include hP in
theorem mapM {f : β → Step α} {xs : List β} (hf : ∀ x, Step.Within .still (f x)) {x : β}
    (hx : x ∈ xs) (hdemands : Step.Demands P operand (f x)) :
    Step.Demands P operand (xs.mapM f) := by
  induction xs with
  | nil => cases hx
  | cons y ys ih =>
    rw [List.mapM_cons]
    rcases List.mem_cons.mp hx with rfl | hys
    · refine bind_left hdemands fun v => ?_
      exact .bind (Step.Within.mapM hf ys).widen fun vs => .pure (v :: vs)
    · exact bind_right hP (hf y) fun v => bind_left (ih hys) fun vs => .pure (v :: vs)

end Step.Demands

section Demands

include hP

theorem placeAt_demands {aligned : Bool} {check : Check} (hcheck : check.positions = true)
    {length offset : Word} {address : Text} :
    Step.Demands P address (placeAt aligned check length offset address) := by
  by_cases hblank : address.isBlank = true
  · exact .blank hP hblank
  · unfold placeAt
    rw [if_neg hblank]
    exact .bind_left (hP.layout hcheck) fun _ => .pure _

theorem evaluateLength_demands {operand : Text} :
    Step.Demands P operand (evaluateLength operand) := hP.layout rfl

theorem constantLength_demands {operand : Text} :
    Step.Demands P operand (constantLength operand) :=
  .bind_left (hP.layout rfl) fun _ => .bind (reportIf_within _ rfl) fun _ => .pure _

theorem octalPower_demands {operand : Text} : Step.Demands P operand (octalPower operand) := by
  refine .bind_left (hP.layout rfl) fun power => .ite ?_ (.ite ?_ (.pure _))
  · exact .bind (report_within (.one rfl)) fun _ => .pure _
  · exact .bind (report_within (.one rfl)) fun _ => .pure _

theorem octalLength_demands {operand : Text} : Step.Demands P operand (octalLength operand) := by
  rw [octalLength_eq]
  exact .bind_left (octalPower_demands hP) fun _ => .pure _

theorem placeEnd_demands (s : Statement) : Step.Demands P (s.operand 0) (placeEnd s) := by
  have hrest : Step.Demands P (s.operand 0) (do
      unexpectedLabel s
      let entry ← evaluateLayout (s.operand 0) .addressEven
      modify ({ · with entry })
      pure ({ labelAddress := entry, address := entry } : Placement)) := by
    refine .bind_right hP (unexpectedLabel_within s) fun _ => .bind_left (hP.layout rfl) ?_
    intro entry
    exact .bind (fun a => .single (.finish rfl a a.ending entry)) fun _ => .pure _
  -- Ending the program first changes nothing that an operand depends on.
  exact fun a hmuted hcount => hP.ending a .ended (hrest { a with ending := .ended } hmuted hcount)

theorem placeBlock_demands (s : Statement) {i : Nat} (hi : i ∈ [0, 1, 2]) :
    Step.Demands P (s.operand i) (placeBlock s) := by
  simp only [List.mem_cons, List.not_mem_nil, or_false] at hi
  rcases hi with rfl | rfl | rfl
  · refine .bind_left (hP.layout rfl) fun _ => .bind evaluateLength_within fun _ => .ite ?_ ?_
    · exact .bind takeCells_within.widen fun _ => .pure _
    · exact .get_bind fun _ => .bind evaluateLayout_within fun _ => .pure _
  · refine .bind_right hP evaluateLength_within fun _ => .bind_left (hP.layout rfl) fun _ =>
      .ite ?_ ?_
    · exact .bind takeCells_within.widen fun _ => .pure _
    · exact .get_bind fun _ => .bind evaluateLayout_within fun _ => .pure _
  · refine .bind_right hP evaluateLength_within fun _ =>
      .bind_right hP evaluateLength_within fun _ => ?_
    by_cases hblank : (s.operand 2).isBlank = true
    · exact .blank hP hblank
    · dsimp only
      rw [if_neg hblank]
      exact fun a => Step.Demands.bind_left (hP.layout rfl) (fun _ => .pure _) a

theorem placeFields_demands (s : Statement) {i : Nat}
    (hi : i ∈ 0 :: (List.range maxFields).map (1 + 2 * ·)) :
    Step.Demands P (s.operand i) (placeFields s) := by
  rcases List.mem_cons.mp hi with rfl | hwidth
  · refine .bind_right hP (.mapM (fun _ => evaluateLength_within) _) fun _ => ?_
    exact .bind_right hP (reportIf_within _ rfl) fun _ =>
      .bind_left (placeAt_demands hP rfl) fun _ => .pure _
  · obtain ⟨j, hj, rfl⟩ := List.mem_map.mp hwidth
    refine .bind_left (.mapM hP (fun _ => evaluateLength_within) hj (hP.layout rfl)) fun _ => ?_
    exact .bind (reportIf_within _ rfl) fun _ => .bind placeAt_within.widen fun _ => .pure _

theorem placeAt_demands_either {x : Step α} {first address operand : Text} {aligned : Bool}
    {check : Check} {length offset : α → Word} (hwithin : Step.Within .still x)
    (hx : Step.Demands P first x) (hcheck : check.positions = true)
    (h : operand = first ∨ operand = address) :
    Step.Demands P operand
      (x >>= fun v => placeAt aligned check (length v) (offset v) address) := by
  rcases h with rfl | rfl
  · exact .bind_left hx fun _ => placeAt_within.widen
  · exact .bind_right hP hwithin fun _ => placeAt_demands hP hcheck

/-- **A statement that is placed without an error** demands all its layout operands. -/
theorem place_demands (s : Statement) {operand : Text} (h : operand ∈ s.layoutOperands) :
    Step.Demands P operand (place s) := by
  have hlength : ∀ {operand}, Step.Demands P operand (evaluateLength operand) :=
    evaluateLength_demands hP
  have hconstant : ∀ {operand}, Step.Demands P operand (constantLength operand) :=
    constantLength_demands hP
  unfold Statement.layoutOperands at h
  unfold place
  cases hkind : s.kind <;> rw [hkind] at h <;>
    simp only [Kind.layoutPlaces, List.map_cons, List.map_nil, List.mem_cons, List.not_mem_nil,
      or_false] at h
  case dend => exact h ▸ placeEnd_demands hP s
  case dorg =>
    subst h
    refine .bind_left (hP.layout rfl) fun address => ?_
    exact .bind (fun a => .single (.count rfl a address (address - 1))) fun _ => .pure _
  case dac => exact placeAt_demands_either hP constantLength_within hconstant rfl h
  case dsac => exact placeAt_demands_either hP constantLength_within hconstant rfl h
  case das => exact placeAt_demands_either hP evaluateLength_within hlength rfl h
  case dc => exact placeAt_demands_either hP constantLength_within hconstant rfl h
  case dsc => exact placeAt_demands_either hP constantLength_within hconstant rfl h
  case dnb => exact placeAt_demands_either hP constantLength_within hconstant rfl h
  case dgm => exact h ▸ placeAt_demands hP rfl
  case dot => exact placeAt_demands_either hP octalLength_within (octalLength_demands hP) rfl h
  case ds => exact placeAt_demands_either hP evaluateLength_within hlength rfl h
  case dss => exact placeAt_demands_either hP evaluateLength_within hlength rfl h
  case dsb =>
    rcases h with rfl | rfl | rfl
    · exact placeBlock_demands hP s (by decide)
    · exact placeBlock_demands hP s (by decide)
    · exact placeBlock_demands hP s (by decide)
  case dda => exact h ▸ placeAt_demands hP rfl
  case dvlc =>
    rcases h with rfl | h
    · exact placeFields_demands hP s List.mem_cons_self
    · obtain ⟨i, hi, rfl⟩ := List.mem_map.mp h
      exact placeFields_demands hP s (List.mem_cons_of_mem _ hi)

end Demands

/-- The keys of the operand are settled. -/
def Assembly.SettlesKeys (operand : Text) (a : Assembly) : Prop :=
  ∀ key ∈ operandKeys a.symbols.divide a.head operand, a.symbols.Settled key a.log.line true

/-- Evaluating an operand without an error shows that its keys are settled. -/
theorem settlesKeys_demanded : Demanded Assembly.SettlesKeys where
  blank a h key hkey := by simp [operandKeys, h] at hkey
  before {operand a b} hab hb key hkey := by
    have hline : b.log.line = a.log.line := hab.frame.line_eq
    have hsettled := hb key (by rwa [hab.frame.noted.divide, hab.head_eq rfl])
    exact (hline ▸ hsettled).of_noted hab.frame.noted
  ending _ _ h := h
  layout {operand check} _ a hmuted hcount := by
    rw [evaluateLayout_apply] at hcount
    exact settled_of_evaluateIn a.scope { star := a.last, ordered := true, check } a.symbols operand
      (a.log.not_isError_of_errorCount hmuted hcount)

end SpsAssembler
