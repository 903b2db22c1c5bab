import SpsAssembler.Proofs.Layout
import SpsAssembler.Proofs.References

/-!
# The symbols that a statement looks up

A statement is parsed and placed by some of its operands, and its cells are made of others. Whatever
raises no error has noted the line for the keys of the operands that it looks at, and for no others.

* `Assembly.keys`: the keys of operands;
* `Step.Marks`: a step that looks at operands;
* `parse_touches`, **`place_marks`**: the operands that position a statement;
* `Statement.encodedOperands`, **`encode_marks`**: the operands that its cells are made of.
-/

namespace SpsAssembler

open SymbolTable (Touches Marks)

/-! ## Steps -/

/-- The keys of operands where a state stands. -/
def Assembly.keys (a : Assembly) (operands : List Text) : List Text :=
  operands.flatMap (operandKeys a.symbols.divide a.head)

variable {α β : Type} {operands : List Text} {s : Statement} {a b : Assembly}

theorem Assembly.mem_keys {key : Text} : key ∈ a.keys operands ↔
    ∃ operand ∈ operands, key ∈ operandKeys a.symbols.divide a.head operand := List.mem_flatMap

theorem Assembly.keys_append (a : Assembly) (xs ys : List Text) :
    a.keys (xs ++ ys) = a.keys xs ++ a.keys ys := List.flatMap_append

/-- Everything but the head. -/
def Reach.headed : Reach := { counts := true, ends := true }

theorem Step.Within.headed {reach : Reach} {x : Step α} (h : Step.Within reach x)
    (hreach : reach.turns = false) : Step.Within .headed x := by
  intro a
  refine Relation.ReflTransGen.mono (fun _ _ hact => ?_) _ _ (h a)
  cases hact with
  | report _ reports h => exact .report _ reports h
  | evaluate _ operand usage => exact .evaluate _ operand usage
  | count _ _ counter last => exact .count rfl _ counter last
  | turn hturns => rw [hreach] at hturns; cases hturns
  | finish _ _ ending entry => exact .finish rfl _ ending entry

/-- The step looks at the operands and leaves the head: if it raises no error, it notes the line for
all their keys. -/
structure Step.Marks (operands : List Text) (x : Step α) : Prop where
  within : Step.Within .headed x
  marks : ∀ a, a.log.muted = 0 → (x a).2.log.errorCount ≤ a.log.errorCount →
    SymbolTable.Marks (a.keys operands) a.log.line a.symbols (x a).2.symbols

namespace Step.Marks

variable {xs ys : List Text}

theorem bind {x : Step α} {f : α → Step β} (hx : Step.Marks xs x)
    (hf : ∀ v, Step.Marks ys (f v)) : Step.Marks (xs ++ ys) (x >>= f) where
  within := .bind hx.within fun v => (hf v).within
  marks a hmuted hcount := by
    have hlead := hx.within a
    have hframe := hlead.frame
    have hrest := ((hf (x a).1).within (x a).2).frame.errors
    have hmuted' : (x a).2.log.muted = a.log.muted := congrArg (·.2.1) hframe.place
    have hline : (x a).2.log.line = a.log.line := hframe.line_eq
    have hkeys : (x a).2.keys ys = a.keys ys := by
      unfold Assembly.keys
      rw [hframe.noted.divide, hlead.head_eq rfl]
    have hfirst := hx.marks a hmuted (Nat.le_trans hrest hcount)
    have hsecond := (hf (x a).1).marks (x a).2 (hmuted'.trans hmuted)
      (Nat.le_trans hcount hframe.errors)
    rw [hkeys, hline] at hsecond
    rw [Assembly.keys_append]
    exact hfirst.trans hsecond

theorem after {x : Step α} {f : α → Step β} (hx : Step.Marks [] x)
    (hf : ∀ v, Step.Marks ys (f v)) : Step.Marks ys (x >>= f) := bind hx hf

theorem before {x : Step α} {f : α → Step β} (hx : Step.Marks xs x)
    (hf : ∀ v, Step.Marks [] (f v)) : Step.Marks xs (x >>= f) := by
  have h := bind hx hf
  rwa [List.append_nil] at h

theorem get_bind {f : Assembly → Step β} (hf : ∀ a, Step.Marks xs (f a)) :
    Step.Marks xs (get >>= f) :=
  ⟨fun a => (hf a).within a, fun a => (hf a).marks a⟩

theorem ite {c : Prop} [Decidable c] {x y : Step α} (hx : Step.Marks xs x)
    (hy : Step.Marks xs y) : Step.Marks xs (if c then x else y) := by
  split_ifs
  · exact hx
  · exact hy

theorem silent (reach : Reach) {x : Step α} (h : Step.Within reach x) (hreach : reach.turns = false)
    (hsymbols : ∀ a, (x a).2.symbols = a.symbols) : Step.Marks [] x where
  within := h.headed hreach
  marks a _ _ := by
    rw [hsymbols]
    exact .refl ..

theorem pure (v : α) : Step.Marks [] (pure v) :=
  silent .still (.pure v) rfl fun _ => rfl

theorem mapM {f : β → Step α} {g : β → Text} (hf : ∀ x, Step.Marks [g x] (f x)) (xs : List β) :
    Step.Marks (xs.map g) (xs.mapM f) := by
  induction xs with
  | nil => exact pure []
  | cons x xs ih =>
    rw [List.mapM_cons]
    exact bind (hf x) fun v => before ih fun vs => pure (v :: vs)

theorem foldlM {f : α → β → Step α} {g : β → Text} (hf : ∀ v x, Step.Marks [g x] (f v x))
    (xs : List β) (v : α) : Step.Marks (xs.map g) (xs.foldlM f v) := by
  induction xs generalizing v with
  | nil => exact pure v
  | cons x xs ih =>
    rw [List.foldlM_cons]
    exact bind (hf v x) ih

theorem congr {x : Step α} (h : Step.Marks xs x) (hmem : ∀ operand, operand ∈ ys ↔ operand ∈ xs) :
    Step.Marks ys x where
  within := h.within
  marks a hmuted hcount := by
    refine (h.marks a hmuted hcount).congr fun key => ?_
    simp only [Assembly.mem_keys, hmem]

/-- An operand that is blank may be named where it is not looked at. -/
theorem blank {operand : Text} {x : Step α} (h : Step.Marks [] x) (hblank : operand.isBlank = true) :
    Step.Marks [operand] x where
  within := h.within
  marks a hmuted hcount := by
    have hkeys : a.keys [operand] = a.keys [] := by simp [Assembly.keys, operandKeys, hblank]
    rw [hkeys]
    exact h.marks a hmuted hcount

end Step.Marks

theorem report_marks {reports : List (Report Cause)} (h : Unlabelled reports) :
    Step.Marks [] (report reports) :=
  .silent .still (report_within h) rfl fun _ => rfl

theorem reportIf_marks (c : Bool) {r : Report Cause} (h : r.cause.concernsLabel = false) :
    Step.Marks [] (reportIf c r) :=
  .silent .still (reportIf_within c h) rfl fun _ => rfl

theorem evaluate_marks {operand : Text} {usage : Usage} :
    Step.Marks [operand] (evaluate operand usage) where
  within := evaluate_within
  marks a hmuted hcount := by
    have hkeys : a.keys [operand] = operandKeys a.symbols.divide a.head operand := by
      simp [Assembly.keys]
    rw [evaluate_apply] at hcount ⊢
    rw [hkeys]
    exact evaluateIn_marks a.scope usage a.symbols operand
      (a.log.not_isError_of_errorCount hmuted hcount)

theorem evaluateLayout_marks {operand : Text} {check : Check} :
    Step.Marks [operand] (evaluateLayout operand check) :=
  .get_bind fun _ => .before evaluate_marks fun _ => .pure _

/-! ## Parsing -/

theorem splitText_touches (text : Text) (a : Assembly) :
    Touches (a.keys [Text.strip (text.takeWhile (· != Byte.comma))]) a.log.line a.symbols
      (splitText text a).2.symbols := by
  rw [splitText_eq]
  cases text.dropWhile (· != Byte.comma) with
  | nil => exact .refl ..
  | cons b rest =>
    have hquiet := evaluateIn_touches a.scope { star := a.last, ordered := true } a.symbols
      (Text.strip (text.takeWhile (· != Byte.comma)))
    simp only [Step.bind_apply, Step.get_apply, Step.ite_apply, evaluateQuietly_eq]
    simp only [Assembly.keys, List.flatMap_cons, List.flatMap_nil, List.append_nil]
    split_ifs <;> exact hquiet

/-- **Parsing** notes the line for nothing but keys of operands that position the statement. -/
theorem parse_touches (line : Line) (a : Assembly) :
    Touches (a.keys (parse line a).1.layoutOperands) a.log.line a.symbols
      (parse line a).2.symbols := by
  rw [parse_apply]
  split_ifs
  · exact .refl ..
  · exact .refl ..
  · exact .refl ..
  · exact .refl ..
  · cases Descriptor.find? line.operation with
    | none => exact .refl ..
    | some d =>
      by_cases hkind : d.kind = .dac ∨ d.kind = .dsac
      · have hannounce : Leads .still a (a.announce d line) := reportIf_within _ rfl a
        have hline : (a.announce d line).log.line = a.log.line :=
          hannounce.frame.line_eq
        have hhead := splitOperands_head hkind line.operands (a.announce d line)
        have hsplit : splitOperands d line.operands = splitText line.operands := by
          unfold splitOperands
          rcases hkind with hk | hk <;> rw [hk]
        have htext := splitText_touches line.operands (a.announce d line)
        rw [hline, ← hhead, ← hsplit] at htext
        refine htext.mono fun key hkey => ?_
        obtain ⟨operand, hoperand, hmem⟩ := Assembly.mem_keys.mp hkey
        obtain rfl := List.mem_singleton.mp hoperand
        refine Assembly.mem_keys.mpr ⟨_, ?_, hmem⟩
        refine Statement.operand_eq ⟨line, d, _⟩ 0 ▸ Statement.mem_layoutOperands ?_
        rcases hkind with hk | hk <;> simp [Statement.kind, hk, Kind.layoutPlaces]
      · have hsame : (splitOperands d line.operands (a.announce d line)).2.symbols = a.symbols := by
          unfold splitOperands
          cases hk : d.kind
          case dac => exact absurd (.inl hk) hkind
          case dsac => exact absurd (.inr hk) hkind
          case dsa => rw [splitAddresses_eq]; rfl
          all_goals rfl
        dsimp only
        rw [hsame]
        exact .refl ..

/-! ## Placing -/

theorem takeCells_marks {n : Word} : Step.Marks [] (takeCells n) :=
  .silent .counting takeCells_within rfl fun _ => rfl

theorem alignEven_marks : Step.Marks [] alignEven :=
  .silent .counting alignEven_within rfl fun a => by
    change (if _ then _ else _ : Assembly).symbols = _
    split <;> rfl

theorem placeAt_marks {aligned : Bool} {check : Check} {length offset : Word} {address : Text} :
    Step.Marks [address] (placeAt aligned check length offset address) := by
  unfold placeAt
  split
  · refine .blank ?_ ‹_›
    cases aligned with
    | false => exact .after takeCells_marks fun _ => .pure _
    | true => exact .after alignEven_marks fun _ => .after takeCells_marks fun _ => .pure _
  · exact .before evaluateLayout_marks fun _ => .pure _

theorem constantLength_marks {operand : Text} : Step.Marks [operand] (constantLength operand) :=
  .before evaluateLayout_marks fun _ => .after (reportIf_marks _ rfl) fun _ => .pure _

theorem octalPower_marks {operand : Text} : Step.Marks [operand] (octalPower operand) := by
  refine .before evaluateLayout_marks fun power => .ite ?_ (.ite ?_ (.pure _))
  · exact .after (report_marks (.one rfl)) fun _ => .pure _
  · exact .after (report_marks (.one rfl)) fun _ => .pure _

theorem octalLength_marks {operand : Text} : Step.Marks [operand] (octalLength operand) := by
  rw [octalLength_eq]
  exact .before octalPower_marks fun _ => .pure _

theorem placeEnd_marks (s : Statement) : Step.Marks [s.operand 0] (placeEnd s) := by
  refine .after (.silent .ending (fun a => .single (.finish rfl a .ended a.entry)) rfl
    fun _ => rfl) fun _ => ?_
  refine .after (reportIf_marks _ rfl) fun _ => .before evaluateLayout_marks fun entry => ?_
  exact .after (.silent .ending (fun a => .single (.finish rfl a a.ending entry)) rfl
    fun _ => rfl) fun _ => .pure _

theorem placeOrigin_marks (s : Statement) : Step.Marks [s.operand 0] (placeOrigin s) := by
  refine .before evaluateLayout_marks fun address => .after (.silent .counting ?_ rfl
    fun _ => rfl) fun _ => .pure _
  exact fun a => .single (.count rfl a address (address - 1))

theorem placeBlock_marks (s : Statement) :
    Step.Marks [s.operand 0, s.operand 1, s.operand 2] (placeBlock s) := by
  have hlength : ∀ operand, Step.Marks [operand] (evaluateLength operand) :=
    fun _ => evaluateLayout_marks
  refine .bind (hlength (s.operand 0)) fun size => .bind (hlength (s.operand 1)) fun count => ?_
  dsimp only
  split
  · exact .blank (.after takeCells_marks fun _ => .pure _) ‹_›
  · exact .get_bind fun _ => .before evaluateLayout_marks fun _ => .pure _

theorem placeFields_marks (s : Statement) :
    Step.Marks (s.operand 0 :: ((List.range maxFields).map (1 + 2 * ·)).map s.operand)
      (placeFields s) := by
  have h : Step.Marks ((List.range maxFields).map (fun j => s.operand (1 + 2 * j)) ++ [s.operand 0])
      (placeFields s) := by
    refine .bind (.mapM (fun _ => evaluateLayout_marks) _) fun widths => ?_
    exact .after (reportIf_marks _ rfl) fun _ => .before placeAt_marks fun _ => .pure _
  refine h.congr fun operand => ?_
  rw [List.map_map, List.mem_append, List.mem_singleton, List.mem_cons, or_comm]
  rfl

theorem placeAt_marks_both {x : Step α} {first address : Text} {aligned : Bool} {check : Check}
    {length offset : α → Word} (hx : Step.Marks [first] x) :
    Step.Marks [first, address]
      (x >>= fun v => placeAt aligned check (length v) (offset v) address) :=
  .bind hx fun _ => placeAt_marks

/-- **Placing a statement without an error** notes the line for all keys of its layout operands. -/
theorem place_marks (s : Statement) (a : Assembly) (hmuted : a.log.muted = 0)
    (hcount : (place s a).2.log.errorCount ≤ a.log.errorCount) :
    Marks (a.keys s.layoutOperands) a.log.line a.symbols (place s a).2.symbols := by
  by_cases hhead : s.kind = .head
  · -- A new head is the one thing that a step for operands may not do, and it looks at none.
    have hsymbols : (place s a).2.symbols = a.symbols := by
      have hchange : ∀ operand b, (changeHead operand b).2.symbols = b.symbols := by
        intro operand b
        unfold changeHead
        rw [Step.ite_apply]
        split
        · rfl
        · split
          · rw [Step.ite_apply]
            split <;> rfl
          · rfl
      unfold place
      rw [hhead]
      exact hchange _ _
    have hnone : s.layoutOperands = [] := by rw [Statement.layoutOperands, hhead]; rfl
    rw [hsymbols, hnone]
    exact .refl ..
  · have hmarks : Step.Marks s.layoutOperands (place s) := by
      have hcontrol : Step.Marks [] (report [warning (.unsupportedControl s.descriptor.mnemonic)]) :=
        report_marks (.one rfl)
      unfold Statement.layoutOperands place
      cases hkind : s.kind with
      | unknown => exact .pure _
      | comment => exact .pure _
      | unlisted => exact .pure _
      | dend => exact placeEnd_marks s
      | dorg => exact placeOrigin_marks s
      | head => exact absurd hkind hhead
      | send => exact .after (reportIf_marks _ rfl) fun _ => .after hcontrol fun _ => .pure _
      | tcd => exact .after (reportIf_marks _ rfl) fun _ => .after hcontrol fun _ => .pure _
      | tra => exact .after hcontrol fun _ => .pure _
      | dac => exact placeAt_marks_both constantLength_marks
      | dsac => exact placeAt_marks_both constantLength_marks
      | das => exact placeAt_marks_both evaluateLayout_marks
      | dc => exact placeAt_marks_both constantLength_marks
      | dsc => exact placeAt_marks_both constantLength_marks
      | dnb => exact placeAt_marks_both constantLength_marks
      | dgm => exact placeAt_marks
      | dot => exact placeAt_marks_both octalLength_marks
      | ds => exact placeAt_marks_both evaluateLayout_marks
      | dss => exact placeAt_marks_both evaluateLayout_marks
      | dsb => exact placeBlock_marks s
      | dsa => exact .get_bind fun _ => .after takeCells_marks fun _ => .pure _
      | dda => exact placeAt_marks
      | dvlc => exact placeFields_marks s
      | instruction => exact .after alignEven_marks fun _ => .after takeCells_marks fun _ => .pure _
    exact hmarks.marks a hmuted hcount

/-! ## Encoding -/

/-- The operands that the P and the Q field of an instruction are made of. -/
def Statement.fieldOperands (s : Statement) : List Text :=
  (match s.descriptor.p with
    | .none => []
    | _ => [s.operand 0]) ++
  match s.descriptor.q with
    | .none => []
    | .referenceBit => [s.operand 1, s.operand 2]
    | _ => [s.operand 1]

/-- The operands that the cells of a statement are made of, besides those that position it. -/
def Statement.encodedOperands (s : Statement) (p : Placement) : List Text :=
  match s.kind with
  | .dsa => s.operands
  | .dda => [s.operand 1, s.operand 2, s.operand 3, s.operand 4]
  | .dvlc => if p.length = 0 then [] else p.widths.zipIdx.map fun width => s.operand (2 + 2 * width.2)
  | .instruction => s.fieldOperands
  | _ => []

theorem putAddresses_marks (s : Statement) (p : Placement) (cells : Value) :
    Step.Marks s.operands (putAddresses s p cells) := by
  have h : Step.Marks (s.operands.zipIdx.map Prod.fst) (putAddresses s p cells) :=
    .get_bind fun _ => .foldlM (fun _ _ => .before evaluate_marks fun _ => .pure _) _ _
  rwa [List.zipIdx_map_fst] at h

theorem encodeDisk_marks (s : Statement) :
    Step.Marks [s.operand 1, s.operand 2, s.operand 3, s.operand 4] (encodeDisk s) := by
  have hsector : Step.Marks [s.operand 2] (sectorOperand (s.operand 2)) := by
    refine .before evaluate_marks fun _ => .ite ?_ (.pure _)
    exact .after (report_marks (.one rfl)) fun _ => .pure _
  have hsectors : Step.Marks [s.operand 3] (sectorCountOperand (s.operand 3)) := by
    refine .before evaluate_marks fun _ => .ite ?_ (.ite ?_ (.pure _))
    · exact .after (report_marks (.one rfl)) fun _ => .pure _
    · exact .after (report_marks (.one rfl)) fun _ => .pure _
  have hdrive : Step.Marks [s.operand 1] (evaluate (s.operand 1) { star := 0, check := .positive }) :=
    evaluate_marks
  exact .bind hdrive fun _ => .bind hsector fun _ =>
    .bind hsectors fun _ => .before evaluateLayout_marks fun _ => .pure _

theorem encodeFieldsFrom_marks (s : Statement) (fields : List (Word × Nat)) (stop : Word)
    (v : Value) : Step.Marks (fields.map fun width => s.operand (2 + 2 * width.2))
      (encodeFieldsFrom s fields stop v) := by
  induction fields generalizing stop v with
  | nil => exact .pure v
  | cons field rest ih => exact .bind evaluate_marks fun _ => ih _ _

theorem encodeP_marks (s : Statement) (star : Word) :
    Step.Marks (match s.descriptor.p with | .none => [] | _ => [s.operand 0]) (encodeP s star) := by
  refine .get_bind fun _ => ?_
  cases s.descriptor.p with
  | none => exact .after (reportIf_marks _ rfl) fun _ => .pure _
  | reference => exact evaluate_marks
  | referenceEven => exact evaluate_marks
  | referenceOdd => exact evaluate_marks
  | value => exact evaluate_marks

theorem selectCode_marks {codes : List Word} {outOfRange : Nat → Word → Cause} {operand : Text}
    {star : Word} (h : ∀ n w, (outOfRange n w).concernsLabel = false) :
    Step.Marks [operand] (selectCode codes outOfRange operand star) := by
  rw [selectCode_eq]
  refine .before evaluate_marks fun _ => .ite (.pure _) ?_
  exact .after (report_marks (.one (h _ _))) fun _ => .pure _

theorem bitAddress_marks (s : Statement) (star : Word) :
    Step.Marks [s.operand 1, s.operand 2] (bitAddress s star) := by
  have haddress : Step.Marks [s.operand 1] (evaluate (s.operand 1) { star }) := evaluate_marks
  refine .bind haddress fun _ => .before evaluate_marks fun _ => .ite ?_ (.ite (.pure _) (.pure _))
  exact .after (report_marks (.one rfl)) fun _ => .pure _

theorem encodeQ_marks (s : Statement) (star : Word) :
    Step.Marks (match s.descriptor.q with
      | .none => []
      | .referenceBit => [s.operand 1, s.operand 2]
      | _ => [s.operand 1]) (encodeQ s star) := by
  refine .get_bind fun _ => ?_
  cases s.descriptor.q with
  | none => exact .after (reportIf_marks _ rfl) fun _ => .pure _
  | reference => exact evaluate_marks
  | referenceBit => exact bitAddress_marks s star
  | immediate => exact evaluate_marks
  | immediateIndex => exact evaluate_marks
  | value => exact evaluate_marks
  | skip => exact selectCode_marks fun _ _ => rfl
  | skipAfter => exact selectCode_marks fun _ _ => rfl
  | space => exact selectCode_marks fun _ _ => rfl
  | spaceAfter => exact selectCode_marks fun _ _ => rfl
  | literal =>
    dsimp only
    split
    · exact .blank (.pure _) ‹_›
    · exact .after (report_marks (.one rfl)) fun _ => evaluate_marks

theorem buildInstruction_marks (s : Statement) (p : Placement) :
    Step.Marks s.fieldOperands (buildInstruction s p) := by
  refine .bind (encodeP_marks s p.star) fun _ => .before (encodeQ_marks s p.star) fun _ => ?_
  dsimp only
  split
  · exact .pure _
  · exact .after (report_marks (.one rfl)) fun _ => .pure _

theorem constantCells_symbols {c : Except Fault Constant} {v : Value}
    (h : constantCells c a = .ok v b) : b.symbols = a.symbols := by
  cases c with
  | error e => cases h
  | ok c => cases h; rfl

/-- **Encoding a statement without an error** notes the line for all keys of the operands that its
cells are made of. -/
theorem encode_marks {p : Placement} {value : Value} (h : encode s p a = .ok value b)
    (hmuted : a.log.muted = 0) (hcount : b.log.errorCount ≤ a.log.errorCount) :
    Marks (a.keys (s.encodedOperands p)) a.log.line a.symbols b.symbols := by
  have hnone : b.symbols = a.symbols → Marks (a.keys []) a.log.line a.symbols b.symbols := by
    intro hsame
    rw [hsame]
    exact .refl ..
  have hstep : ∀ {operands} {x : Step Value}, Step.Marks operands x → b = (x a).2 →
      Marks (a.keys operands) a.log.line a.symbols b.symbols := by
    rintro operands x hx rfl
    exact hx.marks a hmuted hcount
  have halpha : encodeAlpha s p a = .ok value b → b.symbols = a.symbols := by
    intro hb
    unfold encodeAlpha at hb
    split at hb
    · obtain ⟨v, c, hv, hc⟩ := Build.ok_of_bind_ok hb
      cases hc
      exact constantCells_symbols hv
    · cases hb
      rfl
  unfold encode at h
  unfold Statement.encodedOperands
  cases hkind : s.kind <;> rw [hkind] at h <;> dsimp only at h ⊢
  case dac => exact hnone (halpha h)
  case dsac => exact hnone (halpha h)
  case dc =>
    refine hnone ?_
    rw [encodeConstant_eq] at h
    split at h
    · cases h
      rfl
    · obtain ⟨v, c, hv, hc⟩ := Build.ok_of_bind_ok h
      cases hc
      exact constantCells_symbols hv
  case dsc =>
    refine hnone ?_
    unfold encodeSpecial at h
    split at h
    · cases h
      rfl
    · exact constantCells_symbols h
  case dnb => exact hnone (congrArg _ (encodeBlanks_cases h).2)
  case dot => exact hnone (congrArg _ (encodeOctal_cases h).2)
  case dsa =>
    exact hstep (putAddresses_marks s p _) (encodeAddresses_cases h).2
  case dda =>
    cases h
    exact hstep (encodeDisk_marks s) rfl
  case dvlc =>
    unfold encodeFields at h
    split at h
    · rw [if_pos ‹_›]
      cases h
      exact hnone rfl
    · rw [if_neg ‹_›]
      obtain ⟨n, c, hn, hc⟩ := Build.ok_of_bind_ok h
      obtain ⟨-, rfl⟩ := Build.ofExcept_ok hn
      cases hc
      exact hstep (encodeFieldsFrom_marks s _ _ _) rfl
  case instruction => exact hstep (buildInstruction_marks s p) (encodeInstruction_cases h).2
  all_goals
    cases h
    exact hnone rfl

end SpsAssembler
