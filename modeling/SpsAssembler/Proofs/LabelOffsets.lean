import SpsAssembler.Proofs.Bounds
import SpsAssembler.Proofs.Lockstep

/-!
# The geometry of statements

A statement goes to where its address operand says or, if that is blank, to where the counter stands.
Which of its cells the label names is a matter of its kind and its lengths alone, so the label is as
far behind the first cell either way. Only a block breaks the rule: with an address operand its label
goes there and its cells stay at the counter.

* `Kind.isAligned`, `Kind.addressCheck`, `Assembly.nextCell`: where a statement goes;
* `Statement.labelOffset`: how far the label stands behind the first cell;
* `Lies`, **`place_lies`**: where the cells and the label of a statement are;
* `place_length_eq`, `labelOffset_eq`: the address operand has no part in the lengths;
* `process_registers`: what processing leaves of the counter;
* **`label_offset`**: the geometry of every statement with an address operand;
* **`block_torn`**: a block with an address operand.
-/

namespace SpsAssembler

variable {s t : Statement} {a b c : Assembly} {p : Placement} {i : Nat}

/-- Whether the counter places statements of a kind at an even address. -/
def Kind.isAligned : Kind → Bool
  | dac | dsac | das | dda | instruction => true
  | _ => false

/-- What the address operand of a kind is checked for. -/
def Kind.addressCheck : Kind → Check
  | dac | dsac | das => .addressOdd
  | dda => .addressEven
  | _ => .address

/-- The first cell that the counter gives to a statement. -/
def Assembly.nextCell (a : Assembly) (aligned : Bool) : Word :=
  if aligned && Check.isOdd a.counter then a.counter + 1 else a.counter

theorem alignEven_nextCell (a : Assembly) : (alignEven a).2.counter = a.nextCell true := by
  change (if _ then _ else _ : Assembly).counter = _
  unfold Assembly.nextCell
  rw [Bool.true_and]
  split <;> rfl

/-- How far the label of a statement with `length` cells stands behind the first of them. -/
def Statement.labelOffset (s : Statement) (a : Assembly) (length : Word) : Word :=
  match s.kind with
  | .dc | .ds | .dnb | .dgm | .dot | .dsac => length - 1
  | .dac | .das => 1
  | .dsb => (evaluateLength (s.operand 0) a).1 - 1
  | .dvlc => (evaluateLength (s.operand 1) a).1 - tailOf (evaluateLength (s.operand 1) a).1
  | _ => 0

/-! ## Where statements lie -/

/-- The label of a statement with cells is at its offset, and the first cell is given by the counter;
or else the label is given by an address operand, and the counter stays. -/
structure Lies (s : Statement) (address : Text) (a : Assembly) (p : Placement) (b : Assembly) :
    Prop where
  offset : 0 < p.length → p.labelAddress - p.address = s.labelOffset a p.length
  counted : address.isBlank = true → p.address = a.nextCell s.kind.isAligned
  named : address.isBlank = false →
    p.labelAddress = (evaluateLayout address s.kind.addressCheck a).1 ∧
      b.counter = a.counter ∧ b.last = a.last

theorem Leads.evaluateLayout_eq (h : Leads .still a b) (operand : Text) (check : Check) :
    (evaluateLayout operand check b).1 = (evaluateLayout operand check a).1 := by
  rw [evaluateLayout_value, evaluateLayout_value, h.layoutValue_eq, h.frame.options]

theorem Leads.labelOffset_eq (h : Leads .still a b) (s : Statement) (length : Word) :
    s.labelOffset b length = s.labelOffset a length := by
  unfold Statement.labelOffset evaluateLength
  rw [h.evaluateLayout_eq, h.evaluateLayout_eq]

theorem Lies.leads {address : Text} (hab : Leads .still a b) (h : Lies s address b p c) :
    Lies s address a p c where
  offset hpos := by rw [h.offset hpos, hab.labelOffset_eq]
  counted hblank := by
    rw [h.counted hblank, Assembly.nextCell, Assembly.nextCell, (hab.counter_eq rfl).1]
  named hnamed := by
    obtain ⟨hlabel, hcounter, hlast⟩ := h.named hnamed
    exact ⟨hlabel.trans (hab.evaluateLayout_eq _ _), hcounter.trans (hab.counter_eq rfl).1,
      hlast.trans (hab.counter_eq rfl).2⟩

theorem Lies.withWidths {address : Text} (h : Lies s address a p b) (widths : List Word) :
    Lies s address a { p with widths } b := ⟨h.offset, h.counted, h.named⟩

theorem placeAt_lies {aligned : Bool} {check : Check} {length offset : Word} (address : Text)
    (haligned : s.kind.isAligned = aligned) (hcheck : s.kind.addressCheck = check)
    (hoffset : 0 < length → offset = s.labelOffset a length) :
    Lies s address a (placeAt aligned check length offset address a).1
      (placeAt aligned check length offset address a).2 := by
  subst haligned hcheck
  have hlength := placeAt_length s.kind.isAligned s.kind.addressCheck length offset address a
  cases hblank : address.isBlank with
  | true =>
    have hstart : (placeAt s.kind.isAligned s.kind.addressCheck length offset address a).1 =
        ⟨a.nextCell s.kind.isAligned + offset, a.nextCell s.kind.isAligned, length, 0, 0, []⟩ := by
      unfold placeAt
      rw [Step.ite_apply, if_pos hblank]
      cases s.kind.isAligned with
      | false => rfl
      | true =>
        rw [← alignEven_nextCell]
        rfl
    refine ⟨fun hpos => ?_, fun _ => by rw [hstart], fun hnamed => ?_⟩
    · rw [hlength] at hpos ⊢
      rw [hstart, ← hoffset hpos, Int64.add_comm, Int64.add_sub_cancel]
    · rw [hblank] at hnamed
      cases hnamed
  | false =>
    have hgiven : placeAt s.kind.isAligned s.kind.addressCheck length offset address a =
        (⟨(evaluateLayout address s.kind.addressCheck a).1,
          (evaluateLayout address s.kind.addressCheck a).1 - offset, length, 0, 0, []⟩,
          (evaluateLayout address s.kind.addressCheck a).2) := by
      unfold placeAt
      rw [Step.ite_apply, if_neg (by simp [hblank])]
      rfl
    have hstill : Leads .still a (evaluateLayout address s.kind.addressCheck a).2 :=
      evaluateLayout_within a
    rw [hgiven]
    refine ⟨fun hpos => ?_, fun h => ?_, fun _ => ⟨rfl, hstill.counter_eq rfl⟩⟩
    · rw [← hoffset hpos]
      grind
    · rw [hblank] at h
      cases h

theorem tailOf_of_pos {n : Word} (h : 0 < n) : tailOf n = 1 := if_pos h

theorem measured_lies {x : Step Word} (hx : Step.Within .still x) {aligned : Bool} {check : Check}
    {length offset : Word → Word} (address : Text) (haligned : s.kind.isAligned = aligned)
    (hcheck : s.kind.addressCheck = check)
    (hoffset : ∀ n b, 0 < length n → offset n = s.labelOffset b (length n)) :
    Lies s address a ((x >>= fun n => placeAt aligned check (length n) (offset n) address) a).1
      ((x >>= fun n => placeAt aligned check (length n) (offset n) address) a).2 :=
  (placeAt_lies address haligned hcheck (hoffset _ _)).leads (hx a)

theorem placeBlock_lies (hkind : s.kind = .dsb) (hblank : (s.operand 2).isBlank = true) :
    Lies s (s.operand 2) a (placeBlock s a).1 (placeBlock s a).2 := by
  have hsize : Leads .still a (evaluateLength (s.operand 0) a).2 := evaluateLength_within a
  have hcount : Leads .still (evaluateLength (s.operand 0) a).2
      (evaluateLength (s.operand 1) (evaluateLength (s.operand 0) a).2).2 := evaluateLength_within _
  have hcounter := (hcount.counter_eq rfl).1.trans (hsize.counter_eq rfl).1
  unfold placeBlock
  rw [Step.bind_apply, Step.bind_apply, Step.ite_apply, if_pos hblank]
  refine ⟨fun hpos => ?_, fun _ => ?_, fun hnamed => ?_⟩
  · rw [Statement.labelOffset, hkind]
    simp only [Step.bind_apply, Step.pure_apply] at hpos ⊢
    rw [if_pos hpos, Int64.add_comm, Int64.add_sub_cancel]
  · rw [Assembly.nextCell, hkind]
    exact hcounter
  · rw [hblank] at hnamed
    cases hnamed

theorem headD_mapM_range {f : Nat → Step Word} {n : Nat} (h : 0 < n) (a : Assembly) :
    ((List.range n).mapM f a).1.headD 0 = (f 0 a).1 := by
  obtain ⟨m, rfl⟩ := Nat.exists_eq_succ_of_ne_zero (Nat.ne_of_gt h)
  rw [List.range_succ_eq_map, List.mapM_cons]
  rfl

theorem placeFields_lies (hkind : s.kind = .dvlc) :
    Lies s (s.operand 0) a (placeFields s a).1 (placeFields s a).2 := by
  have hfirst := headD_mapM_range (f := fun j => evaluateLength (s.operand (1 + 2 * j)))
    (n := maxFields) (by decide) a
  have hwidths := widths_within s a
  unfold placeFields
  -- Nothing may unfold the row of evaluations.
  generalize List.range maxFields = js at hfirst hwidths ⊢
  rw [Step.bind_apply]
  generalize js.mapM (fun j => evaluateLength (s.operand (1 + 2 * j))) a = measured at *
  obtain ⟨widths, b⟩ := measured
  have hreport : Leads .still b
      (reportIf (maxConstantLength < widths.foldl (· + ·) 0) (error (.totalTooLong 50)) b).2 :=
    reportIf_within _ rfl b
  have hstill : Leads .still a _ := hwidths.trans hreport
  refine Lies.withWidths (Lies.leads hstill (placeAt_lies (s.operand 0) (by rw [hkind]; rfl)
    (by rw [hkind]; rfl) fun _ => ?_)) widths
  rw [hstill.labelOffset_eq, Statement.labelOffset, hkind]
  dsimp only at hfirst ⊢
  rw [hfirst]

/-- **Where the cells and the label of a statement are.** -/
theorem place_lies (hi : s.kind.addressPlace? = some i)
    (hblock : s.kind = .dsb → (s.operand i).isBlank = true) (a : Assembly) :
    Lies s (s.operand i) a (place s a).1 (place s a).2 := by
  have hright : ∀ n : Word, 0 < n → n - tailOf n = n - 1 := fun n h => by rw [tailOf_of_pos h]
  have hpairs : ∀ (address : Text) (n : Word), 0 < 2 * n →
      (if address.isBlank then 1 else tailOf (2 * n)) = (1 : Word) := by
    intro address n h
    rw [tailOf_of_pos h, ite_self]
  unfold place
  cases hkind : s.kind <;> rw [hkind] at hi <;> cases hi
  case dac =>
    exact measured_lies constantLength_within _ (by rw [hkind]; rfl) (by rw [hkind]; rfl)
      fun n b h => by rw [Statement.labelOffset, hkind]; exact hpairs _ n h
  case dsac =>
    exact measured_lies constantLength_within _ (by rw [hkind]; rfl) (by rw [hkind]; rfl)
      fun n b h => by rw [Statement.labelOffset, hkind]; exact hright _ h
  case das =>
    exact measured_lies evaluateLength_within _ (by rw [hkind]; rfl) (by rw [hkind]; rfl)
      fun n b h => by rw [Statement.labelOffset, hkind]; exact hpairs _ n h
  case dc =>
    exact measured_lies constantLength_within _ (by rw [hkind]; rfl) (by rw [hkind]; rfl)
      fun n b h => by rw [Statement.labelOffset, hkind]; exact hright _ h
  case dsc =>
    exact measured_lies constantLength_within _ (by rw [hkind]; rfl) (by rw [hkind]; rfl)
      fun n b h => by rw [Statement.labelOffset, hkind]
  case dnb =>
    exact measured_lies constantLength_within _ (by rw [hkind]; rfl) (by rw [hkind]; rfl)
      fun n b h => by rw [Statement.labelOffset, hkind]; exact hright _ h
  case dgm =>
    exact placeAt_lies _ (by rw [hkind]; rfl) (by rw [hkind]; rfl)
      fun h => by rw [Statement.labelOffset, hkind]; exact hright _ h
  case dot =>
    refine (placeAt_lies _ (by rw [hkind]; rfl) (by rw [hkind]; rfl) fun h => ?_).leads
      (octalLength_within a)
    rw [Statement.labelOffset, hkind]
    exact hright _ h
  case ds =>
    exact measured_lies evaluateLength_within _ (by rw [hkind]; rfl) (by rw [hkind]; rfl)
      fun n b h => by rw [Statement.labelOffset, hkind]; exact hright _ h
  case dss =>
    exact measured_lies evaluateLength_within _ (by rw [hkind]; rfl) (by rw [hkind]; rfl)
      fun n b h => by rw [Statement.labelOffset, hkind]
  case dsb => exact placeBlock_lies hkind (hblock hkind)
  case dda =>
    exact placeAt_lies _ (by rw [hkind]; rfl) (by rw [hkind]; rfl)
      fun h => by rw [Statement.labelOffset, hkind]
  case dvlc => exact placeFields_lies hkind

/-! ## Statements that differ in the address operand -/

theorem placeBlock_length (s : Statement) (a : Assembly) : (placeBlock s a).1.length =
    (evaluateLength (s.operand 0) a).1 *
      (evaluateLength (s.operand 1) (evaluateLength (s.operand 0) a).2).1 := by
  unfold placeBlock
  rw [Step.bind_apply, Step.bind_apply, Step.ite_apply]
  split <;> rfl

section SameLengths

variable (hkind : t.kind = s.kind) (hi : s.kind.addressPlace? = some i)
  (h : ∀ j, j ≠ i → t.operand j = s.operand j)

include hkind hi h

/-- Statements that differ in the address operand alone have as many cells. -/
theorem place_length_eq (a : Assembly) : (place t a).1.length = (place s a).1.length := by
  unfold place
  rw [hkind]
  cases hk : s.kind <;> rw [hk] at hi <;> cases hi
  case dsb =>
    have h0 := h 0 (by decide)
    have h1 := h 1 (by decide)
    simp only [placeBlock_length, h0, h1]
  case dvlc =>
    have hwidths : (fun j => evaluateLength (t.operand (1 + 2 * j))) =
        fun j => evaluateLength (s.operand (1 + 2 * j)) := funext fun j => by rw [h _ (by omega)]
    simp only [placeFields, hwidths, Step.bind_apply, Step.pure_apply, placeAt_length]
  case dgm => simp only [placeRight, placeAt_length]
  case dda => simp only [placeAt_length]
  all_goals
    have h0 := h 0 (by decide)
    simp only [Step.bind_apply, placePairs, placeRight, placeLeft, placeAt_length, h0]

/-- The address operand has no part in where the label stands among the cells. -/
theorem labelOffset_eq (a : Assembly) (length : Word) :
    t.labelOffset a length = s.labelOffset a length := by
  unfold Statement.labelOffset
  rw [hkind]
  cases hk : s.kind <;> rw [hk] at hi <;> cases hi
  case dsb => dsimp only; rw [h 0 (by decide)]
  case dvlc => dsimp only; rw [h 1 (by decide)]

end SameLengths

/-! ## The counter -/

theorem store_registers (address : Word) (value : Value) (a : Assembly) :
    (Build.final (store address value a)).registers = a.registers := by
  unfold store
  split <;> rfl

/-- Once a statement is placed, processing it does not move the counter, even if it ends in a fault. -/
theorem process_registers (s : Statement) (a : Assembly) :
    (Build.final (process s a)).registers = (place s a).2.registers := by
  rw [← layOut_registers]
  unfold process
  rw [Build.lift_bind, Build.get_bind]
  generalize layOut s a = laid
  split
  · have hencode : Leads .still laid.2 (Build.final (encode s laid.1 laid.2)) :=
      encode_within s laid.1 laid.2
    rw [← hencode.registers_eq]
    cases hvalue : encode s laid.1 laid.2 with
    | error f b =>
      rw [Build.bind_error hvalue]
      rfl
    | ok value b =>
      rw [Build.bind_ok hvalue]
      have hstore := store_registers laid.1.address value b
      cases hstored : store laid.1.address value b with
      | error f c =>
        rw [hstored] at hstore
        rw [Build.bind_error hstored]
        exact hstore
      | ok _ c =>
        rw [hstored] at hstore
        rw [Build.bind_ok hstored]
        exact hstore
  · rfl

/-! ## The geometry of a statement -/

theorem placeBlock_named (hblank : (s.operand 2).isBlank = false) (a : Assembly) :
    (placeBlock s a).1.labelAddress = (evaluateLayout (s.operand 2) .address a).1 ∧
      (placeBlock s a).1.address = a.counter ∧ (placeBlock s a).2.counter = a.counter ∧
      (placeBlock s a).2.last = a.last := by
  have hsize : Leads .still a (evaluateLength (s.operand 0) a).2 := evaluateLength_within a
  have hcount : Leads .still (evaluateLength (s.operand 0) a).2
      (evaluateLength (s.operand 1) (evaluateLength (s.operand 0) a).2).2 := evaluateLength_within _
  have hlengths : Leads .still a _ := hsize.trans hcount
  unfold placeBlock
  rw [Step.bind_apply, Step.bind_apply, Step.ite_apply, if_neg (by simp [hblank])]
  have hlabel : Step.Within .still (evaluateLayout (s.operand 2) .address) := evaluateLayout_within
  have hnamed := hlabel (evaluateLength (s.operand 1) (evaluateLength (s.operand 0) a).2).2
  exact ⟨hlengths.evaluateLayout_eq _ _, (hlengths.counter_eq rfl).1,
    (hnamed.counter_eq rfl).1.trans (hlengths.counter_eq rfl).1,
    (hnamed.counter_eq rfl).2.trans (hlengths.counter_eq rfl).2⟩

/-- An address operand gives the label and leaves the counter alone. -/
theorem place_named (hi : s.kind.addressPlace? = some i) (hnamed : (s.operand i).isBlank = false)
    (a : Assembly) :
    (place s a).1.labelAddress = (evaluateLayout (s.operand i) s.kind.addressCheck a).1 ∧
      (place s a).2.counter = a.counter ∧ (place s a).2.last = a.last ∧
      (s.kind = .dsb → (place s a).1.address = a.counter) := by
  by_cases hkind : s.kind = .dsb
  · have hplace : place s = placeBlock s := by
      unfold place
      rw [hkind]
    rw [hkind] at hi
    cases hi
    obtain ⟨hlabel, haddress, hcounter, hlast⟩ := placeBlock_named hnamed a
    rw [hplace, hkind]
    exact ⟨hlabel, hcounter, hlast, fun _ => haddress⟩
  · obtain ⟨hlabel, hcounter, hlast⟩ :=
      (place_lies hi (fun h => absurd h hkind) a).named hnamed
    exact ⟨hlabel, hcounter, hlast, fun h => absurd h hkind⟩

/-- **Both ways of placing a statement give the same geometry**, except for a block with an address
operand. The label of a statement with cells stands as far behind the first of them as its kind and
its lengths say, and so does that of every statement which differs in the address operand alone. An
address operand gives the label and leaves the counter where it is; a block stays at the counter
nevertheless. -/
theorem label_offset (hi : s.kind.addressPlace? = some i) (a : Assembly) :
    let p := (layOut s a).1
    (∀ o b, process s a = .ok o b → o.placement = p) ∧
    (0 < p.length → (s.kind = .dsb → (s.operand i).isBlank = true) →
      p.labelAddress - p.address = s.labelOffset a p.length ∧
      ∀ t : Statement, t.kind = s.kind → (∀ j, j ≠ i → t.operand j = s.operand j) →
        (s.kind = .dsb → (t.operand i).isBlank = true) →
        (layOut t a).1.length = p.length ∧
          (layOut t a).1.labelAddress - (layOut t a).1.address = p.labelAddress - p.address) ∧
    ((s.operand i).isBlank = false →
      p.labelAddress = (evaluateLayout (s.operand i) s.kind.addressCheck a).1 ∧
      (Build.final (process s a)).counter = a.counter ∧
      (Build.final (process s a)).last = a.last ∧
      (s.kind = .dsb → p.address = a.counter)) := by
  intro p
  have hplaced : ∀ t : Statement, (layOut t a).1 = (place t a).1 := fun t => by rw [layOut_apply]
  refine ⟨fun o b h => (processed_of_process h).placement, fun hpos hblock => ?_, fun hnamed => ?_⟩
  · have hoffset := (place_lies hi hblock a).offset
    rw [← hplaced] at hoffset
    refine ⟨hoffset hpos, fun t hkind hsame hblank => ?_⟩
    have hlength : (layOut t a).1.length = p.length := by
      rw [hplaced, place_length_eq hkind hi hsame, ← hplaced]
    have hother := (place_lies (s := t) (by rwa [hkind]) (fun h => hblank (hkind ▸ h)) a).offset
    rw [← hplaced, hlength, labelOffset_eq hkind hi hsame] at hother
    exact ⟨hlength, (hother hpos).trans (hoffset hpos).symm⟩
  · have hregisters := process_registers s a
    simp only [Assembly.registers, Prod.mk.injEq] at hregisters
    obtain ⟨hlabel, hcounter, hlast, hblock⟩ := place_named hi hnamed a
    unfold p
    rw [hplaced, hregisters.1, hregisters.2.1]
    exact ⟨hlabel, hcounter, hlast, hblock⟩

/-- A state of the first pass, before any statement. -/
def emptyPass : Assembly where
  options := { memorySize := 20000 }
  log := { warnings := true, pass := 1 }
  symbols := { divide := true }
  memory := ⟨#[]⟩
  counter := startAddress

/-- A variable constant with a field of three and a field of four cells. -/
def twoFields (address : String) : Statement where
  line := { number := 1, operation := ascii "DVLC" }
  descriptor := Descriptor.declare "DVLC" .dvlc 41 .data
  operands := [ascii address, ascii "3", ascii "12", ascii "4", ascii "5"]

theorem label_offset_twoFields :
    (twoFields "1000").kind.addressPlace? = some 0 ∧
    (layOut (twoFields "1000") emptyPass).1.length = 7 ∧
    (layOut (twoFields "1000") emptyPass).1.labelAddress = 1000 ∧
    (layOut (twoFields "1000") emptyPass).1.address = 998 ∧
    (layOut (twoFields "") emptyPass).1.address = 402 ∧
    (layOut (twoFields "") emptyPass).1.labelAddress = 404 ∧
    (Build.final (process (twoFields "1000") emptyPass)).counter = 402 := by
  have hi : (twoFields "1000").kind.addressPlace? = some 0 := rfl
  have hlength : (layOut (twoFields "1000") emptyPass).1.length = 7 := by decide +kernel
  have hstart : (layOut (twoFields "") emptyPass).1.address = 402 := by decide +kernel
  have hvalue : (evaluateLayout (ascii "1000") .address emptyPass).1 = 1000 := by decide +kernel
  have hoffset : (twoFields "1000").labelOffset emptyPass 7 = 2 := by decide +kernel
  have hsame : ∀ j, j ≠ 0 → (twoFields "").operand j = (twoFields "1000").operand j := by
    intro j hj
    obtain ⟨k, rfl⟩ := Nat.exists_eq_succ_of_ne_zero hj
    rfl
  have hdvlc : (twoFields "1000").kind ≠ .dsb := by decide
  obtain ⟨-, hgeometry, hnamed⟩ := label_offset hi emptyPass
  obtain ⟨hlabel, hcounter, -, -⟩ := hnamed rfl
  obtain ⟨hfirst, hboth⟩ := hgeometry (by rw [hlength]; decide) fun h => absurd h hdvlc
  obtain ⟨-, hother⟩ := hboth (twoFields "") rfl hsame fun h => absurd h hdvlc
  rw [hlength, hoffset] at hfirst
  rw [hfirst, hstart] at hother
  have hthere : (layOut (twoFields "1000") emptyPass).1.labelAddress = 1000 := hlabel.trans hvalue
  rw [hthere] at hfirst
  exact ⟨hi, hlength, hthere, by grind, hstart, by grind, hcounter⟩

/-- A block of ten elements of five cells. -/
def block (address : String) : Statement where
  line := { number := 1, operation := ascii "DSB" }
  descriptor := Descriptor.declare "DSB" .dsb 3 .reserve2
  operands := [ascii "5", ascii "10", ascii address]

/-- **A block with an address operand is torn apart.** Its label goes to where the operand says and
its cells stay at the counter, so nothing is reported of a block that would not fit at its label. -/
theorem block_torn :
    (layOut (block "") emptyPass).1 =
      { labelAddress := 406, address := 402, length := 50, count := 10 } ∧
    (layOut (block "1000") emptyPass).1 =
      { labelAddress := 1000, address := 402, length := 50, count := 10 } ∧
    (layOut (block "19990") emptyPass).1 =
      { labelAddress := 19990, address := 402, length := 50, count := 10 } ∧
    (layOut (block "19990") emptyPass).2.log.errorCount = 0 := by
  refine ⟨?_, ?_, ?_, ?_⟩ <;> decide +kernel

end SpsAssembler
