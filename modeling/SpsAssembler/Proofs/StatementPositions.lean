import SpsAssembler.Proofs.Steps

/-!
# Statements without a position outside

A step that meets a fault notes it, and the line that it belongs to ends in it. The steps on operand
texts, on tables of lengths and on tables of codes look at positions; none of these is outside, and
so none of these steps notes a fault.

* `evaluate_apply`, `evaluateLayout_apply`, `evaluateQuietly_eq`: the evaluation of operands;
* **`splitText_eq`**, `splitAddresses_eq`, `splitFixed_eq`, **`parse_eq`**: the operands of a line;
* `octalPower_bounds`, **`octalLength_eq`**: the length of an octal table;
* **`selectCode_eq`**: the code of a selector;
* `isMarkAlone_eq`, **`encodeConstant_eq`**: a record mark alone.
-/

namespace SpsAssembler

/-! ## Operands -/

theorem evaluateIn_fault (scope : Scope) (usage : Usage) (table : SymbolTable) (operand : Text) :
    (evaluateIn scope usage table operand).fault = none := by
  rw [evaluateIn_eq]
  split
  · rfl
  · dsimp only
    split
    · rfl
    · split
      · rfl
      · split
        · rfl
        · split <;> rfl

theorem evaluate_eq (operand : Text) (usage : Usage) : evaluate operand usage =
    modifyGet fun a =>
      let e := evaluateIn a.scope usage a.symbols operand
      ((e.value, e.index), { a with symbols := e.table }.raise e.reports) := by
  unfold evaluate
  simp only [evaluateIn_fault]
  rfl

theorem evaluateQuietly_eq (operand : Text) (usage : Usage) : evaluateQuietly operand usage =
    modifyGet fun a =>
      let e := evaluateIn a.scope usage a.symbols operand
      (e.value, { a with symbols := e.table }) := by
  unfold evaluateQuietly
  simp only [evaluateIn_fault]
  rfl

theorem evaluate_apply (operand : Text) (usage : Usage) (a : Assembly) :
    evaluate operand usage a =
      let e := evaluateIn a.scope usage a.symbols operand
      ((e.value, e.index), { a with symbols := e.table }.raise e.reports) := by
  rw [evaluate_eq]
  rfl

theorem evaluateLayout_apply (operand : Text) (check : Check) (a : Assembly) :
    evaluateLayout operand check a =
      let e := evaluateIn a.scope { star := a.last, ordered := true, check } a.symbols operand
      (e.value, { a with symbols := e.table }.raise e.reports) := by
  unfold evaluateLayout
  simp only [Step.bind_apply, Step.get_apply, evaluate_apply]
  rfl

/-! ## Operand texts -/

theorem Statement.operand_eq (s : Statement) (i : Nat) : s.operand i = s.operands.getD i [] := by
  unfold operand
  split
  · rename_i hi
    rw [List.getD_eq_getElem?_getD, List.getElem?_eq_getElem hi, Option.getD_some]
  · rename_i hi
    rw [List.getD_eq_getElem?_getD, List.getElem?_eq_none (by omega), Option.getD_none]

/-- The length of a list that is too long for a word wraps to something smaller. -/
theorem Word.toInt_ofLength_le {α : Type} (xs : List α) : (Word.ofLength xs).toInt ≤ xs.length := by
  rw [Word.ofLength, Int64.toInt_ofNat', Int.bmod_def,
    show ((Int64.size : Nat) : Int) = 2 ^ 64 from rfl]
  split <;> omega

@[simp] theorem settle_ok {α : Type} [Inhabited α] (x : α) : settle (.ok x) = (pure x : Step α) := rfl

theorem findIdx?_comma (text : Text) : text.findIdx? (· == Byte.comma) =
    match text.dropWhile (· != Byte.comma) with
    | [] => none
    | _ :: _ => some (text.takeWhile (· != Byte.comma)).length := by
  induction text with
  | nil => rfl
  | cons b text ih =>
    rw [List.findIdx?_cons, List.dropWhile_cons, List.takeWhile_cons, bne]
    cases b == Byte.comma with
    | true => rfl
    | false =>
      simp only [Bool.not_false, if_true, Bool.false_eq_true, if_false, ih]
      cases text.dropWhile (· != Byte.comma) <;> rfl

theorem slice_behind (front rest : Text) (b : Byte) {i j : Nat} (hij : i ≤ j) (hj : j ≤ rest.length) :
    slice (front ++ b :: rest).toArray (front.length + 1 + i : Nat) (front.length + 1 + j : Nat) =
      .ok ((rest.take j).drop i).toArray := by
  have htake : (front ++ b :: rest).take (front.length + 1 + j) = front ++ b :: rest.take j := by
    rw [Nat.add_assoc, Nat.add_comm 1 j, List.take_length_add_append, List.take_succ_cons]
  have hdrop : (front ++ b :: rest.take j).drop (front.length + 1 + i) = (rest.take j).drop i := by
    rw [Nat.add_assoc, Nat.add_comm 1 i, List.drop_length_add_append, List.drop_succ_cons]
  rw [slice_ok (by omega) (by simp; omega), htake, hdrop]

/-- **Cutting at the first comma**: the length stands before it, and the text behind it. -/
theorem splitText_eq (text : Text) : splitText text = (do
    let length := Text.strip (text.takeWhile (· != Byte.comma))
    match text.dropWhile (· != Byte.comma) with
    | [] => pure [length, [], []]
    | _ :: rest =>
      let a ← get
      let n ← evaluateQuietly length { star := a.last, ordered := true }
      if 0 ≤ n && n < Word.ofLength rest then
        let behind := Text.fields Byte.comma (rest.drop n.toNatClampNeg)
        reportIf (!Text.isBlank (behind.headD [])) (error .operandTextTooLong)
        pure [length, rest.take n.toNatClampNeg, Text.strip ((behind.drop 1).headD [])]
      else pure [length, rest, []]) := by
  unfold splitText
  rw [findIdx?_comma]
  have hparts : text.takeWhile (· != Byte.comma) ++ text.dropWhile (· != Byte.comma) = text :=
    List.takeWhile_append_dropWhile
  cases hdrop : text.dropWhile (· != Byte.comma) with
  | nil =>
    rw [hdrop, List.append_nil] at hparts
    rw [hparts]
  | cons b rest =>
    rw [hdrop] at hparts
    generalize text.takeWhile (· != Byte.comma) = front at hparts ⊢
    subst hparts
    have hlength : slice (front ++ b :: rest).toArray 0 front.length = .ok front.toArray := by
      rw [slice_front (by simp), List.take_left]
    have hsize : (front ++ b :: rest).toArray.size = front.length + 1 + rest.length := by
      simp only [List.size_toArray, List.length_append, List.length_cons]
      omega
    dsimp only
    rw [hlength, settle_ok, pure_bind]
    refine bind_congr fun a => bind_congr fun n => ?_
    rw [hsize, Nat.add_sub_cancel_left, ← Word.ofLength]
    by_cases hfits : (0 ≤ n && n < Word.ofLength rest) = true
    · have hbounds : 0 ≤ n.toInt ∧ n.toInt < rest.length := by
        simp only [Bool.and_eq_true, decide_eq_true_eq, Int64.le_iff_toInt_le,
          Int64.lt_iff_toInt_lt] at hfits
        exact ⟨hfits.1, Int.lt_of_lt_of_le hfits.2 (Word.toInt_ofLength_le rest)⟩
      have hn := Word.toInt_eq_clamp hbounds.1
      generalize n.toNatClampNeg = k at hn ⊢
      have hless : k < rest.length := by omega
      have hvalue := slice_behind front rest b (Nat.zero_le k) (Nat.le_of_lt hless)
      have hbehind := slice_behind front rest b (Nat.le_of_lt hless) (Nat.le_refl _)
      rw [Nat.add_zero, List.drop_zero] at hvalue
      rw [List.take_length] at hbehind
      rw [if_pos hfits, if_pos hfits, hn, ← Int.natCast_add, hvalue, settle_ok, pure_bind,
        if_neg (by omega), hbehind, settle_ok, pure_bind]
      dsimp only
      obtain ⟨first, more, hfields⟩ :=
        List.exists_cons_of_ne_nil (Text.fields_ne_nil Byte.comma (rest.drop k))
      rw [hfields, fetch_zero, settle_ok, pure_bind]
      refine bind_congr fun _ => ?_
      cases more with
      | nil => rfl
      | cons address more =>
        have hsecond : fetch (first :: address :: more).toArray 1 = .ok address :=
          fetch_ok (i := 1) rfl
        rw [if_pos (by simp), hsecond, settle_ok, pure_bind]
        rfl
    · have hvalue := slice_behind front rest b (Nat.zero_le _) (Nat.le_refl _)
      rw [Nat.add_zero, List.drop_zero, List.take_length] at hvalue
      rw [if_neg hfits, if_neg hfits, hvalue, settle_ok, pure_bind, if_pos rfl]

theorem splitAddresses_eq (text : Text) : splitAddresses text = (do
    let parts := text.fields Byte.comma
    reportIf (maxAddressOperands < parts.length) (error (.tooManyOperands maxAddressOperands))
    pure ((parts.take maxAddressOperands).map Text.strip)) := by
  unfold splitAddresses
  dsimp only
  by_cases hmany : maxAddressOperands < (text.fields Byte.comma).length
  · rw [if_pos hmany, slice_front (Nat.le_of_lt hmany), reportIf, decide_eq_true hmany]
    rfl
  · rw [if_neg hmany, reportIf, decide_eq_false hmany, List.take_of_length_le (by omega)]
    rfl

theorem splitFixed_eq (n : Nat) (text : Text) : splitFixed n text =
    ((text.fields Byte.comma).take n).map Text.strip ++
      List.replicate (n - ((text.fields Byte.comma).take n).length) [] := by
  unfold splitFixed
  generalize text.fields Byte.comma = parts
  refine List.ext_getElem? fun i => ?_
  by_cases hi : i < n
  · rw [List.getElem?_map, List.getElem?_range hi, Option.map_some]
    by_cases hpart : i < parts.length
    · rw [dif_pos hpart, List.getElem?_append_left (by simp; omega), List.getElem?_map,
        List.getElem?_take_of_lt hi, List.getElem?_eq_getElem hpart, Option.map_some]
    · rw [dif_neg hpart, List.getElem?_append_right (by simp; omega), List.getElem?_replicate_of_lt]
      simp only [List.length_map, List.length_take]
      omega
  · rw [List.getElem?_eq_none (by simp; omega), List.getElem?_eq_none (by simp; omega)]

/-- **The statement of a line**: an operation that is not blank has a first character. -/
theorem parse_eq (line : Line) : parse line = (do
    let a ← get
    if line.invalid then
      report [error .invalidCharacters]
      pure { line }
    else if a.ending != .running then pure { line }
    else if line.comment then pure { line, descriptor := Descriptor.comment }
    else if line.operation.isBlank then
      report [error .missingOperation]
      pure { line }
    else match Descriptor.find? line.operation with
      | none =>
        report [error (unknownOperation (line.operation.headD default) line.operation)]
        pure { line }
      | some descriptor =>
        reportIf (descriptor.model == .two && a.options.model != .two)
          (warning (.needsModel2 line.operation))
        let operands ← splitOperands descriptor line.operands
        pure { line, descriptor, operands }) := by
  unfold parse
  refine bind_congr fun a => ?_
  refine ite_congr rfl (fun _ => rfl) fun _ => ite_congr rfl (fun _ => rfl) fun _ =>
    ite_congr rfl (fun _ => rfl) fun _ => ite_congr rfl (fun _ => rfl) fun hblank => ?_
  cases hfind : Descriptor.find? line.operation with
  | some d => rfl
  | none =>
    cases hoperation : line.operation with
    | nil =>
      rw [hoperation] at hblank
      exact absurd rfl hblank
    | cons b rest => rw [fetch_zero]; rfl

/-! ## Octal tables -/

theorem octalPower_bounds (operand : Text) (a : Assembly) :
    0 ≤ (octalPower operand a).1.toInt ∧ (octalPower operand a).1.toInt ≤ maxOctalPower := by
  have hzero : (0 : Word).toInt = 0 := rfl
  have hlength : (Word.ofLength octalLengths).toInt = maxOctalPower + 1 := by
    rw [Word.ofLength, octalLengths, List.length_map, List.length_range]
    rfl
  have hlast : (Int64.ofNat (octalLengths.length - 1)).toInt = maxOctalPower := by
    rw [octalLengths, List.length_map, List.length_range]
    rfl
  unfold octalPower
  rw [Step.bind_apply]
  generalize (evaluateLength operand a).1 = power
  by_cases hneg : power < 0
  · rw [if_pos hneg, Step.bind_apply, Step.pure_apply, hzero]
    exact ⟨Int.le_refl 0, Int.natCast_nonneg _⟩
  · rw [if_neg hneg]
    by_cases hlarge : Word.ofLength octalLengths ≤ power
    · rw [if_pos hlarge, Step.bind_apply, Step.pure_apply, hlast]
      exact ⟨Int.natCast_nonneg _, Int.le_refl _⟩
    · rw [Int64.lt_iff_toInt_lt, hzero] at hneg
      rw [Int64.le_iff_toInt_le, hlength] at hlarge
      rw [if_neg (by rwa [Int64.le_iff_toInt_le, hlength]), Step.pure_apply]
      dsimp only
      exact ⟨by omega, by omega⟩

theorem fetch_octalLengths {power : Nat} (h : power ≤ maxOctalPower) :
    fetch octalLengths.toArray power = .ok (Word.ofLength (octalTable power)) := by
  refine fetch_ok ?_
  rw [octalLengths, List.getElem?_map, List.getElem?_range (by omega)]
  rfl

/-- **The length of an octal table** is found by its power. -/
theorem octalLength_eq (operand : Text) : octalLength operand = (do
    let power ← octalPower operand
    pure (Word.ofLength (octalTable power.toNatClampNeg))) := by
  unfold octalLength
  funext a
  obtain ⟨hlo, hhi⟩ := octalPower_bounds operand a
  simp only [Step.bind_apply]
  generalize (octalPower operand a).1 = power at hlo hhi ⊢
  have hpower := Word.toInt_eq_clamp hlo
  rw [hpower, fetch_octalLengths (by omega)]
  rfl

theorem octalLength_mem (operand : Text) (a : Assembly) : ∃ power ≤ maxOctalPower,
    (octalLength operand a).1 = Word.ofLength (octalTable power) := by
  obtain ⟨hlo, hhi⟩ := octalPower_bounds operand a
  rw [octalLength_eq]
  refine ⟨(octalPower operand a).1.toNatClampNeg, ?_, rfl⟩
  rw [Int64.toNatClampNeg]
  omega

/-! ## Encoding -/

/-- **The code of a selector** stands in the table, one place before its number. -/
theorem selectCode_eq (codes : List Word) (outOfRange : Nat → Word → Cause) (operand : Text)
    (star : Word) : selectCode codes outOfRange operand star = (do
      let (n, _) ← evaluate operand { star }
      if 1 ≤ n && n ≤ Word.ofLength codes then pure (codes.getD (n.toNatClampNeg - 1) 0, {})
      else
        report [error (outOfRange codes.length n)]
        pure (0, {})) := by
  unfold selectCode
  refine bind_congr fun r => ite_congr rfl (fun hbounds => ?_) fun _ => rfl
  obtain ⟨n, index⟩ := r
  simp only [Bool.and_eq_true, decide_eq_true_eq, Int64.le_iff_toInt_le] at hbounds
  obtain ⟨hlo, hhi⟩ := hbounds
  have hone : (1 : Word).toInt = 1 := rfl
  have hlength := Word.toInt_ofLength_le codes
  have hlt := n.toInt_lt
  have hpred : (n - 1).toInt = (n.toNatClampNeg - 1 : Nat) := by
    rw [Word.toInt_sub_of (by omega) (by omega), Int64.toNatClampNeg, hone]
    omega
  have hless : n.toNatClampNeg - 1 < codes.length := by
    rw [Int64.toNatClampNeg]
    omega
  obtain ⟨code, hcode⟩ := getElem?_of_lt hless
  rw [hpred, fetch_ok hcode, settle_ok, List.getD_eq_getElem?_getD, hcode]
  rfl

/-- A numeric constant has at least the cell that is looked at. -/
theorem isMarkAlone_eq {length : Word} (hlength : length ≠ 0) {extended : Bool} {text : Text}
    {c : Constant} (hc : encodeNumber length extended text = .ok c) :
    isMarkAlone length c.cells = .ok (c.cells == [Cell.recordMark]) := by
  have hzero : (0 : Word).toInt = 0 := rfl
  have hone : (1 : Word).toInt = 1 := rfl
  have hne : length.toInt ≠ 0 := fun h => hlength (Int64.toInt_inj.mp (h.trans hzero.symm))
  have hcells : c.cells.length = length.toInt := by
    cases hn : allocate length with
    | error f =>
      rw [encodeNumber_eq, hn] at hc
      cases hc
    | ok n =>
      obtain ⟨c', hc', hcount⟩ := encodeNumber_ok hn extended text
      rw [hc] at hc'
      cases hc'
      rw [hcount, (allocate_cases hn).1]
  unfold isMarkAlone
  by_cases hlong : 1 < length
  · rw [Int64.lt_iff_toInt_lt, hone, ← hcells] at hlong
    have hmany : c.cells ≠ [Cell.recordMark] := by
      intro h
      rw [h] at hlong
      exact absurd hlong (by decide)
    rw [if_pos (by rwa [Int64.lt_iff_toInt_lt, hone, ← hcells]), beq_eq_false_iff_ne.mpr hmany]
    rfl
  · rw [Int64.lt_iff_toInt_lt, hone, ← hcells] at hlong
    obtain ⟨x, hx⟩ := List.length_eq_one_iff.mp (show c.cells.length = 1 by omega)
    rw [if_neg (by rwa [Int64.lt_iff_toInt_lt, hone, ← hcells]), hx, fetch_zero]
    simp [Functor.map, Except.map]

/-- **A numeric constant** is not flagged if it is a record mark alone. -/
theorem encodeConstant_eq (s : Statement) (p : Placement) : encodeConstant s p = (do
    if p.length = 0 then pure []
    else
      let cells ← constantCells (encodeNumber p.length false (s.operand 1))
      pure (if cells == [Cell.recordMark] then cells else cells.flag 0)) := by
  unfold encodeConstant
  refine ite_congr rfl (fun _ => rfl) fun hlength => ?_
  cases hc : encodeNumber p.length false (s.operand 1) with
  | error f => rfl
  | ok c =>
    funext a
    have hcells : constantCells (.ok c) a =
        .ok c.cells (a.raise (c.error.toList.map fun e => error e.cause)) := rfl
    rw [Build.bind_ok hcells, Build.bind_ok hcells, isMarkAlone_eq hlength hc]
    rfl

section Encoders

variable {s : Statement} {p : Placement} {a b : Assembly} {v : Value}

theorem encodeBlanks_cases (h : encodeBlanks p a = .ok v b) :
    v = List.replicate p.length.toNatClampNeg Cell.numericBlank ∧ b = a := by
  unfold encodeBlanks at h
  split at h
  · obtain ⟨n, c, hn, hc⟩ := Build.ok_of_bind_ok h
    obtain ⟨hsize, rfl⟩ := Build.ofExcept_ok hn
    cases hc
    rw [clamp_of_allocate hsize]
    exact ⟨rfl, rfl⟩
  · rename_i hpos
    cases h
    have hzero : p.length.toNatClampNeg = 0 := by
      rw [Int64.lt_iff_toInt_lt, show (0 : Word).toInt = 0 from rfl] at hpos
      rw [Int64.toNatClampNeg]
      omega
    rw [hzero]
    exact ⟨rfl, rfl⟩

theorem encodeOctal_cases (h : encodeOctal p a = .ok v b) :
    v = (octalTable maxOctalPower).drop
      ((octalTable maxOctalPower).length - p.length.toNatClampNeg) ∧ b = a := by
  obtain ⟨cells, c, hcells, hc⟩ := Build.ok_of_bind_ok h
  obtain ⟨hslice, rfl⟩ := Build.ofExcept_ok hcells
  cases hc
  generalize octalTable maxOctalPower = table at hslice ⊢
  unfold slice at hslice
  split at hslice
  · rename_i hbounds
    rw [List.size_toArray] at hbounds hslice
    have hfirst : ((table.length : Int) - p.length.toInt).toNat =
        table.length - p.length.toNatClampNeg := by
      rw [Int64.toNatClampNeg]
      omega
    cases hslice
    rw [hfirst, Int.toNat_natCast, List.extract_toArray, List.extract_eq_take_drop,
      ← List.drop_take, List.take_length]
    exact ⟨rfl, rfl⟩
  · cases hslice

theorem encodeAddresses_cases (h : encodeAddresses s p a = .ok v b) :
    v = (putAddresses s p (List.replicate p.length.toNatClampNeg 0) a).1 ∧
      b = (putAddresses s p (List.replicate p.length.toNatClampNeg 0) a).2 := by
  obtain ⟨n, c, hn, hc⟩ := Build.ok_of_bind_ok h
  obtain ⟨hsize, rfl⟩ := Build.ofExcept_ok hn
  rw [← clamp_of_allocate hsize]
  cases hc
  exact ⟨rfl, rfl⟩

theorem encodeInstruction_cases (h : encodeInstruction s p a = .ok v b) :
    v = (buildInstruction s p a).1.take p.length.toNatClampNeg ∧ b = (buildInstruction s p a).2 := by
  unfold encodeInstruction at h
  rw [Build.lift_bind] at h
  obtain ⟨stored, c, hstored, hc⟩ := Build.ok_of_bind_ok h
  obtain ⟨hslice, rfl⟩ := Build.ofExcept_ok hstored
  cases hc
  unfold slice at hslice
  split at hslice
  · cases hslice
    rw [List.extract_toArray, List.extract_eq_take_drop]
    exact ⟨rfl, rfl⟩
  · cases hslice

end Encoders

end SpsAssembler
