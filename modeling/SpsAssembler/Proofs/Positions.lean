import SpsAssembler.Machine.Constant
import SpsAssembler.Proofs.Fields

/-!
# Constants without a position outside

A constant is encoded by position: its characters are copied into new cells, from right to left if
they are digits and from left to right if they are pairs. No position outside the text or the cells is
looked at, so what is encoded can be said without positions.

* `fetch_ok`, `slice_ok`, `assign_ok`, `allocate_cases`: positions that are there;
* `copyDigits_eq`, `hasDigits_eq`, **`encodeNumber_eq`**: numeric constants;
* `copyPairs_eq`, **`encodeText_eq`**: alphameric constants;
* `encodeNumber_ok`, `encodeText_ok`: how many cells they have.
-/

namespace SpsAssembler

/-! ## Positions -/

section Positions

variable {α : Type} {xs : List α} {i j : Nat}

theorem fetch_ok {x : α} (h : xs[i]? = some x) : fetch xs.toArray i = .ok x := by
  obtain ⟨hi, rfl⟩ := List.getElem?_eq_some_iff.mp h
  rw [fetch, dif_pos ⟨by omega, by simpa using hi⟩]
  simp

theorem fetch_zero {x : α} : fetch (x :: xs).toArray 0 = .ok x := fetch_ok (i := 0) rfl

theorem slice_ok (hij : i ≤ j) (hj : j ≤ xs.length) :
    slice xs.toArray i j = .ok ((xs.take j).drop i).toArray := by
  rw [slice, if_pos ⟨by omega, by omega, by simpa using hj⟩]
  simp [List.extract_eq_take_drop, List.drop_take]

theorem slice_front (hj : j ≤ xs.length) : slice xs.toArray 0 j = .ok (xs.take j).toArray :=
  slice_ok (Nat.zero_le j) hj

theorem slice_back (hi : i ≤ xs.length) :
    slice xs.toArray i xs.length = .ok (xs.drop i).toArray := by
  rw [slice_ok hi (Nat.le_refl _), List.take_length]

theorem assign_ok (x : α) (hi : i < xs.length) :
    assign xs.toArray i x = .ok (xs.set i x).toArray := by
  rw [assign, dif_pos ⟨by omega, by simpa using hi⟩]
  simp

end Positions

theorem allocate_cases {n : Word} {k : Nat} (h : allocate n = .ok k) : n.toInt = k ∧ k ≤ maxSize := by
  unfold allocate at h
  split at h
  · cases h
  · rename_i hsize
    cases h
    simp only [Bool.or_eq_true, decide_eq_true_eq, not_or, Int64.lt_iff_toInt_lt,
      show (0 : Word).toInt = 0 from rfl] at hsize
    rw [Int64.toNatClampNeg] at hsize ⊢
    omega

theorem clamp_of_allocate {n : Word} {k : Nat} (h : allocate n = .ok k) : k = n.toNatClampNeg := by
  rw [Int64.toNatClampNeg, (allocate_cases h).1]
  rfl

/-! ## Numeric constants -/

/-- Flags the last cell, if there is one. -/
def flagLast (v : Value) : Value := v.modify (v.length - 1) Cell.flagged

section Number

variable {text : Text} {first stop room : Nat}

theorem getElem?_of_lt {α : Type} {xs : List α} {i : Nat} (h : i < xs.length) :
    ∃ x, xs[i]? = some x := ⟨_, List.getElem?_eq_getElem h⟩

theorem drop_take_succ {b : Byte} (hchar : text[stop]? = some b) (hmore : first ≤ stop) :
    (text.take (stop + 1)).drop first = (text.take stop).drop first ++ [b] := by
  have hstop := (List.getElem?_eq_some_iff.mp hchar).1
  rw [List.take_add_one, hchar, List.drop_append_of_le_length (by rw [List.length_take]; omega)]
  rfl

/-- The digits fill the cells before `behind` from right to left; what there is no room for is left
over. -/
theorem copyDigits_eq (hfirst : first ≤ stop) (hstop : stop ≤ text.length) (behind : Value) :
    copyDigits text.toArray first room stop (List.replicate room 0 ++ behind).toArray =
      .ok ((List.replicate (room - (stop - first)) 0 ++
        (((text.take stop).drop first).drop (stop - first - room)).map numeralCell ++ behind).toArray,
        stop - min room (stop - first)) := by
  induction room generalizing stop behind with
  | zero =>
    have hall : ((text.take stop).drop first).drop (stop - first) = [] := by
      simp only [List.drop_eq_nil_iff, List.length_drop, List.length_take]
      omega
    simp [copyDigits, hall]
    rfl
  | succ room ih =>
    cases stop with
    | zero => simp [copyDigits]; rfl
    | succ stop =>
      by_cases hmore : first ≤ stop
      · obtain ⟨b, hchar⟩ := getElem?_of_lt hstop
        have hset : (List.replicate (room + 1) 0 ++ behind).set room (numeralCell b) =
            List.replicate room 0 ++ numeralCell b :: behind := by
          rw [List.replicate_succ', List.append_assoc, List.set_append_right _ _ (by simp)]
          simp
        have hkept : ((text.take stop).drop first ++ [b]).drop (stop - first - room) =
            ((text.take stop).drop first).drop (stop - first - room) ++ [b] :=
          List.drop_append_of_le_length (by simp only [List.length_drop, List.length_take]; omega)
        have hrest := ih hmore (by omega) (numeralCell b :: behind)
        rw [copyDigits, if_pos hmore, fetch_ok hchar]
        simp only [bind, Except.bind]
        rw [assign_ok _ (by simp; omega), hset]
        simp only
        rw [hrest, drop_take_succ hchar hmore,
          show stop + 1 - first - (room + 1) = stop - first - room by omega, hkept,
          show room + 1 - (stop + 1 - first) = room - (stop - first) by omega,
          show stop - min room (stop - first) = stop + 1 - min (room + 1) (stop + 1 - first) by omega]
        simp
      · obtain rfl : first = stop + 1 := by omega
        rw [copyDigits, if_neg hmore]
        simp
        rfl

theorem hasDigits_eq (hstop : stop ≤ text.length) : hasDigits text.toArray first stop =
    .ok (((text.take stop).drop first).any (· != '0'.toUInt8)) := by
  induction stop with
  | zero => simp [hasDigits]; rfl
  | succ stop ih =>
    rw [hasDigits]
    by_cases hmore : first ≤ stop
    · obtain ⟨b, hchar⟩ := getElem?_of_lt hstop
      rw [if_pos hmore, fetch_ok hchar, drop_take_succ hchar hmore, List.any_append]
      simp only [bind, Except.bind, ih (by omega), List.any_cons, List.any_nil, Bool.or_false]
      cases b != '0'.toUInt8 with
      | false => rw [Bool.or_false]; rfl
      | true => rw [Bool.or_true]; rfl
    · have hnone : (text.take (stop + 1)).drop first = [] := by
        simp only [List.drop_eq_nil_iff, List.length_take]
        omega
      rw [if_neg hmore, hnone]
      rfl

theorem flagAt_ok {v : Value} {i : Nat} (hi : i < v.length) :
    flagAt v.toArray i = .ok (v.modify i Cell.flagged).toArray := by
  obtain ⟨c, hc⟩ := getElem?_of_lt hi
  rw [flagAt, fetch_ok hc, List.modify_eq_set, hc]
  exact assign_ok _ hi

theorem modify_append {v w : Value} {i : Nat} (hi : i < v.length) :
    (v ++ w).modify i Cell.flagged = v.modify i Cell.flagged ++ w := by
  rw [List.modify_eq_set, List.modify_eq_set, List.set_append_left _ _ hi,
    List.getElem?_append_left hi]

/-- The sign of a constant of `n` cells flags the last digit before the mark. -/
theorem flagSign_eq {n : Nat} {cells : Value} (marked : Bool)
    (hcells : cells.length = if marked && 0 < n then n - 1 else n) :
    flagSign n marked (cells ++ if marked && 0 < n then [Cell.recordMark] else []).toArray =
      .ok (flagLast cells ++ if marked && 0 < n then [Cell.recordMark] else []).toArray := by
  have hplace : ∀ (i : Nat) (mark : Value), i + 1 = cells.length →
      flagAt (cells ++ mark).toArray i = .ok (flagLast cells ++ mark).toArray := by
    intro i mark hi
    rw [flagAt_ok (by rw [List.length_append]; omega), modify_append (by omega), flagLast, ← hi]
    rfl
  have hempty : cells.length = 0 → flagLast cells = cells := by
    intro h
    rw [List.eq_nil_of_length_eq_zero h]
    rfl
  unfold flagSign
  cases marked with
  | false =>
    simp only [Bool.false_and, Bool.false_eq_true, if_false] at hcells ⊢
    by_cases hn : 0 < n
    · rw [if_pos (by simpa using hn), show (n : Int) - 1 = (n - 1 : Nat) by omega]
      exact hplace _ [] (by omega)
    · rw [if_neg (by simpa using hn), hempty (by omega)]
      rfl
  | true =>
    simp only [Bool.true_and, decide_eq_true_eq] at hcells ⊢
    rw [if_neg (by simp)]
    by_cases hn : 1 < n
    · rw [if_pos hn, show (n : Int) - 2 = (n - 2 : Nat) by omega]
      exact hplace _ _ (by rw [hcells, if_pos (by omega)]; omega)
    · rw [if_neg hn, hempty (by rw [hcells]; split <;> omega)]
      rfl

theorem newCells_eq (n : Nat) {closed : Bool} (h : closed = true → 0 < n) :
    newCells n closed = .ok (List.replicate (if closed then n - 1 else n) 0 ++
      if closed then [Cell.recordMark] else []).toArray := by
  unfold newCells
  cases closed with
  | false => simp; rfl
  | true =>
    obtain ⟨m, rfl⟩ : ∃ m, n = m + 1 := ⟨n - 1, by have := h rfl; omega⟩
    have hset : (List.replicate (m + 1) (0 : Cell)).set m Cell.recordMark =
        List.replicate m 0 ++ [Cell.recordMark] := by
      rw [List.replicate_succ', List.set_append_right _ _ (by simp)]
      simp
    rw [if_pos rfl, ← List.toArray_replicate, show ((m + 1 : Nat) : Int) - 1 = (m : Nat) by omega,
      assign_ok _ (by simp), hset]
    rfl

theorem spanned_eq (hfirst : first ≤ stop) (hstop : stop ≤ text.length) :
    spanned text.toArray first stop = .ok ((text.take stop).drop first) := by
  unfold spanned
  split
  · rw [slice_ok hfirst hstop]
    rfl
  · have hnone : (text.take stop).drop first = [] := by
      simp only [List.drop_eq_nil_iff, List.length_take]
      omega
    rw [hnone]
    rfl

theorem stop_le (marked : Bool) (text : Text) :
    (if marked then text.length - 1 else text.length) ≤ text.length := by
  split <;> omega

theorem unmarked_eq (marked : Bool) (text : Text) : (if marked then text.dropLast else text) =
    text.take (if marked then text.length - 1 else text.length) := by
  split
  · exact List.dropLast_eq_take
  · exact (List.take_length ..).symm

theorem first_le_stop (text : Text) (n : Nat) :
    (if text.head? == some '-'.toUInt8 then 1 else 0) ≤
      if isMarked text && 0 < n then text.length - 1 else text.length := by
  cases text with
  | nil => simp
  | cons b rest =>
    cases rest with
    | nil =>
      by_cases hb : b = '-'.toUInt8
      · subst hb
        have hmark : isMarked ['-'.toUInt8] = false := by decide
        simp [hmark]
      · simp [hb]
    | cons c rest =>
      simp only [List.length_cons]
      split <;> split <;> omega

/-- **A numeric constant without positions**: the digits that there is room for stand at the end, and
those in front of them are lost. -/
theorem encodeNumber_eq (length : Word) (extended : Bool) (text : Text) :
    encodeNumber length extended text = match allocate length with
      | .error f => .error f
      | .ok n =>
        let negative := text.head? == some '-'.toUInt8
        let marked := isMarked text && 0 < n
        let unmarked := if marked then text.dropLast else text
        let digits := if negative then unmarked.drop 1 else unmarked
        let room := if marked then n - 1 else n
        let mark := if marked then [Cell.recordMark] else []
        if !digits.all (isNumeralByte extended) then
          .ok ⟨List.replicate room 0 ++ mark, some (.invalidValue digits)⟩
        else
          let excess := digits.length - room
          let cells := List.replicate (room - digits.length) 0 ++ (digits.drop excess).map numeralCell
          let cells := if negative then flagLast cells else cells
          let lost := (digits.take excess).any (· != '0'.toUInt8)
          .ok ⟨cells ++ mark, if lost then some .tooLarge else none⟩ := by
  unfold encodeNumber
  cases allocate length with
  | error f => rfl
  | ok n =>
    have hfirst := first_le_stop text n
    have hstop := stop_le (isMarked text && 0 < n) text
    have hdigits : ∀ t : Text, (if text.head? == some '-'.toUInt8 then t.drop 1 else t) =
        t.drop (if text.head? == some '-'.toUInt8 then 1 else 0) := by
      intro t
      split <;> rfl
    have hcells := newCells_eq n (show (isMarked text && 0 < n) = true → 0 < n by simp)
    simp only [bind, Except.bind, List.size_toArray, hcells, hdigits, unmarked_eq]
    generalize hroom : (if (isMarked text && decide (0 < n)) = true then n - 1 else n) = room at *
    generalize (if (isMarked text && decide (0 < n)) = true then text.length - 1
      else text.length) = stop at *
    generalize (if (text.head? == some '-'.toUInt8) = true then 1 else 0) = first at *
    rw [spanned_eq hfirst hstop]
    have hlength : ((text.take stop).drop first).length = stop - first := by
      simp only [List.length_drop, List.length_take]
      omega
    have hrest : (text.take (stop - min room (stop - first))).drop first =
        ((text.take stop).drop first).take (stop - first - room) := by
      rw [List.take_drop, List.take_take]
      congr 2
      omega
    dsimp only
    split
    · rfl
    · rw [copyDigits_eq hfirst hstop]
      dsimp only
      rw [hasDigits_eq (by omega), hrest, hlength]
      dsimp only
      by_cases hnegative : (text.head? == some '-'.toUInt8) = true
      · rw [if_pos hnegative, if_pos hnegative, flagSign_eq]
        · rfl
        · rw [hroom]
          simp only [List.length_append, List.length_replicate, List.length_map, List.length_drop,
            List.length_take]
          omega
      · rw [if_neg hnegative, if_neg hnegative]
        rfl

theorem length_flagLast (v : Value) : (flagLast v).length = v.length := List.length_modify ..

theorem encodeNumber_ok {n : Word} {k : Nat} (h : allocate n = .ok k) (extended : Bool)
    (text : Text) : ∃ c, encodeNumber n extended text = .ok c ∧ c.cells.length = k := by
  rw [encodeNumber_eq, h]
  dsimp -zeta only
  extract_lets negative marked unmarked digits room mark excess cells signed lost
  have hroom : room + mark.length = k := by
    unfold room mark
    split
    · rename_i hmarked
      have hpos : 0 < k := by simpa using (Bool.and_eq_true_iff.mp hmarked).2
      simp
      omega
    · rfl
  have hcells : cells.length = room := by
    unfold cells excess
    rw [List.length_append, List.length_replicate, List.length_map, List.length_drop]
    omega
  have hsigned : signed.length = cells.length := by
    unfold signed
    split
    · exact length_flagLast cells
    · rfl
  split
  · exact ⟨_, rfl, by rw [List.length_append, List.length_replicate, hroom]⟩
  · exact ⟨_, rfl, by rw [List.length_append, hsigned, hcells, hroom]⟩

end Number

/-! ## Alphameric constants -/

/-- The pair of cells of a character. -/
def alphaCells (b : Byte) : Value :=
  match alphaCode? b with
  | some (zone, digit) => [zone, digit]
  | none => [0, 0]

/-- Fills up with zeros on the right to `n` cells. -/
def padCells (n : Nat) (v : Value) : Value := v ++ List.replicate (n - v.length) 0

section Text

variable {text : Text} {stop : Nat}

theorem assignPair_ok {done behind : Value} (x y : Cell) (pair : Cell × Cell) :
    assignPair (done ++ x :: y :: behind).toArray done.length pair =
      .ok (done ++ pair.1 :: pair.2 :: behind).toArray := by
  have hfirst : (done ++ x :: y :: behind).set done.length pair.1 =
      done ++ pair.1 :: y :: behind := by simp
  have hsecond : (done ++ pair.1 :: y :: behind).set (done.length + 1) pair.2 =
      done ++ pair.1 :: pair.2 :: behind := by simp
  rw [assignPair, assign_ok _ (by simp), hfirst]
  simp only [bind, Except.bind]
  rw [show (done.length : Int) + 1 = (done.length + 1 : Nat) by omega, assign_ok _ (by simp), hsecond]

@[simp] theorem length_padCells (n : Nat) (v : Value) : (padCells n v).length = max n v.length := by
  rw [padCells, List.length_append, List.length_replicate]
  omega

theorem length_alphaCells (b : Byte) : (alphaCells b).length = 2 := by
  unfold alphaCells
  split <;> rfl

theorem length_flatMap_alphaCells (text : Text) :
    (text.flatMap alphaCells).length = 2 * text.length := by
  rw [List.length_flatMap]
  simp only [length_alphaCells, List.map_const', List.sum_replicate_nat]
  omega

theorem padCells_pair (x y : Cell) (n : Nat) (v : Value) :
    padCells (2 * (n + 1)) (x :: y :: v) = x :: y :: padCells (2 * n) v := by
  simp only [padCells, List.length_cons, List.cons_append]
  congr 4
  omega

theorem alphaCells_eq (b : Byte) : alphaCells b =
    [((alphaCode? b).getD (0, 0)).1, ((alphaCode? b).getD (0, 0)).2] := by
  unfold alphaCells
  cases alphaCode? b <;> rfl

/-- The pairs of the characters that there is room for fill the cells from left to right, and zeros
the others. -/
theorem copyPairs_eq (hstop : stop ≤ text.length) {i : Nat} {done : Value}
    (hdone : done.length = 2 * i) (behind : Value) (room : Nat) :
    copyPairs text.toArray stop room i (done ++ (List.replicate (2 * room) 0 ++ behind)).toArray =
      .ok (done ++ (padCells (2 * room)
        ((((text.take stop).drop i).take room).flatMap alphaCells) ++ behind)).toArray := by
  induction room generalizing i done with
  | zero => simp [copyPairs, padCells]; rfl
  | succ room ih =>
    have hzeros : List.replicate (2 * (room + 1)) (0 : Cell) ++ behind =
        0 :: 0 :: (List.replicate (2 * room) 0 ++ behind) := rfl
    have hnext : ∀ pair : Cell × Cell, (done ++ [pair.1, pair.2]).length = 2 * (i + 1) := by
      intro pair
      simp only [List.length_append, hdone, List.length_cons, List.length_nil]
      omega
    have hassign : ∀ pair : Cell × Cell, assignPair
        (done ++ (List.replicate (2 * (room + 1)) 0 ++ behind)).toArray (2 * i) pair =
          .ok (done ++ [pair.1, pair.2] ++ (List.replicate (2 * room) 0 ++ behind)).toArray := by
      intro pair
      rw [hzeros, ← hdone, assignPair_ok, List.append_assoc]
      rfl
    rw [copyPairs]
    by_cases hi : i < stop
    · obtain ⟨b, hchar⟩ := getElem?_of_lt (Nat.lt_of_lt_of_le hi hstop)
      have hdrop : (text.take stop).drop i = b :: (text.take stop).drop (i + 1) := by
        refine List.drop_eq_getElem?_toList_append.trans ?_
        rw [List.getElem?_take_of_lt hi, hchar]
        rfl
      rw [if_pos hi, fetch_ok hchar]
      simp only [bind, Except.bind]
      rw [hassign]
      dsimp only
      rw [ih (hnext _), hdrop, List.take_succ_cons, List.flatMap_cons, alphaCells_eq b]
      simp only [List.cons_append, List.nil_append, padCells_pair, List.append_assoc]
    · have hdrop : ∀ k, i ≤ k → (text.take stop).drop k = [] := by
        intro k hk
        simp only [List.drop_eq_nil_iff, List.length_take]
        omega
      rw [if_neg hi]
      simp only [bind, Except.bind]
      rw [hassign]
      dsimp only
      rw [ih (hnext (0, 0)), hdrop i (Nat.le_refl i), hdrop (i + 1) (Nat.le_succ i)]
      simp only [List.take_nil, List.flatMap_nil, padCells, List.nil_append, List.length_nil,
        Nat.sub_zero, List.append_assoc]
      rfl

theorem double_of_allocate {length : Word} {n : Nat} (hpos : 0 < length)
    (h : allocate (2 * length) = .ok n) : (n : Int) = 2 * length.toInt := by
  have hlength : 0 < length.toInt := Int64.lt_iff_toInt_lt.mp hpos
  have hlt := length.toInt_lt
  have hmul := Int64.toInt_mul 2 length
  obtain ⟨hn, -⟩ := allocate_cases h
  rw [show (2 : Word).toInt = 2 from rfl, Int.bmod_def] at hmul
  split at hmul <;> omega

/-- **An alphameric constant without positions**: the pairs of its characters, blanks, and the
mark. -/
theorem encodeText_eq (length : Word) (text : Text) :
    encodeText length text = match allocate (2 * length) with
      | .error f => .error f
      | .ok n =>
        let marked := isMarked text
        let body := if marked then text.dropLast else text
        let room := if marked then n / 2 - 1 else n / 2
        if !body.all fun b => (alphaCode? b).isSome then
          .ok ⟨List.replicate n 0, some (.invalidValue text)⟩
        else
          let cells := padCells (2 * room) ((body.take room).flatMap alphaCells)
          let mark := if marked && 0 < length then [0, Cell.recordMark] else []
          .ok ⟨padCells n (cells ++ mark), none⟩ := by
  unfold encodeText
  cases hn : allocate (2 * length) with
  | error f => rfl
  | ok n =>
    have hstop := stop_le (isMarked text) text
    have hroom : 2 * (if isMarked text then n / 2 - 1 else n / 2) ≤ n := by
      split <;> omega
    have hclosed : isMarked text = true → 0 < length →
        n - 2 * (if isMarked text then n / 2 - 1 else n / 2) = 2 := by
      intro hmarked hpos
      have hdouble := double_of_allocate hpos hn
      have hlength : 0 < length.toInt := Int64.lt_iff_toInt_lt.mp hpos
      rw [if_pos hmarked]
      omega
    simp only [bind, Except.bind, List.size_toArray, unmarked_eq]
    generalize (if isMarked text = true then text.length - 1 else text.length) = stop at *
    generalize (if isMarked text = true then n / 2 - 1 else n / 2) = room at *
    rw [spanned_eq (Nat.zero_le stop) hstop, List.drop_zero]
    dsimp only
    split
    · rfl
    · have hdone : ([] : Value).length = 2 * 0 := rfl
      have hcopied := copyPairs_eq hstop hdone (List.replicate (n - 2 * room) 0) room
      rw [List.nil_append, List.nil_append, List.replicate_append_replicate, Nat.add_sub_cancel' hroom,
        List.drop_zero, List.toArray_replicate] at hcopied
      have hlength : (padCells (2 * room) (((text.take stop).take room).flatMap alphaCells)).length =
          2 * room := by
        rw [length_padCells, length_flatMap_alphaCells, List.length_take]
        omega
      rw [hcopied]
      dsimp only
      generalize padCells (2 * room) (((text.take stop).take room).flatMap alphaCells) = v at hlength ⊢
      split
      · rename_i hmark
        have hrest : n - 2 * room = 2 := by
          simp only [Bool.and_eq_true, decide_eq_true_eq] at hmark
          exact hclosed hmark.1 hmark.2
        have hfull : n - (v.length + 2) = 0 := by omega
        rw [hrest, ← hlength, show List.replicate 2 (0 : Cell) = [0, 0] from rfl, assignPair_ok]
        simp only [padCells, List.length_append, List.length_cons, List.length_nil, hfull,
          List.replicate_zero, List.append_nil]
        rfl
      · rw [padCells, List.append_nil, hlength]
        rfl

/-- An alphameric constant has two cells for each character. -/
theorem encodeText_ok {n : Word} {k : Nat} (h : allocate (2 * n) = .ok k) (text : Text) :
    ∃ c, encodeText n text = .ok c ∧ k ≤ c.cells.length ∧ c.cells.length ≤ k + 2 := by
  rw [encodeText_eq, h]
  dsimp -zeta only
  extract_lets marked body room cells mark
  have hroom : room ≤ k / 2 := by
    unfold room
    split <;> omega
  have hmark : mark.length ≤ 2 := by
    unfold mark
    split <;> simp
  have hcells : cells.length ≤ 2 * room := by
    unfold cells
    rw [length_padCells, length_flatMap_alphaCells, List.length_take]
    omega
  split
  · refine ⟨_, rfl, ?_⟩
    rw [List.length_replicate]
    omega
  · refine ⟨_, rfl, ?_⟩
    rw [length_padCells, List.length_append]
    omega

end Text

end SpsAssembler
