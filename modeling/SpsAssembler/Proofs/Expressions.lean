import SpsAssembler.Expression.Evaluation
import SpsAssembler.Proofs.Positions

/-!
# Operands without a position outside

An operand is cut into terms by position, its index is read by position, and its terms are folded in
place: on a stack of terms with the operators between them a multiplication or division puts one term
in place of two, and what is left is added up. No position outside the operand or the stack is ever
looked at and nothing is divided by zero, so that evaluation can be said by recursion on the operand.

* `Expression.scan`, `Expression.read`: an operand from left to right;
* `Expression.cutFrom_eq`, **`Expression.cut_eq`**: cutting it by position has no fault;
* `Index.read?`, `readIndex`, **`cutIndex_eq`**: the index behind it;
* `collapse`, `sumFrom`, `total`: the value of a row of terms;
* `Stack.carryOut_eq`, **`Stack.fold_eq`**: folding in place has no fault;
* **`evaluateIn_eq`**: the evaluation of an operand.
-/

namespace SpsAssembler

/-! ## Terms -/

namespace Expression

/-- The rest of a term and the expression behind it. -/
def scan (divide : Bool) : Text → Text × Expression
  | [] => ([], {})
  | b :: rest =>
    if b == openBracket then ([], { index := b :: rest })
    else match Operator.read? divide b with
      | none => let (term, e) := scan divide rest; (b :: term, e)
      | some op =>
        match rest with
        | [] => ([], { dangling := true })
        | c :: rest' => let (term, e) := scan divide rest'; ([], e.cons op (c :: term))

/-- The expression of an operand that starts with a term. -/
def readFrom (divide : Bool) (op : Operator) : Text → Expression
  | [] => {}
  | b :: rest => let (term, e) := scan divide rest; e.cons op (b :: term)

/-- The expression of an operand. A minus in front takes the first term away from zero. -/
def read (divide : Bool) : Text → Expression
  | [] => {}
  | b :: rest =>
    if b == '-'.toUInt8 then readFrom divide .sub rest else readFrom divide .add (b :: rest)

section Cut

variable {divide : Bool} {t : Text}

theorem drop_eq_cons {pos : Nat} {b : Byte} (h : t[pos]? = some b) :
    t.drop pos = b :: t.drop (pos + 1) := by
  obtain ⟨hpos, rfl⟩ := List.getElem?_eq_some_iff.mp h
  exact List.drop_eq_getElem_cons hpos

/-- From a position on, the term that it stands in goes on with what is scanned behind it. -/
theorem cutFrom_eq {left start pos : Nat} (op : Operator) (hleft : left + pos = t.length)
    (hstart : start ≤ pos) : cutFrom divide t.toArray left op start pos =
      .ok ((scan divide (t.drop pos)).2.cons op
        ((t.take pos).drop start ++ (scan divide (t.drop pos)).1)) := by
  induction left using Nat.strongRecOn generalizing op start pos with
  | ind left ih =>
    have hterm : slice t.toArray start pos = .ok ((t.take pos).drop start).toArray :=
      slice_ok hstart (by omega)
    cases left with
    | zero =>
      have hend : t.drop pos = [] := List.drop_of_length_le (by omega)
      rw [cutFrom, hterm, hend, scan, List.append_nil]
      rfl
    | succ left =>
      obtain ⟨b, hb⟩ := getElem?_of_lt (show pos < t.length by omega)
      rw [cutFrom, fetch_ok hb]
      simp only [bind, Except.bind, hterm]
      by_cases hopen : (b == openBracket) = true
      · have hindex : slice t.toArray pos t.toArray.size = .ok (t.drop pos).toArray :=
          slice_back (by omega)
        have hscan : scan divide (t.drop pos) = ([], { index := t.drop pos }) := by
          rw [drop_eq_cons hb, scan, if_pos hopen]
        rw [if_pos hopen, hindex, hscan, List.append_nil]
        rfl
      · rw [if_neg hopen]
        cases hop : Operator.read? divide b with
        | none =>
          have hscan : scan divide (t.drop pos) =
              (b :: (scan divide (t.drop (pos + 1))).1, (scan divide (t.drop (pos + 1))).2) := by
            rw [drop_eq_cons hb, scan, if_neg hopen, hop]
          dsimp only
          rw [ih left (Nat.lt_succ_self left) op (by omega) (by omega), hscan,
            drop_take_succ hb hstart, List.append_assoc]
          rfl
        | some next =>
          cases left with
          | zero =>
            have hend : t.drop (pos + 1) = [] := List.drop_of_length_le (by omega)
            have hscan : scan divide (t.drop pos) = ([], { dangling := true }) := by
              rw [drop_eq_cons hb, hend, scan, if_neg hopen, hop]
            rw [hscan, List.append_nil]
            rfl
          | succ left =>
            obtain ⟨c, hc⟩ := getElem?_of_lt (show pos + 1 < t.length by omega)
            have hscan : scan divide (t.drop pos) = ([], (scan divide (t.drop (pos + 2))).2.cons next
                (c :: (scan divide (t.drop (pos + 2))).1)) := by
              rw [drop_eq_cons hb, drop_eq_cons hc, scan, if_neg hopen, hop]
            have hfirst : (t.take (pos + 2)).drop (pos + 1) = [c] := by
              rw [drop_take_succ hc (Nat.le_refl _), List.drop_of_length_le (List.length_take_le ..)]
              rfl
            dsimp only
            rw [ih left (by omega) next (by omega) (by omega), hscan, hfirst, List.append_nil]
            rfl

/-- **Cutting an operand** by position has no fault and gives its expression. -/
theorem cut_eq (h : t ≠ []) : cut divide t.toArray = .ok (read divide t) := by
  cases t with
  | nil => exact absurd rfl h
  | cons b rest =>
    rw [cut, fetch_zero, read]
    simp only [bind, Except.bind]
    split
    · cases rest with
      | nil => rfl
      | cons c rest =>
        rw [if_neg (by simp)]
        exact cutFrom_eq (t := b :: c :: rest) .sub (by simp) (by omega)
    · exact cutFrom_eq (t := b :: rest) .add (by simp) (by omega)

end Cut

theorem index_scan (divide : Bool) (t : Text) : (scan divide t).2.index <:+ t := by
  fun_induction scan divide t with
  | case1 => exact List.nil_suffix
  | case2 => exact List.suffix_refl _
  | case3 b rest _ _ term e hscan ih =>
    rw [hscan] at ih
    exact ih.trans (List.suffix_cons b rest)
  | case4 => exact List.nil_suffix
  | case5 b _ op _ c rest term e hscan ih =>
    rw [hscan] at ih
    exact (ih.trans (List.suffix_cons c rest)).trans (List.suffix_cons b _)

theorem index_readFrom (divide : Bool) (op : Operator) (t : Text) :
    (readFrom divide op t).index <:+ t := by
  cases t with
  | nil => exact List.nil_suffix
  | cons b rest => exact (index_scan divide rest).trans (List.suffix_cons b rest)

/-- **The index** is the end of an operand. -/
theorem index_read (divide : Bool) (t : Text) : (read divide t).index <:+ t := by
  cases t with
  | nil => exact List.nil_suffix
  | cons b rest =>
    rw [read]
    split
    · exact (index_readFrom divide .sub rest).trans (List.suffix_cons b rest)
    · exact index_readFrom divide .add _

end Expression

/-! ## Indices -/

/-- The number of an index register. -/
def registerOf? (b : Byte) : Option Word :=
  if Byte.within '0' '7' b then some (Int64.ofNat (b - '0'.toUInt8).toNat) else none

/-- An index such as `(3)` or `(B5)`. -/
def Index.read? : Text → Option Index
  | [l, d, r] =>
    if l == '('.toUInt8 && r == ')'.toUInt8 then (registerOf? d).map fun n => ⟨n, none⟩ else none
  | [l, b, d, r] =>
    if l == '('.toUInt8 && r == ')'.toUInt8 && (b == 'A'.toUInt8 || b == 'B'.toUInt8) then
      (registerOf? d).map fun n => ⟨n, some b⟩
    else none
  | _ => none

/-- The index behind an operand that may have one. -/
def readIndex (index : Text) : Index × List (Report Cause) :=
  if index.isEmpty then ({}, [])
  else match Index.read? index with
    | some i => (i, [])
    | none => ({}, [error (.invalidIndex index)])

/-- The register is the last but one character of an operand that ends in an index. -/
theorem fetch_register (front : Text) (d r : Byte) :
    fetch (front ++ [d, r]).toArray ((front ++ [d, r]).toArray.size - 2) = .ok d := by
  have hsize : ((front ++ [d, r]).toArray.size : Int) - 2 = (front.length : Nat) := by
    simp only [List.size_toArray, List.length_append, List.length_cons, List.length_nil]
    omega
  rw [hsize]
  exact fetch_ok (by simp)

theorem isSome_registerOf? (b : Byte) : (registerOf? b).isSome = Byte.within '0' '7' b := by
  unfold registerOf?
  cases Byte.within '0' '7' b <;> rfl

theorem eq_of_registerOf? {b : Byte} {n : Word} (h : registerOf? b = some n) :
    n = Int64.ofNat (b - '0'.toUInt8).toNat := by
  unfold registerOf? at h
  split at h
  · cases h
    rfl
  · cases h

theorem isIndex_eq (index : Text) : isIndex index = (Index.read? index).isSome := by
  unfold isIndex
  split
  · rename_i l d r
    rw [Index.read?]
    cases l == '('.toUInt8 <;> cases r == ')'.toUInt8 <;> simp [isSome_registerOf?]
  · rename_i l b d r
    rw [Index.read?]
    cases l == '('.toUInt8 <;> cases r == ')'.toUInt8 <;>
      cases (b == 'A'.toUInt8 || b == 'B'.toUInt8) <;> simp [isSome_registerOf?]
  · rename_i hthree hfour
    rw [Index.read?]
    · rfl
    · exact hthree
    · exact hfour

theorem Index.cut_eq {operand index : Text} (hend : index <:+ operand) {i : Index}
    (hi : Index.read? index = some i) : Index.cut operand.toArray index.toArray = .ok i := by
  obtain ⟨front, rfl⟩ := hend
  unfold Index.read? at hi
  split at hi
  · rename_i l d r
    split at hi
    · obtain ⟨n, hn, rfl⟩ := Option.map_eq_some_iff.mp hi
      have hdigit := fetch_register (front ++ [l]) d r
      rw [List.append_assoc, List.singleton_append] at hdigit
      rw [Index.cut, hdigit, eq_of_registerOf? hn]
      rfl
    · cases hi
  · rename_i l b d r
    split at hi
    · obtain ⟨n, hn, rfl⟩ := Option.map_eq_some_iff.mp hi
      have hdigit := fetch_register (front ++ [l, b]) d r
      rw [List.append_assoc, List.cons_append, List.singleton_append] at hdigit
      rw [Index.cut, hdigit, eq_of_registerOf? hn]
      rfl
    · cases hi
  · cases hi

/-- **Cutting the index** behind an operand has no fault. -/
theorem cutIndex_eq {operand index : Text} (hend : index <:+ operand) (indexed : Bool) :
    cutIndex indexed operand index = .ok (if indexed then readIndex index else ({}, [])) := by
  unfold cutIndex readIndex
  cases indexed with
  | false => rfl
  | true =>
    by_cases hempty : index.isEmpty = true
    · simp [hempty]
      rfl
    · rw [if_neg (by simpa using hempty), if_pos rfl, if_neg hempty, isIndex_eq]
      cases hi : Index.read? index with
      | none => rfl
      | some i =>
        rw [if_pos Option.isSome_some, Index.cut_eq hend hi]
        rfl

/-! ## Values -/

/-- Carries out the multiplications and divisions behind `acc`; `none` if a divisor is zero. -/
def collapse : Word → Chain → Option (Word × Chain)
  | acc, [] => some (acc, [])
  | acc, (.mul, v) :: rest => collapse (acc * v) rest
  | acc, (.div, v) :: rest => if v == 0 then none else collapse (acc / v) rest
  | acc, (.add, v) :: rest =>
    (collapse v rest).map fun (first, more) => (acc, (.add, first) :: more)
  | acc, (.sub, v) :: rest =>
    (collapse v rest).map fun (first, more) => (acc, (.sub, first) :: more)

/-- Adds up a row in which nothing is left to multiply or divide. -/
def sumFrom (acc : Word) (chain : Chain) : Word :=
  chain.foldl (fun acc (op, v) => if op == .sub then acc - v else acc + v) acc

/-- The value of a row of terms, starting from zero. -/
def total (chain : Chain) : Option Word :=
  (collapse 0 chain).map fun (acc, rest) => sumFrom acc rest

theorem additive_collapse {v first : Word} {rest more : Chain}
    (h : collapse v rest = some (first, more)) : ∀ x ∈ more, x.1 = .add ∨ x.1 = .sub := by
  induction rest generalizing v first more with
  | nil =>
    cases h
    simp
  | cons x rest ih =>
    obtain ⟨op, w⟩ := x
    cases op with
    | mul => exact ih h
    | div =>
      rw [collapse] at h
      split at h
      · cases h
      · exact ih h
    | add | sub =>
      obtain ⟨⟨u, us⟩, hu, hmore⟩ := Option.map_eq_some_iff.mp h
      cases hmore
      simpa using ih hu

namespace Stack

section Split

variable (xs : List Word) (ops : List Operator) (v w : Word) (rest : Chain)

/-- A stack that is folded up to the term `v`. -/
def split : Stack := ⟨(xs ++ v :: rest.map Prod.snd).toArray, (ops ++ rest.map Prod.fst).toArray⟩

theorem fetch_operator (op : Operator) :
    fetch (split xs ops v ((op, w) :: rest)).operators ops.length = .ok op :=
  fetch_ok (by simp)

variable {xs ops} (hlength : xs.length = ops.length)

include hlength

theorem fetch_term : fetch (split xs ops v rest).terms ops.length = .ok v :=
  fetch_ok (by simp [← hlength])

theorem fetch_next (op : Operator) :
    fetch (split xs ops v ((op, w) :: rest)).terms (ops.length + 1) = .ok w :=
  fetch_ok (i := ops.length + 1) (by simp [← hlength])

theorem collapse_split (op : Operator) (u : Word) :
    (split xs ops v ((op, w) :: rest)).collapse ops.length u = .ok (split xs ops u rest) := by
  have hset : (xs ++ v :: w :: rest.map Prod.snd).set ops.length u =
      xs ++ u :: w :: rest.map Prod.snd := by simp [← hlength]
  have hassign : assign (split xs ops v ((op, w) :: rest)).terms ops.length u =
      .ok (xs ++ u :: w :: rest.map Prod.snd).toArray := by
    rw [← hset]
    exact assign_ok _ (by simp [← hlength])
  have hbefore : slice (xs ++ u :: w :: rest.map Prod.snd).toArray 0 (ops.length + 1) =
      .ok (xs ++ [u]).toArray := by
    refine (slice_front (j := ops.length + 1) (by simp [← hlength])).trans ?_
    simp [← hlength, List.take_append, List.take_of_length_le]
  have hbehind : slice (xs ++ u :: w :: rest.map Prod.snd).toArray (ops.length + 2)
      (xs ++ u :: w :: rest.map Prod.snd).toArray.size = .ok (rest.map Prod.snd).toArray := by
    refine (slice_back (i := ops.length + 2) (by simp [← hlength])).trans ?_
    simp [← hlength, List.drop_append, List.drop_of_length_le]
  have hfirsts : slice (split xs ops v ((op, w) :: rest)).operators 0 ops.length =
      .ok ops.toArray := by
    refine (slice_front (by simp)).trans ?_
    simp
  have hlasts : slice (split xs ops v ((op, w) :: rest)).operators (ops.length + 1)
      (split xs ops v ((op, w) :: rest)).operators.size = .ok (rest.map Prod.fst).toArray := by
    refine (slice_back (i := ops.length + 1) (by simp)).trans ?_
    simp [List.drop_append, List.drop_of_length_le]
  rw [collapse, hassign]
  simp only [bind, Except.bind, hbefore, hbehind, hfirsts, hlasts]
  simp [split, pure, Except.pure]

theorem round_split (op : Operator) : (split xs ops v ((op, w) :: rest)).round ops.length =
    .ok (match op with
      | .mul => some (split xs ops (v * w) rest, ops.length)
      | .div => if w == 0 then none else some (split xs ops (v / w) rest, ops.length)
      | _ => some (split xs ops v ((op, w) :: rest), ops.length + 1)) := by
  have hv := fetch_term v ((op, w) :: rest) hlength
  have hw := fetch_next v w rest hlength op
  have hcollapse := collapse_split v w rest hlength op
  rw [round, fetch_operator]
  cases op with
  | mul =>
    simp only [bind, Except.bind, hv, hw, hcollapse]
    rfl
  | div =>
    simp only [bind, Except.bind, hv, hw]
    cases hzero : w == 0 with
    | true => rfl
    | false =>
      simp only [Word.quotient, hzero, hcollapse, Bool.false_eq_true, if_false]
      rfl
  | add => rfl
  | sub => rfl

end Split

/-- **Carrying out in place** has no fault: from a position on that is reached with as many terms as
operators before it, it leaves what multiplying and dividing from left to right leaves. -/
theorem carryOut_eq {xs : List Word} {ops : List Operator} (hlength : xs.length = ops.length)
    (v : Word) (rest : Chain) : carryOut rest.length (split xs ops v rest) ops.length =
      .ok ((SpsAssembler.collapse v rest).map fun (first, more) => split xs ops first more) := by
  induction rest generalizing xs ops v with
  | nil => rfl
  | cons x rest ih =>
    obtain ⟨op, w⟩ := x
    -- An operator that is passed over goes to the part that is done, with the term before it.
    have hmoved : ∀ u more, split (xs ++ [v]) (ops ++ [op]) u more =
        split xs ops v ((op, u) :: more) := by simp [split]
    have hdone : (xs ++ [v]).length = (ops ++ [op]).length := by simp [hlength]
    have hpassed := ih hdone w
    simp only [hmoved, List.length_append, List.length_singleton] at hpassed
    rw [List.length_cons, carryOut, round_split v w rest hlength op]
    cases op with
    | mul => exact ih hlength (v * w)
    | div =>
      rw [SpsAssembler.collapse]
      cases hzero : w == 0 with
      | true => rfl
      | false => exact ih hlength (v / w)
    | add | sub =>
      rw [SpsAssembler.collapse, Option.map_map]
      exact hpassed

/-- Adding up in place looks at the term behind every operator. -/
theorem foldlM_term {s : Stack} (done : List Word) (rest : Chain)
    (hterms : s.terms = (done ++ rest.map Prod.snd).toArray)
    (hrest : ∀ x ∈ rest, x.1 = .add ∨ x.1 = .sub) {n : Nat} (hn : done.length = n + 1) (acc : Word) :
    ((rest.map Prod.fst).zipIdx n).foldlM (fun acc item => do
      match item.1 with
      | .add => pure (acc + (← fetch s.terms (item.2 + 1)))
      | .sub => pure (acc - (← fetch s.terms (item.2 + 1)))
      | _ => pure acc : Word → Operator × Nat → Except Fault Word) acc = .ok (sumFrom acc rest) := by
  induction rest generalizing done n acc with
  | nil => rfl
  | cons x rest ih =>
    obtain ⟨op, v⟩ := x
    have hv : fetch s.terms (n + 1) = .ok v := by
      rw [hterms]
      exact fetch_ok (i := n + 1) (by simp [← hn])
    have hnext := ih (done ++ [v]) (by simp [hterms]) (fun y hy => hrest y (List.mem_cons_of_mem _ hy))
      (show (done ++ [v]).length = n + 1 + 1 by simp [hn])
    rw [List.map_cons, List.zipIdx_cons, List.foldlM_cons]
    rcases hrest _ List.mem_cons_self with rfl | rfl
    · simp only [hv]
      exact hnext (acc + v)
    · simp only [hv]
      exact hnext (acc - v)

theorem sum_of {v : Word} {rest : Chain} (hrest : ∀ x ∈ rest, x.1 = .add ∨ x.1 = .sub) :
    (of v rest).sum = .ok (sumFrom v rest) :=
  foldlM_term [v] rest rfl hrest rfl v

/-- **Folding in place** has no fault, and gives what the terms come to. -/
theorem fold_eq (v : Word) (rest : Chain) : (of v rest).fold =
    .ok ((SpsAssembler.collapse v rest).map fun (first, more) => sumFrom first more) := by
  have hcarry : carryOut (of v rest).operators.size (of v rest) 0 =
      .ok ((SpsAssembler.collapse v rest).map fun (first, more) => of first more) := by
    rw [show (of v rest).operators.size = rest.length by simp [of]]
    exact @carryOut_eq [] [] rfl v rest
  rw [fold, hcarry]
  cases hc : SpsAssembler.collapse v rest with
  | none => rfl
  | some r =>
    obtain ⟨first, more⟩ := r
    change (some <$> (of first more).sum : Except Fault (Option Word)) = _
    rw [sum_of (additive_collapse hc)]
    rfl

theorem fold_ofChain {op : Operator} (hop : op = .add ∨ op = .sub) (v : Word) (rest : Chain) :
    (ofChain ((op, v) :: rest)).fold = .ok (total ((op, v) :: rest)) := by
  rcases hop with rfl | rfl
  · rw [ofChain, fold_eq, total, SpsAssembler.collapse, Option.map_map]
    · congr 2
      funext r
      exact congrArg (sumFrom · r.2) (Int64.zero_add r.1).symm
    · simp
  · exact fold_eq 0 _

end Stack

/-! ## Evaluation -/

theorem Expression.first_read (divide : Bool) (t : Text) {op : Operator} {term : Text}
    {rest : List (Operator × Text)} (h : (Expression.read divide t).terms = (op, term) :: rest) :
    op = .add ∨ op = .sub := by
  have hfrom : ∀ first u, (readFrom divide first u).terms = (op, term) :: rest → op = first := by
    intro first u hu
    cases u with
    | nil => cases hu
    | cons b u =>
      cases hu
      rfl
  cases t with
  | nil => cases h
  | cons b t =>
    rw [Expression.read] at h
    split at h
    · exact .inr (hfrom _ _ h)
    · exact .inl (hfrom _ _ h)

section Evaluation

variable {scope : Scope} {usage : Usage} {table : SymbolTable} {operand : Text}

theorem valuesOf_operator {op : Operator} {t : Text} {rest : List (Operator × Text)} {chain : Chain}
    (h : (valuesOf scope usage table ((op, t) :: rest)).chain = some chain) :
    ∃ v more, chain = (op, v) :: more := by
  unfold valuesOf at h
  split at h
  · cases h
  · obtain ⟨more, -, rfl⟩ := Option.map_eq_some_iff.mp h
    exact ⟨_, more, rfl⟩

variable (scope usage table operand)

theorem fold_chain (chain : Chain)
    (hterms : (Expression.read table.divide operand).terms.isEmpty = false)
    (hchain : (valuesOf scope usage table (Expression.read table.divide operand).terms).chain =
      some chain) : (Stack.ofChain chain).fold = .ok (total chain) := by
  cases hread : (Expression.read table.divide operand).terms with
  | nil =>
    rw [hread] at hterms
    cases hterms
  | cons x rest =>
    obtain ⟨op, t⟩ := x
    rw [hread] at hchain
    obtain ⟨v, more, rfl⟩ := valuesOf_operator hchain
    exact Stack.fold_ofChain (Expression.first_read table.divide operand hread) v more

/-- **The evaluation of an operand** has no fault: it can be said by recursion on the operand. -/
theorem evaluateIn_eq : evaluateIn scope usage table operand =
      if operand.isBlank then { value := 0, table }
      else
        let e := Expression.read table.divide operand
        if e.terms.isEmpty then { value := 0, table }
        else
          let vs := valuesOf scope usage table e.terms
          let fail (reports : List (Report Cause)) : Evaluation :=
            { value := 0, table := vs.table, reports }
          match vs.chain with
          | none => fail (vs.reports ++ [error (.invalidOperand operand)])
          | some chain =>
            let refused :=
              if !e.index.isEmpty && !usage.indexed then [error (.indexNotSupported e.index)] else []
            let reports := vs.reports ++ refused
            if e.dangling then fail (reports ++ [error (.invalidOperand operand)])
            else match total chain with
              | none => fail (reports ++ [error .divideByZero])
              | some v =>
                let (checked, verdict) := usage.check.apply scope.memorySize v
                let (index, wrong) := if usage.indexed then readIndex e.index else ({}, [])
                { value := checked, index, table := vs.table
                  reports := reports ++ verdict ++ wrong } := by
  unfold evaluateIn
  by_cases hblank : operand.isBlank = true
  · rw [if_pos hblank, if_pos hblank]
  · have hne : operand ≠ [] := by
      rintro rfl
      exact hblank rfl
    rw [if_neg hblank, if_neg hblank, evaluateTerms, Expression.cut_eq hne]
    have hindex := cutIndex_eq (Expression.index_read table.divide operand) usage.indexed
    have hfold := fold_chain scope usage table operand
    simp only [bind, Except.bind]
    generalize Expression.read table.divide operand = e at hindex hfold ⊢
    cases hterms : e.terms.isEmpty with
    | true => rfl
    | false =>
      simp only [Bool.false_eq_true, if_false]
      cases hchain : (valuesOf scope usage table e.terms).chain with
      | none => rfl
      | some chain =>
        dsimp only
        rw [hfold chain hterms hchain, hindex]
        cases e.dangling with
        | true => rfl
        | false =>
          simp only [Bool.false_eq_true, if_false]
          cases total chain <;> rfl

end Evaluation

end SpsAssembler
