import SpsAssembler.Proofs.Encoding
import SpsAssembler.Proofs.Lockstep

/-!
# No source ends in a fault

Every line moves the address counter by less than `maxStride`, so in a source of at most `2 ^ 29`
lines no address comes near the largest word. Then the end of a value does not wrap when it is
stored, and every store that is asked for has a size. Only the least word can break this: it has no
magnitude, and no check puts it right. The positions that a statement is cut and encoded at are there
whatever its operands hold, and no divisor is zero.

* `Assembly.MeetsLeast`, `PassMeetsLeast`, `RunMeetsLeast`: an operand with the least word as its
  value;
* `Bounded`: what every state of a pass satisfies;
* **`handleLine_ok`**, **`sweep_ok`**: one line, and a whole pass;
* **`assemble_ok`**: a run;
* `sweepMeetsLeast_iff`, `runMeetsLeast_iff`: whether a run meets such an operand can be computed.
-/

namespace SpsAssembler

open Assembly (Tame)

variable {a b : Assembly} {limit : Int}

/-! ## Operands without a magnitude -/

/-- On a line that is met in a state, an operand that positions the statement has the least word as
its value before it is checked. -/
def Assembly.MeetsLeast (a : Assembly) (line : Line) : Prop :=
  ∃ operand ∈ (parse line (a.atLine line.number)).1.layoutOperands,
    (a.atLine line.number).layoutValue operand = some Int64.minValue

/-- A pass meets such a line. -/
def PassMeetsLeast (reading : Reading Line) (a : Assembly) : Prop :=
  ∃ before line after events b, reading.items = before ++ .line line :: after ∧
    sweep 0 before a = .ok events b ∧ b.MeetsLeast line

/-- One of the passes of a run meets such a line. -/
def RunMeetsLeast (options : Options) (first second : Reading Line) : Prop :=
  ∃ a, Assembly.start options = .ok a ∧ (PassMeetsLeast first (a.reset 1) ∨
    ∃ events b c startup, runPass first (a.reset 1) = .ok events b ∧
      (b.reset 2).load = .ok (c, startup) ∧ PassMeetsLeast second c)

/-! ## Storing -/

theorem store_ok {address : Word} {value : Value} (hmemory : a.memory.cells.size ≤ 100000)
    (hend : address.toInt + value.length < 2 ^ 63) : ∃ b, store address value a = .ok () b := by
  have hsize : a.memory.size.toInt = a.memory.cells.size := Int64.toInt_ofNat_of_lt (by omega)
  unfold store
  cases hadmits : a.memory.admits address value with
  | ok admitted => cases admitted <;> exact ⟨_, rfl⟩
  | error f =>
    unfold Memory.admits Memory.fits at hadmits
    split at hadmits
    · cases hadmits
    · split at hadmits
      · cases hadmits
      · rename_i hfits
        simp only [Bool.not_eq_true', Bool.not_eq_false, Bool.and_eq_true, decide_eq_true_eq,
          Int64.le_iff_toInt_le] at hfits
        have hzero : (0 : Word).toInt = 0 := rfl
        have hlength : (Word.ofLength value).toInt = value.length :=
          Int64.toInt_ofNat_of_lt (by omega)
        rw [Word.toInt_add_of (by omega) (by omega), hlength, hsize] at hfits
        rw [if_neg (by rw [Int64.lt_iff_toInt_lt]; omega)] at hadmits
        cases hadmits

theorem store_size {address : Word} {value : Value} (h : store address value a = .ok () b) :
    b.memory.cells.size = a.memory.cells.size := by
  rcases store_cases h with ⟨-, rfl⟩ | ⟨-, rfl⟩
  · rfl
  · exact Memory.size_write ..

/-! ## One line -/

/-- What every state of a pass satisfies: the machine has one of its sizes, core has room for the
start instructions, the counter is at most `limit`, and no fault is noted. -/
structure Bounded (limit : Int) (a : Assembly) : Prop where
  size : a.options.memorySize ∈ memorySizes
  fault : a.fault = none
  startup : startupLength ≤ a.memory.cells.size
  memory : a.memory.cells.size ≤ 100000
  nonneg : 0 ≤ a.counter.toInt
  counter : a.counter.toInt ≤ limit

theorem Bounded.of_eq (h : Bounded limit a) (hoptions : b.options = a.options)
    (hfault : b.fault = a.fault) (hmemory : b.memory.cells.size = a.memory.cells.size)
    (hcounter : b.counter = a.counter) : Bounded limit b where
  size := hoptions ▸ h.size
  fault := hfault.trans h.fault
  startup := hmemory ▸ h.startup
  memory := hmemory ▸ h.memory
  nonneg := hcounter ▸ h.nonneg
  counter := hcounter ▸ h.counter

theorem Bounded.mono {limit' : Int} (h : Bounded limit a) (hle : limit ≤ limit') :
    Bounded limit' a := { h with counter := Int.le_trans h.counter hle }

theorem Bounded.leads (h : Bounded limit a) (hab : Leads .still a b) : Bounded limit b :=
  h.of_eq hab.frame.options hab.frame.fault (by rw [hab.frame.memory]) (hab.counter_eq rfl).1

theorem Bounded.rests (h : Bounded limit a) (hab : a.Rests b) : Bounded limit b :=
  h.of_eq hab.options hab.fault (by rw [hab.same]) (by rw [hab.same])

theorem Processed.memory_size {s : Statement} {o : Outcome} (h : Processed s a o b) :
    b.memory.cells.size = a.memory.cells.size := by
  rcases h.core with ⟨-, -, rfl⟩ | ⟨-, c, hc, hs⟩
  · rw [layOut_memory]
  · rw [store_size hs, (encode_leads hc).frame.memory, layOut_memory]

theorem parse_operands (line : Line) (a : Assembly) (h : (parse line a).1.kind = .dsa) :
    (parse line a).1.operands.length ≤ maxAddressOperands := by
  rw [parse_apply] at h ⊢
  split_ifs at h ⊢
  · exact Nat.zero_le _
  · exact Nat.zero_le _
  · exact Nat.zero_le _
  · exact Nat.zero_le _
  · cases hd : Descriptor.find? line.operation with
    | none => exact Nat.zero_le _
    | some d =>
      rw [hd] at h
      have hkind : d.kind = .dsa := h
      have hsplit : ∀ c, splitOperands d line.operands c = splitAddresses line.operands c := by
        intro c
        unfold splitOperands
        rw [hkind]
      dsimp only
      rw [hsplit, splitAddresses_eq, Step.bind_apply, Step.pure_apply, List.length_map,
        List.length_take]
      exact Nat.min_le_left _ _

section Line

variable (hfloor : 100000 ≤ limit) (hceiling : limit ≤ 6000000000000000000)

include hfloor hceiling

theorem process_ok {s : Statement} (hs : s.kind = .dsa → s.operands.length ≤ maxAddressOperands)
    (h : Bounded limit a) (htame : Tame s.layoutOperands a) :
    ∃ o b, process s a = .ok o b ∧ Bounded (limit + maxStride) b := by
  have hplaced := place_placed hfloor hceiling hs ⟨htame, h.nonneg, h.counter⟩
  have hslices := place_slices s a
  have hplacement : (layOut s a).1 = (place s a).1 := by rw [layOut_apply]
  have hmemory : (layOut s a).2.memory = a.memory := layOut_memory s a
  obtain ⟨o, b, hprocess⟩ : ∃ o b, process s a = .ok o b := by
    unfold process
    rw [Build.lift_bind]
    simp only [Build.get_bind]
    rw [← hplacement] at hplaced hslices
    generalize layOut s a = r at hplaced hslices hmemory
    obtain ⟨p, c⟩ := r
    split
    · obtain ⟨v, d, hencode, hlength⟩ := encode_ok hplaced.length hslices c
      obtain ⟨hlo, hhi⟩ := hplaced.length
      have hmax : d.memory.cells.size ≤ 100000 := by
        rw [(encode_leads hencode).frame.memory, hmemory]
        exact h.memory
      have hend : p.address.toInt + v.length < 2 ^ 63 := by
        have haddress : p.address.toInt ≤ limit + 1 := hplaced.address
        rw [Int64.toNatClampNeg] at hlength
        dsimp only at hlength hlo hhi
        omega
      obtain ⟨e, hstore⟩ := store_ok hmax hend
      rw [Build.bind_ok hencode, Build.bind_ok hstore]
      exact ⟨_, _, rfl⟩
    · exact ⟨_, _, rfl⟩
  have hprocessed := processed_of_process hprocess
  have hregisters := hprocessed.registers_eq
  simp only [Assembly.registers, Prod.mk.injEq] at hregisters
  have hsize := hprocessed.memory_size
  refine ⟨o, b, hprocess, hprocessed.keeps.options ▸ h.size, hprocessed.keeps.fault.trans h.fault,
    hsize ▸ h.startup, hsize ▸ h.memory, ?_, ?_⟩
  · rw [hregisters.1]
    exact hplaced.nonneg
  · rw [hregisters.1]
    exact hplaced.counter

/-- **A line without an operand that has no magnitude** is handled, and keeps the bounds. -/
theorem handleLine_ok {line : Line} (h : Bounded limit a) (hleast : ¬ a.MeetsLeast line) :
    ∃ r b, handleLine line a = .ok r b ∧ Bounded (limit + maxStride) b := by
  have hparse := parse_leads line a
  have hparsed : Bounded limit (parse line (a.atLine line.number)).2 :=
    Bounded.leads (a := a.atLine line.number) { h with } hparse
  have htame : Tame (parse line (a.atLine line.number)).1.layoutOperands
      (parse line (a.atLine line.number)).2 := by
    refine ⟨hparsed.size, fun operand hmem hvalue => hleast ⟨operand, hmem, ?_⟩⟩
    rwa [hparse.layoutValue_eq] at hvalue
  have hoperands := parse_operands line (a.atLine line.number)
  have hkept : Bounded (limit + maxStride) (parse line (a.atLine line.number)).2 :=
    hparsed.mono (by rw [maxStride]; omega)
  unfold handleLine
  rw [Build.modify_bind, Build.lift_bind]
  generalize parse line (a.atLine line.number) = r at hparsed htame hoperands hkept
  obtain ⟨s, c⟩ := r
  dsimp only at hparsed htame hoperands hkept ⊢
  split
  · exact ⟨_, c, rfl, hkept⟩
  · rw [Build.get_bind]
    cases hending : c.ending with
    | running =>
      obtain ⟨o, b, hprocess, hb⟩ := process_ok hfloor hceiling hoperands hparsed htame
      exact ⟨(o, true), b, Build.bind_ok hprocess fun o => pure (o, true), hb⟩
    | ended => exact ⟨_, _, rfl, { hkept with }⟩
    | overrun => exact ⟨_, c, rfl, hkept⟩

end Line

/-! ## A pass -/

theorem finishLine_ok {line : Line} (hfloor : 100000 ≤ limit)
    (hceiling : limit ≤ 6000000000000000000) (h : Bounded limit a)
    (hleast : ¬ a.MeetsLeast line) :
    ∃ events b, finishLine line a = .ok events b ∧ Bounded (limit + maxStride) b := by
  obtain ⟨⟨o, processed⟩, c, hline, hc⟩ := handleLine_ok hfloor hceiling h hleast
  exact ⟨_, _, finishLine_of_handleLine hline ((keeps_of_handleLine hline).fault.trans h.fault),
    { hc with }⟩

/-- **A pass that meets no such operand** comes to its end. -/
theorem sweep_ok {items : List (Item Line)} {count : Nat} (hfloor : 100000 ≤ limit)
    (hceiling : limit + maxStride * (items.filterMap Item.line?).length ≤ 6000000000000000000)
    (h : Bounded limit a)
    (hleast : ∀ before line after events b, items = before ++ .line line :: after →
      sweep count before a = .ok events b → ¬ b.MeetsLeast line) :
    ∃ events b, sweep count items a = .ok events b ∧
      Bounded (limit + maxStride * (items.filterMap Item.line?).length) b := by
  induction items generalizing limit count a with
  | nil => exact ⟨[], a, rfl, h.mono (by simp)⟩
  | cons item items ih =>
    cases item with
    | opened file name =>
      have hswept : Swept count a (.opened file name) count [.opened file name] a :=
        .opened file name
      obtain ⟨events, b, hrest, hb⟩ := ih hfloor hceiling h
        fun before line after events b hsplit hsweep =>
          hleast (.opened file name :: before) line after _ b (by rw [hsplit]; rfl)
            (hswept.sweep hsweep)
      exact ⟨_, b, hswept.sweep hrest, hb⟩
    | unreadable name reason =>
      obtain ⟨first, c, hfirst⟩ : ∃ first c,
          announceError (Int64.ofNat count) (.unreadable reason) a = .ok first c := ⟨_, _, rfl⟩
      have hswept : Swept count a (.unreadable name reason) count first c := .unreadable name hfirst
      obtain ⟨hrests, -⟩ := rests_of_announceError rfl hfirst
      obtain ⟨events, b, hrest, hb⟩ := ih hfloor hceiling (h.rests hrests)
        fun before line after events b hsplit hsweep =>
          hleast (.unreadable name reason :: before) line after _ b (by rw [hsplit]; rfl)
            (hswept.sweep hsweep)
      exact ⟨_, b, hswept.sweep hrest, hb⟩
    | line line =>
      have hlength : ((Item.line line :: items).filterMap Item.line?).length =
          (items.filterMap Item.line?).length + 1 := by simp [Item.line?]
      rw [hlength] at hceiling ⊢
      have hsum : limit + maxStride + maxStride * (items.filterMap Item.line?).length =
          limit + maxStride * ((items.filterMap Item.line?).length + 1 : Nat) := by
        rw [maxStride]
        omega
      have hstride : limit + maxStride ≤ 6000000000000000000 ∧ limit ≤ limit + maxStride := by
        rw [maxStride] at hceiling ⊢
        omega
      obtain ⟨first, c, hfirst, hc⟩ := finishLine_ok hfloor (by omega) h
        (hleast [] line items [] a rfl rfl)
      obtain ⟨events, b, hrest, hb⟩ := ih (by omega) (by omega) hc
        fun before line' after events b hsplit hsweep =>
          hleast (.line line :: before) line' after _ b (by rw [hsplit]; rfl)
            (Swept.sweep (.line hfirst) hsweep)
      exact ⟨_, b, Swept.sweep (.line hfirst) hrest, hsum ▸ hb⟩

theorem closePass_ok (a : Assembly) : ∃ events b, closePass a = .ok events b ∧ a.Rests b := by
  unfold closePass
  rw [Build.get_bind]
  split
  · obtain ⟨events, b, h⟩ : ∃ events b, announceError 0 .missingEnd a = .ok events b := ⟨_, _, rfl⟩
    exact ⟨events, b, h, (rests_of_announceError rfl h).1⟩
  · exact ⟨[], a, rfl, .refl a⟩

/-- The most that the counter gets to behind `2 ^ 29` lines. -/
def maxReach : Int := 100000 + maxStride * 2 ^ 29

theorem runPass_ok {reading : Reading Line} (hlines : reading.lines.length ≤ 2 ^ 29)
    (h : Bounded 100000 a) (hleast : ¬ PassMeetsLeast reading a) :
    ∃ events b, runPass reading a = .ok events b ∧ Bounded maxReach b := by
  have hlength : ((reading.items.filterMap Item.line?).length : Int) ≤ 2 ^ 29 := by
    exact_mod_cast hlines
  obtain ⟨events, b, hsweep, hb⟩ := sweep_ok (Int.le_refl _)
    (by rw [maxStride]; omega) h
    fun before line after events b hsplit hsweep hmeets =>
      hleast ⟨before, line, after, events, b, hsplit, hsweep, hmeets⟩
  have hreach := hb.mono (by rw [maxReach, maxStride]; omega : _ ≤ maxReach)
  unfold runPass
  rw [Build.bind_ok hsweep]
  split
  · exact ⟨_, b, rfl, hreach⟩
  · obtain ⟨closing, c, hclose, hrests⟩ := closePass_ok b
    rw [Build.bind_ok hclose]
    exact ⟨_, c, rfl, hreach.rests hrests⟩

/-! ## A run -/

theorem startAddress_bounds : 0 ≤ startAddress.toInt ∧ startAddress.toInt ≤ 100000 := by decide

/-- Core of one of the sizes, with undefined cells. -/
def Memory.undefined (size : Word) : Memory :=
  ⟨Array.replicate size.toNatClampNeg Cell.undefined⟩

theorem blank_eq {size : Word} (h : size ∈ memorySizes) :
    Memory.blank size = .ok (Memory.undefined size) ∧
      20000 ≤ (Memory.undefined size).cells.size ∧
      (Memory.undefined size).cells.size ≤ 100000 := by
  obtain ⟨hmin, hmax⟩ := toInt_of_mem_memorySizes h
  have hmoderate : size.Moderate := ⟨by omega, by omega⟩
  rw [Memory.blank, allocate_of_moderate hmoderate, Memory.undefined, Array.size_replicate,
    Int64.toNatClampNeg]
  exact ⟨rfl, by omega, by omega⟩

theorem start_ok {options : Options} (h : options.memorySize ∈ memorySizes) :
    ∃ a, Assembly.start options = .ok a ∧ Bounded 100000 (a.reset 1) := by
  obtain ⟨hblank, hlo, hhi⟩ := blank_eq h
  obtain ⟨a, hstart⟩ : ∃ a, Assembly.start options = .ok a := by
    rw [Assembly.start, hblank]
    exact ⟨_, rfl⟩
  obtain ⟨hmemory, ha⟩ := start_eq hstart
  have hoptions : a.options = options := by rw [ha]
  have hfault : a.fault = none := by rw [ha]
  have hundefined : a.memory = Memory.undefined options.memorySize := by
    rw [hblank] at hmemory
    exact (Except.ok.inj hmemory).symm
  have hstartup : startupLength ≤ (Memory.undefined options.memorySize).cells.size :=
    Nat.le_trans (by decide) hlo
  exact ⟨a, hstart, hoptions ▸ h, hfault, hundefined ▸ hstartup, hundefined ▸ hhi,
    startAddress_bounds.1, startAddress_bounds.2⟩

theorem Bounded.loaded (h : Bounded limit b) : Bounded 100000 (b.reset 2).loaded := by
  have hsize : (b.reset 2).loaded.memory.cells.size = b.memory.cells.size := by
    rw [Assembly.loaded, Memory.size_seed, Memory.clear, Array.size_replicate]
    rfl
  exact ⟨h.size, h.fault, hsize ▸ h.startup, hsize ▸ h.memory, startAddress_bounds.1,
    startAddress_bounds.2⟩

/-- **No source ends in a fault**, whatever its lines hold, if it has at most `2 ^ 29` of them and no
operand that positions a statement has the least word as its value. -/
theorem assemble_ok {options : Options} {first second : Reading Line}
    (hsize : options.memorySize ∈ memorySizes) (hfirst : first.lines.length ≤ 2 ^ 29)
    (hsecond : second.lines.length ≤ 2 ^ 29) (hleast : ¬ RunMeetsLeast options first second) :
    ∃ run, assemble options first second = .ok run := by
  obtain ⟨a, hstart, ha⟩ := start_ok hsize
  obtain ⟨events1, b, hpass1, hb⟩ := runPass_ok hfirst ha fun hmeets =>
    hleast ⟨a, hstart, .inl hmeets⟩
  have hload : (b.reset 2).load = .ok ((b.reset 2).loaded, _) := load_of_size hb.startup
  obtain ⟨events2, d, hpass2, -⟩ := runPass_ok hsecond hb.loaded fun hmeets =>
    hleast ⟨a, hstart, .inr ⟨events1, b, _, _, hpass1, hload, hmeets⟩⟩
  unfold assemble
  simp only [hstart, bind, Except.bind, hpass1, hload, hpass2]
  cases first.failure with
  | some reason => exact ⟨_, rfl⟩
  | none =>
    cases second.failure with
    | some reason => exact ⟨_, rfl⟩
    | none => exact ⟨_, rfl⟩

/-! ## Deciding whether a run meets such an operand -/

instance (a : Assembly) (line : Line) : Decidable (a.MeetsLeast line) :=
  inferInstanceAs (Decidable (∃ operand ∈ _, _))

/-- The number of lines and the state behind an item of a source, unless it ends in a fault. -/
def afterItem (count : Nat) (item : Item Line) (a : Assembly) : Option (Nat × Assembly) :=
  match item with
  | .opened _ _ => some (count, a)
  | .unreadable _ reason =>
    match reportUnreadable count reason a with
    | .error _ _ => none
    | .ok _ b => some (count, b)
  | .line line =>
    match finishLine line a with
    | .error _ _ => none
    | .ok _ b => some (count + 1, b)

theorem afterItem_eq_some {count next : Nat} {item : Item Line} :
    afterItem count item a = some (next, b) ↔ ∃ events, Swept count a item next events b := by
  constructor
  · intro h
    cases item with
    | opened file name =>
      cases h
      exact ⟨_, .opened file name⟩
    | unreadable name reason =>
      cases h
      exact ⟨_, .unreadable name rfl⟩
    | line line =>
      cases hfirst : finishLine line a with
      | error f c =>
        rw [afterItem, hfirst] at h
        cases h
      | ok events c =>
        rw [afterItem, hfirst] at h
        cases h
        exact ⟨events, .line hfirst⟩
  · rintro ⟨events, hswept⟩
    cases hswept with
    | opened => rfl
    | unreadable name hfirst =>
      cases hfirst
      rfl
    | line hfirst => rw [afterItem, hfirst]

/-- Whether one of the lines is met in a state in which it has such an operand. -/
def sweepMeetsLeast : Nat → List (Item Line) → Assembly → Bool
  | _, [], _ => false
  | count, item :: items, a =>
    item.line?.any (fun line => decide (a.MeetsLeast line)) ||
      match afterItem count item a with
      | none => false
      | some (next, b) => sweepMeetsLeast next items b

theorem sweepMeetsLeast_iff {count : Nat} {items : List (Item Line)} :
    sweepMeetsLeast count items a = true ↔
      ∃ before line after events b, items = before ++ .line line :: after ∧
        sweep count before a = .ok events b ∧ b.MeetsLeast line := by
  induction items generalizing count a with
  | nil => simp [sweepMeetsLeast]
  | cons item items ih =>
    rw [sweepMeetsLeast, Bool.or_eq_true]
    constructor
    · rintro (hhere | hlater)
      · cases item with
        | line line => exact ⟨[], line, items, [], a, rfl, rfl, of_decide_eq_true hhere⟩
        | _ => cases hhere
      · split at hlater
        · cases hlater
        · rename_i next c hitem
          obtain ⟨events, hswept⟩ := afterItem_eq_some.mp hitem
          obtain ⟨before, line, after, rest, b, rfl, hrest, hmeets⟩ := ih.mp hlater
          exact ⟨item :: before, line, after, _, b, rfl, hswept.sweep hrest, hmeets⟩
    · rintro ⟨before, line, after, events, b, hsplit, hsweep, hmeets⟩
      cases before with
      | nil =>
        cases hsplit
        cases hsweep
        exact .inl (by simpa [Item.line?] using hmeets)
      | cons first before =>
        cases hsplit
        obtain ⟨next, es, c, fs, hswept, hrest, -⟩ := sweep_cons hsweep
        rw [afterItem_eq_some.mpr ⟨es, hswept⟩]
        exact .inr (ih.mpr ⟨before, line, after, fs, b, rfl, hrest, hmeets⟩)

instance (reading : Reading Line) (a : Assembly) : Decidable (PassMeetsLeast reading a) :=
  decidable_of_iff _ sweepMeetsLeast_iff

/-- Whether one of the passes of a run meets such an operand. -/
def runMeetsLeast (options : Options) (first second : Reading Line) : Bool :=
  match Assembly.start options with
  | .error _ => false
  | .ok a =>
    decide (PassMeetsLeast first (a.reset 1)) ||
      match runPass first (a.reset 1) with
      | .error _ _ => false
      | .ok _ b =>
        match (b.reset 2).load with
        | .error _ => false
        | .ok (c, _) => decide (PassMeetsLeast second c)

theorem runMeetsLeast_iff {options : Options} {first second : Reading Line} :
    runMeetsLeast options first second = true ↔ RunMeetsLeast options first second := by
  unfold runMeetsLeast RunMeetsLeast
  cases hstart : Assembly.start options with
  | error f => simp
  | ok a =>
    cases hpass : runPass first (a.reset 1) with
    | error f b => simp [hpass]
    | ok events b =>
      cases hload : (b.reset 2).load with
      | error f => simp [hpass, hload]
      | ok loaded =>
        obtain ⟨c, startup⟩ := loaded
        simp [hpass, hload]

instance (options : Options) (first second : Reading Line) :
    Decidable (RunMeetsLeast options first second) := decidable_of_iff _ runMeetsLeast_iff

/-- A source of bytes that name nothing, of divisions, by zero as well, of a text with a comma in it
that goes outside core, of a table that is too long, of too many addresses, and of an index, flags and
a selector; one file is missing, and so is the end. -/
def strangeSource : Reading Line where
  items := [
    .line { number := 1, label := [0, 255], operation := [200, 10, 44] },
    .line { number := 2, label := ascii "A", operation := ascii "DC", operands := ascii "7/2*2,-1@" },
    .line { number := 3, operation := ascii "DAC", operands := ascii "4,A,B@,30000" },
    .line { number := 4, operation := ascii "DOT", operands := ascii "99" },
    .unreadable (ascii "a") (ascii "gone"),
    .line { number := 5, operation := ascii "DSB", operands := ascii "A/0,-" },
    .line { number := 5, operation := ascii "DSA", operands := ascii "A-*/2,B(9),,,,,,,,," },
    .line { number := 6, operation := ascii "SKIP", operands := ascii "A(B3),13-1,011" }]

/-- The second model, with the slash as an operator. -/
def strangeOptions : Options :=
  { memorySize := 20000, model := .two, divide := false, tables := false }

theorem assemble_ok_strangeSource : ¬ RunMeetsLeast strangeOptions strangeSource strangeSource ∧
    ∃ run, assemble strangeOptions strangeSource strangeSource = .ok run := by
  have hrun : ¬ RunMeetsLeast strangeOptions strangeSource strangeSource := by decide +kernel
  exact ⟨hrun, assemble_ok (by decide) (by decide) (by decide) hrun⟩

end SpsAssembler
