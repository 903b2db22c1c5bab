import SpsAssembler.Proofs.DumpParts
import SpsAssembler.Proofs.Faultless
import SpsAssembler.Source.Card

/-!
# The core dump is the core image

A program without errors has stored the cells of every statement, in the order of the lines. Its
dump lists low core and then the same cells in the same order, so reading it onto undefined cells
gives the core image of the program.

* `Line.Tokenized`: lines that were cut from a text;
* `Kind.encodes`, `Shape.suits`: which statements have cells, and which shapes show them;
* **`laid_of_handleLine`**, **`loads_visits`**: one line, and a whole pass;
* **`loadDump_coreDump`**: the dump of a program.
-/

namespace SpsAssembler

open Assembly (Keeps)

variable {a b : Assembly}

/-! ## Lines of source -/

/-- A line that was cut from a text in one of the formats, wherever it stands. -/
def Line.Tokenized (l : Line) : Prop :=
  ∃ format tabs raw t, tokenize format tabs raw = .ok t ∧
    l = { t with number := l.number, file := l.file, fileLine := l.fileLine }

namespace Text

theorem mem_of_mem_slice {t : Text} {i j : Nat} {c : Byte} (h : c ∈ t.slice i j) : c ∈ t :=
  List.mem_of_mem_take (List.mem_of_mem_drop h)

theorem mem_of_mem_trimLeft {t : Text} {c : Byte} (h : c ∈ t.trimLeft) : c ∈ t :=
  (List.dropWhile_suffix _).subset h

theorem mem_of_mem_trimRight {t : Text} {c : Byte} (h : c ∈ t.trimRight) : c ∈ t :=
  List.mem_reverse.mp ((List.dropWhile_suffix _).subset (List.mem_reverse.mp h))

end Text

theorem mem_of_mem_ofCard {text : Text} {c : Byte} (h : c ∈ (Line.ofCard text).bytes) : c ∈ text := by
  unfold Line.ofCard at h
  split at h
  · simpa [Line.bytes] using h
  · simp only [Line.bytes, List.mem_append] at h
    rcases h with ((h | h) | h) | h
    · exact h
    · exact Text.mem_of_mem_slice (Text.mem_of_mem_trimRight h)
    · exact Text.mem_of_mem_slice (Text.mem_of_mem_trimRight h)
    · exact Text.mem_of_mem_slice (Text.mem_of_mem_trimLeft h)

theorem mem_of_mem_ofWords {text : Text} {c : Byte} (h : c ∈ (Line.ofWords text).bytes) :
    c ∈ text := by
  have hbehind : ∀ {c : Byte}, c ∈ Text.trimLeft (text.dropWhile Line.isInk) → c ∈ text :=
    fun h => (List.dropWhile_suffix _).subset (Text.mem_of_mem_trimLeft h)
  unfold Line.ofWords at h
  split at h
  · simpa [Line.bytes] using h
  · dsimp only at h
    split at h
    · simpa [Line.bytes] using h
    · simp only [Line.bytes, List.mem_append] at h
      rcases h with ((h | h) | h) | h
      · exact h
      · exact (List.takeWhile_prefix _).subset h
      · exact hbehind ((List.takeWhile_prefix _).subset h)
      · exact hbehind ((List.dropWhile_suffix _).subset (Text.mem_of_mem_trimLeft h))

theorem isSourceByte_of_tokenize {format : SourceFormat} {tabs : TabStops} {raw : Text} {t : Line}
    (h : tokenize format tabs raw = .ok t) (hvalid : t.invalid = false) {c : Byte}
    (hc : c ∈ t.bytes) : isSourceByte c = true := by
  have hcut : ∀ {text : Text} {cut : Text → Line}, (∀ {c}, c ∈ (cut text).bytes → c ∈ text) →
      t = (if text.all isSourceByte then cut text else { text, invalid := true }) →
      isSourceByte c = true := by
    intro text cut hmem ht
    split at ht
    · rename_i hall
      rw [ht] at hc
      exact List.all_eq_true.mp hall c (hmem hc)
    · rw [ht] at hvalid
      cases hvalid
  unfold tokenize at h
  cases format with
  | fixed => exact hcut mem_of_mem_ofCard (Except.ok.inj h).symm
  | freeform =>
    dsimp only at h
    split at h
    · cases h
    · exact hcut mem_of_mem_ofWords (Except.ok.inj h).symm

theorem Line.Tokenized.oneLine {l : Line} (h : l.Tokenized) (hvalid : l.invalid = false) :
    l.OneLine := by
  obtain ⟨format, tabs, raw, t, ht, hl⟩ := h
  intro hmem
  rw [hl] at hvalid hmem
  exact absurd (isSourceByte_of_tokenize ht hvalid hmem) (by decide)

/-! ## Shapes -/

/-- Whether statements of a kind are encoded in cells. -/
def Kind.encodes : Kind → Bool
  | dac | dsac | dc | dsc | dnb | dgm | dot | dsa | dda | dvlc | instruction => true
  | _ => false

/-- The kinds that a shape shows: instructions, any kind, or kinds without cells. -/
def Shape.suits : Shape → Kind → Bool
  | .instruction, k | .short2, k | .short7, k => k == .instruction
  | .data, _ => true
  | _, k => !k.encodes

theorem parse_suits (line : Line) (a : Assembly) :
    (parse line a).1.descriptor.shape.suits (parse line a).1.kind = true :=
  parse_descriptor (P := fun d => d.shape.suits d.kind) (by decide +kernel) rfl rfl line a

theorem encode_of_not_encodes {s : Statement} (h : s.kind.encodes = false) (p : Placement) :
    encode s p = pure [] := by
  unfold encode
  cases hkind : s.kind <;> rw [hkind] at h <;> first | rfl | cases h

theorem length_of_encode {s : Statement} {p : Placement} {v : Value} (hkind : s.kind = .instruction)
    (hp : p.length = s.descriptor.shape.instructionLength) (h : encode s p a = .ok v b) :
    v ≠ [] ∧ v.length ≤ 12 := by
  have hencode : encode s p = encodeInstruction s p := by
    unfold encode
    rw [hkind]
  rw [hencode] at h
  have hlength := congrArg List.length (encodeInstruction_cases h).1
  rw [List.length_take, length_buildInstruction, hp] at hlength
  have hshape : ∀ shape : Shape, 2 ≤ shape.instructionLength.toNatClampNeg := by
    intro shape
    cases shape <;> decide
  have htwo := hshape s.descriptor.shape
  refine ⟨fun hnil => ?_, by omega⟩
  rw [hnil, List.length_nil] at hlength
  omega

/-- **What is encoded is shown** by a shape that suits the kind. -/
theorem shows_of_encode {s : Statement} {p : Placement} {v : Value}
    (hsuits : s.descriptor.shape.suits s.kind = true)
    (hp : s.kind = .instruction → p.length = s.descriptor.shape.instructionLength)
    (h : encode s p a = .ok v b) : s.descriptor.shape.Shows v := by
  have hinstruction : s.kind = .instruction → v ≠ [] ∧ v.length ≤ 12 := fun hkind =>
    length_of_encode hkind (hp hkind) h
  have hnil : s.kind.encodes = false → v = [] := by
    intro hkind
    rw [encode_of_not_encodes hkind] at h
    exact (EStateM.Result.ok.inj h).1.symm
  generalize s.descriptor.shape = shape at hsuits ⊢
  cases shape
  case instruction => exact hinstruction (by simpa [Shape.suits] using hsuits)
  case short2 => exact hinstruction (by simpa [Shape.suits] using hsuits)
  case short7 => exact hinstruction (by simpa [Shape.suits] using hsuits)
  case data => trivial
  all_goals exact hnil (by simpa [Shape.suits] using hsuits)

/-! ## Storing without an error -/

theorem stored_of_store {address : Word} {value : Value} (h : store address value a = .ok () b)
    (hmuted : a.log.muted = 0) (hclean : b.log.errorCount = 0)
    (hsize : a.memory.cells.size ≤ 100000) (hlength : value.length ≤ maxCells) :
    b.memory = a.memory.place address.toNatClampNeg value ∧ (value ≠ [] →
      0 ≤ address.toInt ∧ address.toNatClampNeg + value.length ≤ a.memory.cells.size) := by
  rcases store_cases h with ⟨-, rfl⟩ | ⟨hadmits, rfl⟩
  · have hcount := a.log.errorCount_raiseAll hmuted [error (.cannotStore address)]
    change (a.log.raiseAll [error (.cannotStore address)]).errorCount = 0 at hclean
    rw [hcount] at hclean
    simp [Report.isError, error] at hclean
  · by_cases hnil : value = []
    · rw [hnil, Memory.place_nil]
      exact ⟨rfl, fun hne => absurd rfl hne⟩
    · unfold maxCells maxSize at hlength
      have hcells : a.memory.size.toInt = a.memory.cells.size := Int64.toInt_ofNat_of_lt (by omega)
      have hword : (Word.ofLength value).toInt = value.length :=
        Int64.toInt_ofNat_of_lt (by omega)
      have hzero : (0 : Word).toInt = 0 := rfl
      unfold Memory.admits Memory.fits at hadmits
      rw [if_neg (by simpa using hnil)] at hadmits
      split at hadmits
      · cases hadmits
      split at hadmits
      · cases hadmits
      rename_i hfits habove
      simp only [Bool.not_eq_true', Bool.not_eq_false, Bool.and_eq_true, decide_eq_true_eq,
        Int64.le_iff_toInt_le, hzero] at hfits
      rw [Int64.lt_iff_toInt_lt, hcells] at habove
      rw [Word.toInt_add_of (by omega) (by omega), hword, hcells] at hfits
      have hend : address.toNatClampNeg + value.length ≤ a.memory.cells.size := by
        rw [Int64.toNatClampNeg]
        omega
      refine ⟨?_, fun _ => ⟨hfits.1, hend⟩⟩
      rw [Memory.place, if_pos hend]
      rfl

/-! ## One line -/

theorem laid_of_processed {s : Statement} {o : Outcome} (h : Processed s a o b)
    (hpass : a.log.pass = 2) (hmuted : a.log.muted = 0) (hclean : b.log.errorCount = 0)
    (hsize : a.memory.cells.size ≤ 100000) (hline : s.line.OneLine)
    (hsuits : s.descriptor.shape.suits s.kind = true) :
    o.Laid a.memory.cells.size ∧
      b.memory = a.memory.place o.placement.address.toNatClampNeg o.value := by
  have hkeeps := layOut_keeps s a
  have hplacement : o.placement = (place s a).1 := by rw [h.placement, layOut_apply]
  rcases h.core with ⟨hemitting, -⟩ | ⟨-, c, hencode, hstore⟩
  · rw [Assembly.emitting, hkeeps.pass, hpass] at hemitting
    cases hemitting
  · have hframe := (encode_leads hencode).frame
    have hmemory : c.memory = a.memory := hframe.memory.trans (layOut_memory s a)
    have hcmuted := (hkeeps.trans (Keeps.of_frame hframe)).muted.trans hmuted
    have hlength : o.value.length ≤ maxCells := encode_atMost s o.placement _ _ _ hencode
    obtain ⟨hb, hfits⟩ := stored_of_store hstore hcmuted hclean (by rwa [hmemory]) hlength
    rw [hmemory] at hb hfits
    refine ⟨⟨by rwa [h.statement], hfits, ?_⟩, hb⟩
    rw [h.shape]
    refine shows_of_encode hsuits (fun hkind => ?_) hencode
    rw [hplacement, place, hkind]
    rfl

theorem valid_of_parse {line : Line} (hmuted : a.log.muted = 0)
    (hclean : (parse line a).2.log.errorCount = 0) : line.invalid = false := by
  by_contra hinvalid
  rw [parse_apply, if_pos (by simpa using hinvalid)] at hclean
  have hcount := a.log.errorCount_raiseAll hmuted [error .invalidCharacters]
  change (a.log.raiseAll [error .invalidCharacters]).errorCount = 0 at hclean
  rw [hcount] at hclean
  simp [Report.isError, error] at hclean

/-- **A line of the second pass that raises no error** stores its cells where its outcome says. -/
theorem laid_of_handleLine {line : Line} {o : Outcome} {processed : Bool}
    (h : handleLine line a = .ok (o, processed) b) (htokenized : line.Tokenized)
    (hpass : a.log.pass = 2) (hmuted : a.log.muted = 0) (hclean : b.log.errorCount = 0)
    (hsize : a.memory.cells.size ≤ 100000) :
    o.Laid a.memory.cells.size ∧
      b.memory = a.memory.place o.placement.address.toNatClampNeg o.value := by
  have hparse := (parse_leads line a).frame
  have hkeeps := Keeps.of_frame hparse
  have hhandles := handles_of_handleLine h
  have herrors := hhandles.keeps.errors
  have hline : (parse line (a.atLine line.number)).1.line.OneLine := by
    rw [parse_line]
    exact htokenized.oneLine (valid_of_parse (a := a.atLine line.number) hmuted (by omega))
  have hsuits := parse_suits line (a.atLine line.number)
  have hmemory : (parse line (a.atLine line.number)).2.memory = a.memory := hparse.memory
  rw [← hmemory] at hsize ⊢
  cases hhandles with
  | comment => exact ⟨⟨hline, fun hne => absurd rfl hne, rfl⟩, (Memory.place_nil ..).symm⟩
  | processed _ _ hprocess =>
    exact laid_of_processed (processed_of_process hprocess) (hkeeps.pass.trans hpass)
      (hkeeps.muted.trans hmuted) hclean hsize hline hsuits
  | beyond => exact ⟨⟨hline, fun hne => absurd rfl hne, rfl⟩, (Memory.place_nil ..).symm⟩
  | overrun => exact ⟨⟨hline, fun hne => absurd rfl hne, rfl⟩, (Memory.place_nil ..).symm⟩

/-! ## A pass -/

/-- **The lines of a second pass without an error** load what it stores. -/
theorem loads_visits (p : Provenance) {vs : List Visit} (hvs : Visits a vs b)
    (htokenized : ∀ v ∈ vs, v.line.Tokenized) (hpass : a.log.pass = 2) (hmuted : a.log.muted = 0)
    (hclean : b.log.errorCount = 0) (hsize : a.memory.cells.size ≤ 100000) :
    Loads ((vs.map Visit.result).flatMap (dumpStatement p)) a.memory b.memory := by
  induction hvs with
  | nil h =>
    rw [h.same]
    exact .nil _
  | @cons a b v vs h hv rest ih =>
    obtain ⟨hfirst, hrest⟩ := List.forall_mem_cons.mp htokenized
    have hmemory : v.before.memory = a.memory := by rw [h.same]
    have herrors := rest.keeps.errors
    obtain ⟨hlaid, hafter⟩ := laid_of_handleLine hv hfirst (h.pass.trans hpass)
      (h.muted.trans hmuted) (by omega) (by rwa [hmemory])
    have hkeeps := h.toKeeps.trans (keeps_of_handleLine hv)
    rw [hmemory] at hlaid hafter
    have hlines := ih hrest (hkeeps.pass.trans hpass) (hkeeps.muted.trans hmuted) hclean
      (by rwa [hafter, Memory.size_place])
    rw [List.map_cons, List.flatMap_cons]
    rw [hafter] at hlines
    exact (loads_statement p hlaid hsize).append hlines

/-! ## The heading -/

theorem Text.newline_notMem_ofNat (n : Nat) : Byte.newline ∉ Text.ofNat n := fun hmem =>
  absurd (Text.isDigit_ofNat n _ hmem) (by decide)

theorem Text.newline_notMem_zeroPadded (n : Nat) (w : Word) :
    Byte.newline ∉ Text.zeroPadded n w := by
  have hzeros : ∀ k, Byte.newline ∉ List.replicate k '0'.toUInt8 := fun k hmem =>
    absurd (List.mem_replicate.mp hmem).2 (by decide)
  have hsign : Byte.newline ≠ '-'.toUInt8 := by decide
  unfold Text.zeroPadded
  dsimp only
  split <;> simp [hzeros, hsign, Text.newline_notMem_ofNat]

theorem Stamp.newline_notMem_render (s : Stamp) : Byte.newline ∉ s.render := by
  have hsigns : Byte.newline ∉ ascii "/" ∧ Byte.newline ∉ ascii " @ " ∧ Byte.newline ∉ ascii ":" := by
    decide
  simp [Stamp.render, twoDigits, hsigns, Text.newline_notMem_ofNat, Text.newline_notMem_zeroPadded]

theorem Provenance.newline_notMem_sourceList {p : Provenance}
    (h : ∀ name ∈ p.files, Byte.newline ∉ name) : Byte.newline ∉ p.sourceList := by
  unfold Provenance.sourceList
  split
  · exact List.not_mem_nil
  · rename_i name hfiles
    exact h name (by rw [hfiles]; exact List.mem_singleton_self name)
  · rename_i name _ _ hfiles
    have hname := h name (by rw [hfiles]; exact List.mem_cons_self)
    exact fun hmem => (List.mem_append.mp hmem).elim hname (by decide)

theorem loads_heading {p : Provenance} (h : ∀ name ∈ p.files, Byte.newline ∉ name) (m : Memory) :
    Loads (ascii "// " ++ productName ++ ascii "\n// Source: " ++ p.sourceList ++
      ascii "\n// Assembled: " ++ p.stamp.render ++ ascii "\n\n") m m := by
  have hremark : ∀ {name text : Text}, Byte.newline ∉ name → Byte.newline ∉ text →
      Loads (ascii "// " ++ (name ++ text) ++ ascii "\n") m m := fun hname htext =>
    loads_slashes (fun hmem => (List.mem_append.mp hmem).elim hname htext) m
  have hproduct : Loads (ascii "// " ++ productName ++ ascii "\n") m m :=
    loads_slashes (by decide) m
  have hsource : Loads (ascii "// " ++ (ascii "Source: " ++ p.sourceList) ++ ascii "\n") m m :=
    hremark (by decide) (Provenance.newline_notMem_sourceList h)
  have hstamp : Loads (ascii "// " ++ (ascii "Assembled: " ++ p.stamp.render) ++ ascii "\n") m m :=
    hremark (by decide) p.stamp.newline_notMem_render
  have hlines := ((hproduct.append hsource).append hstamp).append (loads_empty m)
  have h1 : ascii "\n// Source: " = ascii "\n" ++ ascii "// " ++ ascii "Source: " := by decide
  have h2 : ascii "\n// Assembled: " = ascii "\n" ++ ascii "// " ++ ascii "Assembled: " := by decide
  have h3 : ascii "\n\n" = ascii "\n" ++ ascii "\n" := by decide
  rw [h1, h2, h3]
  simp only [List.append_assoc] at hlines ⊢
  exact hlines

/-! ## The dump of a program -/

theorem clear_undefined (size : Word) :
    (Memory.undefined size).clear = Memory.undefined size := by
  rw [Memory.clear, Memory.undefined, Array.size_replicate]

theorem TwoPasses.loads_lowCore {options : Options} {first second : Reading Line} {run : Run}
    {program : Program} {a b c d : Assembly}
    (h : TwoPasses options first second run program a b c d)
    (hsize : options.memorySize ∈ memorySizes) :
    Loads (dumpLowCore program) (Memory.undefined options.memorySize) c.memory ∧
      c.memory.cells.size ≤ 100000 ∧ c.log.pass = 2 ∧ c.log.muted = 0 := by
  obtain ⟨hstart, ha⟩ := start_eq h.start
  obtain ⟨hblank, hlo, hhi⟩ := blank_eq hsize
  obtain ⟨vs, hvs, -⟩ := visits_of_runPass h.pass1
  obtain ⟨hc, hstartup⟩ := load_eq h.load
  have hmemory : b.memory = Memory.undefined options.memorySize := by
    rw [hblank] at hstart
    exact (hvs.memory_eq rfl).trans (Except.ok.inj hstart).symm
  have hoptions : b.options = options := hvs.keeps.options.trans (by rw [ha]; rfl)
  have hloaded : c.memory = (Memory.undefined options.memorySize).seed b.entry options.halt
      options.tables (options.model == .one) := by
    rw [hc]
    change b.memory.clear.seed b.entry b.options.halt b.options.tables (b.options.model == .one) = _
    rw [hmemory, hoptions, clear_undefined]
  have hprogram : program.options = options := by rw [h.program_eq]
  refine ⟨?_, ?_, ?_, ?_⟩
  · rw [hloaded, ← hprogram]
    refine SpsAssembler.loads_lowCore ?_ (by rwa [hprogram])
    rw [hstartup, hprogram, ← hoptions]
    rfl
  · rwa [hloaded, Memory.size_seed]
  · rw [hc]
    rfl
  · rw [hc]
    exact hvs.keeps.muted.trans (by rw [ha]; rfl)

/-- **The core dump is the core image**: for a program without errors, from lines that were cut from
texts, reading the dump onto undefined cells gives the cells of the program. -/
theorem loadDump_coreDump {options : Options} {first second : Reading Line} {run : Run}
    {program : Program} {p : Provenance} (hsize : options.memorySize ∈ memorySizes)
    (hlines : ∀ l ∈ second.lines, l.Tokenized) (hfiles : ∀ name ∈ p.files, Byte.newline ∉ name)
    (hrun : assemble options first second = .ok run) (hprogram : run.result = .ok program)
    (hok : program.ok = true) :
    loadDump ⟨Array.replicate options.memorySize.toNatClampNeg Cell.undefined⟩
      (coreDump p program) = some program.memory := by
  obtain ⟨a, b, c, d, htwo⟩ := twoPasses_of_assemble hrun hprogram
  obtain ⟨hlow, hcells, hpass, hmuted⟩ := htwo.loads_lowCore hsize
  obtain ⟨ws, hws, hwlines, hwrec⟩ := visits_of_runPass htwo.pass2
  have hclean : d.log.errorCount = 0 := by
    have hpass2 : program.pass2.errors = d.log.errorCount := by rw [htwo.program_eq]; rfl
    simp only [Program.ok, Bool.and_eq_true, beq_iff_eq] at hok
    rw [← hpass2, hok.2]
  have houtcomes : program.outcomes = ws.map Visit.result := by
    rw [htwo.program_eq]
    exact hwrec.outcomes
  have hmemory : program.memory = d.memory := by rw [htwo.program_eq]
  have hstatements : Loads (program.outcomes.flatMap (dumpStatement p)) c.memory d.memory := by
    rw [houtcomes]
    refine loads_visits p hws (fun w hw => hlines _ ?_) hpass hmuted hclean hcells
    rw [← hwlines]
    exact List.mem_map_of_mem hw
  rw [hmemory]
  exact (((loads_heading hfiles _).append hlow).append hstatements).loadDump_eq

/-- A constant and an instruction on lines of words, and an end on a card. -/
def cutSource : Reading Line where
  items := [
    .line { number := 1, text := ascii "N DC 3,123", label := ascii "N", operation := ascii "DC",
            operands := ascii "3,123" },
    .line { number := 2, text := ascii "GO H", label := ascii "GO", operation := ascii "H" },
    .line { number := 3, text := ascii "           DENDGO", operation := ascii "DEND",
            operands := ascii "GO" }]

/-- What the dump of such a source says about it. -/
def cutProvenance : Provenance where
  files := [ascii "words.sps", ascii "card.sps"]
  fixed := false
  stamp := ⟨1962, 7, 4, 23, 59⟩

theorem cutSource_tokenized : ∀ l ∈ cutSource.lines, l.Tokenized := by
  have hall : ∀ l ∈ cutSource.lines, tokenize .freeform .default l.text = .ok { l with number := 0 } ∨
      tokenize .fixed .default l.text = .ok { l with number := 0 } := by decide +kernel
  intro l hl
  rcases hall l hl with h | h
  · exact ⟨_, _, _, _, h, rfl⟩
  · exact ⟨_, _, _, _, h, rfl⟩

theorem cutSource_assembles : ∃ run program,
    assemble { memorySize := 20000, tables := false } cutSource cutSource = .ok run ∧
      run.result = .ok program ∧ program.pass1.errors = 0 ∧ program.pass2.errors = 0 := by
  exact assemble_of_errorCounts rfl (by decide) rfl rfl (by decide +kernel)

theorem loadDump_coreDump_cutSource : (∀ l ∈ cutSource.lines, l.Tokenized) ∧ ∃ run program,
    assemble { memorySize := 20000, tables := false } cutSource cutSource = .ok run ∧
      run.result = .ok program ∧ program.ok = true ∧
      loadDump ⟨Array.replicate (20000 : Word).toNatClampNeg Cell.undefined⟩
        (coreDump cutProvenance program) = some program.memory := by
  obtain ⟨run, program, hrun, hprogram, hfirst, hsecond⟩ := cutSource_assembles
  have hok : program.ok = true := by rw [Program.ok, hfirst, hsecond]; rfl
  have hdump := loadDump_coreDump (p := cutProvenance) (by decide) cutSource_tokenized (by decide)
    hrun hprogram hok
  exact ⟨cutSource_tokenized, run, program, hrun, hprogram, hok, hdump⟩

end SpsAssembler
