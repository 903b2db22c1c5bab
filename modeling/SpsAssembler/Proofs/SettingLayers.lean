import SpsAssembler.Settings.File

/-!
# Settings one by one

A layer sets some of the settings, and settings under a layer are its own where it sets them. The
environment sets what a variable gives, and a file what the last of its entries for a setting gives.

* `Setting`, `Settings.get`, `Layer.get?`: settings by name; **`Layer.get_apply`**: under a layer;
* `Layer.put`: one more setting;
* `Environment.gives?`, **`Environment.get?_layer`**: variables;
* `lastGiven`: what the last of several items says;
* `Toml.Document.gives?`, **`get?_of_decodeFile`**: entries of a file.
-/

namespace SpsAssembler

/-- A setting. Whether an output file is written and where are settings of their own. -/
inductive Setting where
  | format
  | model
  | memory
  | tabs
  | tables
  | halt
  | warnings
  | pass1Errors
  | divide
  | enabled (a : Artifact)
  | path (a : Artifact)
  deriving DecidableEq

/-- What a setting can be. -/
abbrev Setting.Value : Setting → Type
  | format | tabs | path _ => Text
  | model | memory => Word
  | tables | halt | warnings | pass1Errors | divide | enabled _ => Bool

/-- The output file that a setting is about. -/
def Setting.artifact? : Setting → Option Artifact
  | enabled a | path a => some a
  | _ => none

/-- A setting among all settings. -/
def Settings.get (s : Settings) : (x : Setting) → x.Value
  | .format => s.format
  | .model => s.model
  | .memory => s.memory
  | .tabs => s.tabs
  | .tables => s.tables
  | .halt => s.halt
  | .warnings => s.warnings
  | .pass1Errors => s.pass1Errors
  | .divide => s.divide
  | .enabled a => (s.destination a).enabled
  | .path a => (s.destination a).path

namespace Layer

variable {l : Layer} {x y : Setting}

/-- What a layer sets a setting to. -/
def get? (l : Layer) : (x : Setting) → Option x.Value
  | .format => l.format
  | .model => l.model
  | .memory => l.memory
  | .tabs => l.tabs
  | .tables => l.tables
  | .halt => l.halt
  | .warnings => l.warnings
  | .pass1Errors => l.pass1Errors
  | .divide => l.divide
  | .enabled a => (l.destination a).enabled
  | .path a => (l.destination a).path

/-- A layer with one more setting. -/
def put (l : Layer) : (x : Setting) → x.Value → Layer
  | .format, v => { l with format := some v }
  | .model, v => { l with model := some v }
  | .memory, v => { l with memory := some v }
  | .tabs, v => { l with tabs := some v }
  | .tables, v => { l with tables := some v }
  | .halt, v => { l with halt := some v }
  | .warnings, v => { l with warnings := some v }
  | .pass1Errors, v => { l with pass1Errors := some v }
  | .divide, v => { l with divide := some v }
  | .enabled a, v => l.setDestination a { l.destination a with enabled := some v }
  | .path a, v => l.setDestination a { l.destination a with path := some v }

/-- **Settings under a layer** are those of the layer where it sets them. -/
theorem get_apply (l : Layer) (s : Settings) (x : Setting) :
    (l.apply s).get x = (l.get? x).getD (s.get x) := by
  cases x with
  | enabled a => cases a <;> rfl
  | path a => cases a <;> rfl
  | _ => rfl

@[simp] theorem get?_empty (x : Setting) : ({} : Layer).get? x = none := by
  cases x with
  | enabled a => cases a <;> rfl
  | path a => cases a <;> rfl
  | _ => rfl

theorem get?_enabled (l : Layer) (a : Artifact) : l.get? (.enabled a) = (l.destination a).enabled :=
  rfl

theorem get?_path (l : Layer) (a : Artifact) : l.get? (.path a) = (l.destination a).path := rfl

@[simp] theorem destination_setDestination (l : Layer) (a : Artifact) (d : DestinationLayer) :
    (l.setDestination a d).destination a = d := by
  cases a <;> rfl

theorem destination_setDestination_of_ne {a b : Artifact} (h : b ≠ a) (l : Layer)
    (d : DestinationLayer) : (l.setDestination a d).destination b = l.destination b := by
  cases a <;> cases b <;> first | rfl | exact absurd rfl h

theorem get?_setDestination_of_ne {a : Artifact} (h : x.artifact? ≠ some a) (l : Layer)
    (d : DestinationLayer) : (l.setDestination a d).get? x = l.get? x := by
  cases x with
  | enabled b =>
    have hne : b ≠ a := fun heq => h (congrArg some heq)
    rw [get?_enabled, get?_enabled, destination_setDestination_of_ne hne]
  | path b =>
    have hne : b ≠ a := fun heq => h (congrArg some heq)
    rw [get?_path, get?_path, destination_setDestination_of_ne hne]
  | _ => cases a <;> rfl

@[simp] theorem get?_put (l : Layer) (x : Setting) (v : x.Value) : (l.put x v).get? x = some v := by
  cases x with
  | enabled a => cases a <;> rfl
  | path a => cases a <;> rfl
  | _ => rfl

theorem get?_put_of_ne (h : x ≠ y) (hy : y.artifact? = none) (l : Layer) (v : y.Value) :
    (l.put y v).get? x = l.get? x := by
  cases y with
  | enabled a => cases hy
  | path a => cases hy
  | _ =>
    cases x with
    | enabled b => cases b <;> rfl
    | path b => cases b <;> rfl
    | _ => first | rfl | exact absurd rfl h

end Layer

/-! ## The environment -/

/-- The variable for an output file. -/
def Artifact.variableName : Artifact → String
  | listing => "LISTING"
  | core => "CMEM"
  | cards => "CRD"
  | tape => "PT"
  | symbols => "SYMBOLS"

namespace Setting

/-- The variable of a setting. -/
def variableName : Setting → String
  | format => "FORMAT"
  | model => "MODEL"
  | memory => "MEMORY"
  | tabs => "TABS"
  | tables => "TABLES"
  | halt => "HALT"
  | warnings => "WARNINGS"
  | pass1Errors => "PASS1_ERRORS"
  | divide => "SYMBOL_DIVIDE"
  | enabled a => a.variableName
  | path a => a.variableName ++ "_PATH"

/-- How the value of a variable is read. A number may be malformed. -/
def ofVariable (readers : Readers) : (x : Setting) → Text → Option x.Value
  | format, t | tabs, t | path _, t => some t
  | model, t | memory, t => t.readDecimal.toOption
  | tables, t | halt, t | warnings, t | pass1Errors, t | divide, t | enabled _, t =>
    some (readers.isTrue t)

end Setting

namespace Environment

variable (env : Environment) (readers : Readers)

/-- What an environment sets a setting to. The path of an output file also enables it. -/
def gives? : (x : Setting) → Option x.Value
  | .enabled a =>
    if (env.get? readers (Setting.path a).variableName).isSome then some true
    else (env.get? readers a.variableName).map readers.isTrue
  | x => (env.get? readers x.variableName).bind (x.ofVariable readers)

theorem destination_eq (name : String) :
    env.destination readers name =
      { enabled :=
          if (env.get? readers (name ++ "_PATH")).isSome then some true else env.truth? readers name
        path := env.get? readers (name ++ "_PATH") } := by
  rw [destination]
  cases env.get? readers (name ++ "_PATH") <;> rfl

theorem destination_layer (a : Artifact) :
    (env.layer readers).destination a = env.destination readers a.variableName := by
  cases a <;> rfl

/-- **The environment sets what its variables give.** -/
theorem get?_layer (x : Setting) : (env.layer readers).get? x = env.gives? readers x := by
  have hsome : ∀ value : Option Text, value.bind some = value := Option.bind_fun_some
  cases x with
  | enabled a =>
    rw [Layer.get?_enabled, destination_layer, destination_eq]
    rfl
  | path a =>
    rw [Layer.get?_path, destination_layer, destination_eq]
    exact (hsome _).symm
  | format => exact (hsome _).symm
  | tabs => exact (hsome _).symm
  | model => rfl
  | memory => rfl
  | _ => exact Option.map_eq_bind

end Environment

/-! ## The last of several -/

/-- What the last of some items says that says anything. -/
def lastGiven {α β : Type} (give : α → Option β) (items : List α) : Option β :=
  items.reverse.findSome? give

section lastGiven

variable {α β σ : Type} {give : α → Option β}

@[simp] theorem lastGiven_nil : lastGiven give [] = none := rfl

@[simp] theorem lastGiven_cons (e : α) (items : List α) :
    lastGiven give (e :: items) = (lastGiven give items).or (give e) := by
  simp [lastGiven, List.findSome?_append]

theorem lastGiven_append (first last : List α) :
    lastGiven give (first ++ last) = (lastGiven give last).or (lastGiven give first) := by
  simp [lastGiven, List.findSome?_append]

theorem lastGiven_eq_none {items : List α} :
    lastGiven give items = none ↔ ∀ e ∈ items, give e = none := by
  simp [lastGiven]

/-- Where every step lets an item have the last word, the last item has it. -/
theorem foldlM_lastGiven {step : σ → α → Option σ} {get : σ → Option β}
    (hstep : ∀ s e s', step s e = some s' → get s' = (give e).or (get s)) {items : List α}
    {s s' : σ} (h : items.foldlM step s = some s') :
    get s' = (lastGiven give items).or (get s) := by
  induction items generalizing s with
  | nil =>
    cases h
    rfl
  | cons e items ih =>
    rw [List.foldlM_cons, Option.bind_eq_bind, Option.bind_eq_some_iff] at h
    obtain ⟨s₁, hone, hrest⟩ := h
    rw [ih hrest, hstep s e s₁ hone, lastGiven_cons, Option.or_assoc]

end lastGiven

/-! ## Files -/

namespace Setting

/-- The key of a setting, in the table of its output file if it is about one. -/
def key : Setting → String
  | format => "format"
  | model => "model"
  | memory => "memory"
  | tabs => "tabs"
  | tables => "tables"
  | halt => "halt"
  | warnings => "warnings"
  | pass1Errors => "pass1_errors"
  | divide => "symbol_divide"
  | enabled _ => "enabled"
  | path _ => "path"

/-- The key of a setting, or of the table that it is in. -/
def outerKey (x : Setting) : String :=
  match x.artifact? with
  | some a => a.key
  | none => x.key

/-- How a value of a file is read. -/
def ofSlot : (x : Setting) → Toml.Slot → Option x.Value
  | format, slot | tabs, slot | path _, slot => textSlot slot
  | model, slot | memory, slot => wordSlot slot
  | tables, slot | halt, slot | warnings, slot | pass1Errors, slot | divide, slot
  | enabled _, slot => truthSlot slot

/-- What an entry with the key of a setting sets it to. -/
def ofEntry (x : Setting) (e : Text × Toml.Slot) : Option x.Value :=
  if isNamed x.key e.1 then x.ofSlot e.2 else none

end Setting

/-- What an entry of a document sets a setting to. Settings of an output file are in its table. -/
def Toml.Document.entryGives? (document : Toml.Document) (x : Setting) (e : Text × Toml.Slot) :
    Option x.Value :=
  match x.artifact? with
  | none => x.ofEntry e
  | some a =>
    if isNamed a.key e.1 then lastGiven x.ofEntry ((tableSlot document e.2).getD []) else none

/-- What a document sets a setting to: the last entry for it counts. -/
def Toml.Document.gives? (document : Toml.Document) (x : Setting) : Option x.Value :=
  lastGiven (document.entryGives? x) ((document.tables[0]?.map Toml.Table.entries).getD [])

theorem ofEntry_of_named {x : Setting} {e : Text × Toml.Slot} (h : isNamed x.key e.1 = true) :
    x.ofEntry e = x.ofSlot e.2 := by
  rw [Setting.ofEntry, if_pos h]

theorem ofEntry_of_not_named {x : Setting} {e : Text × Toml.Slot} (h : isNamed x.key e.1 = false) :
    x.ofEntry e = none := by
  rw [Setting.ofEntry, h, if_neg Bool.false_ne_true]

theorem isNamed_unique {m n : String} {key : Text} (hm : isNamed m key = true)
    (hn : isNamed n key = true) : ascii m = ascii n := by
  rw [isNamed, Text.sameWord, beq_iff_eq] at hm hn
  exact (List.map_inj_right fun a b => UInt8.toNat_inj.mp).mp (hm.symm.trans hn)

theorem not_isNamed_of_ne {m n : String} {key : Text} (hm : isNamed m key = true)
    (hne : ascii n ≠ ascii m) : isNamed n key = false :=
  Bool.eq_false_iff.mpr fun hn => hne (isNamed_unique hn hm)

/-- Only the settings of one output file share an entry. -/
theorem outerKey_ne {x y : Setting} (hxy : x ≠ y) (hy : y.artifact? = none) :
    ascii x.outerKey ≠ ascii y.outerKey := by
  cases y with
  | enabled a => cases hy
  | path a => cases hy
  | _ =>
    cases x with
    | enabled b => cases b <;> decide
    | path b => cases b <;> decide
    | _ => first | exact absurd rfl hxy | decide

theorem key_ne {a b : Artifact} (h : a ≠ b) : ascii a.key ≠ ascii b.key := by
  cases a <;> cases b <;> first | exact absurd rfl h | decide

theorem Toml.Document.entryGives?_of_not_named {document : Toml.Document} {x : Setting}
    {e : Text × Toml.Slot} (h : isNamed x.outerKey e.1 = false) :
    document.entryGives? x e = none := by
  rw [entryGives?]
  rw [Setting.outerKey] at h
  cases ha : x.artifact? with
  | none =>
    rw [ha] at h
    exact ofEntry_of_not_named h
  | some a =>
    rw [ha] at h
    exact if_neg (Bool.eq_false_iff.mp h)

theorem get_destinationEntry (a : Artifact) {d d' : DestinationLayer} {e : Text × Toml.Slot}
    (h : destinationEntry d e = some d') :
    d'.enabled = ((Setting.enabled a).ofEntry e).or d.enabled ∧
      d'.path = ((Setting.path a).ofEntry e).or d.path := by
  rw [destinationEntry] at h
  cases henabled : isNamed "enabled" e.1 with
  | true =>
    have hpath : isNamed "path" e.1 = false := not_isNamed_of_ne henabled (by decide)
    rw [henabled, if_pos rfl] at h
    obtain ⟨b, hb, rfl⟩ := Option.map_eq_some_iff.mp h
    rw [ofEntry_of_named (x := .enabled a) henabled, ofEntry_of_not_named (x := .path a) hpath]
    exact ⟨(congrArg (Option.or · d.enabled) hb).symm, rfl⟩
  | false =>
    rw [henabled, if_neg Bool.false_ne_true] at h
    rw [ofEntry_of_not_named (x := .enabled a) henabled]
    cases hpath : isNamed "path" e.1 with
    | true =>
      rw [hpath, if_pos rfl] at h
      obtain ⟨t, ht, rfl⟩ := Option.map_eq_some_iff.mp h
      rw [ofEntry_of_named (x := .path a) hpath]
      exact ⟨rfl, (congrArg (Option.or · d.path) ht).symm⟩
    | false =>
      rw [hpath, if_neg Bool.false_ne_true] at h
      cases h
      rw [ofEntry_of_not_named (x := .path a) hpath]
      exact ⟨rfl, rfl⟩

section

variable {document : Toml.Document} {l l' : Layer} {key : Text} {slot : Toml.Slot}

theorem get?_of_scalar {y : Setting} (hy : y.artifact? = none) (hnamed : isNamed y.key key = true)
    (h : (y.ofSlot slot).map (l.put y) = some l') (x : Setting) :
    l'.get? x = (document.entryGives? x (key, slot)).or (l.get? x) := by
  obtain ⟨v, hv, rfl⟩ := Option.map_eq_some_iff.mp h
  have houter : y.outerKey = y.key := by rw [Setting.outerKey, hy]
  by_cases hxy : x = y
  · subst hxy
    have hgives : document.entryGives? x (key, slot) = some v := by
      rw [Toml.Document.entryGives?, hy]
      exact (if_pos hnamed).trans hv
    rw [Layer.get?_put, hgives]
    rfl
  · have hother := not_isNamed_of_ne (houter ▸ hnamed) (outerKey_ne hxy hy)
    rw [Layer.get?_put_of_ne hxy hy, Toml.Document.entryGives?_of_not_named hother, Option.none_or]

theorem get?_of_table {a : Artifact} {entries : List (Text × Toml.Slot)} {d : DestinationLayer}
    (hnamed : isNamed a.key key = true) (hentries : tableSlot document slot = some entries)
    (hd : entries.foldlM destinationEntry (l.destination a) = some d) (x : Setting) :
    (l.setDestination a d).get? x = (document.entryGives? x (key, slot)).or (l.get? x) := by
  by_cases hx : x.artifact? = some a
  · have hgives : document.entryGives? x (key, slot) = lastGiven x.ofEntry entries := by
      rw [Toml.Document.entryGives?, hx]
      exact (if_pos hnamed).trans (by rw [hentries]; rfl)
    rw [hgives]
    cases x with
    | enabled b =>
      cases hx
      rw [Layer.get?_enabled, Layer.destination_setDestination]
      have hstep : ∀ d e d', destinationEntry d e = some d' →
          d'.enabled = ((Setting.enabled a).ofEntry e).or d.enabled :=
        fun d e d' he => (get_destinationEntry a he).1
      exact foldlM_lastGiven hstep hd
    | path b =>
      cases hx
      rw [Layer.get?_path, Layer.destination_setDestination]
      have hstep : ∀ d e d', destinationEntry d e = some d' →
          d'.path = ((Setting.path a).ofEntry e).or d.path :=
        fun d e d' he => (get_destinationEntry a he).2
      exact foldlM_lastGiven hstep hd
    | _ => cases hx
  · have hne : ascii x.outerKey ≠ ascii a.key := by
      cases hb : x.artifact? with
      | none =>
        have hxa : Setting.enabled a ≠ x := by
          rintro rfl
          cases hb
        exact (outerKey_ne hxa hb).symm
      | some b =>
        rw [Setting.outerKey, hb]
        exact key_ne fun heq => hx (hb.trans (congrArg some heq))
    rw [Layer.get?_setDestination_of_ne hx,
      Toml.Document.entryGives?_of_not_named (not_isNamed_of_ne hnamed hne), Option.none_or]

theorem get?_or_of_ite {y : Setting} (hy : y.artifact? = none) {rest : Option Layer}
    (h : (if isNamed y.key key then (y.ofSlot slot).map (l.put y) else rest) = some l') :
    (∀ x, l'.get? x = (document.entryGives? x (key, slot)).or (l.get? x)) ∨
      isNamed y.key key = false ∧ rest = some l' := by
  cases hnamed : isNamed y.key key with
  | true =>
    rw [if_pos hnamed] at h
    exact .inl (get?_of_scalar hy hnamed h)
  | false =>
    rw [if_neg (Bool.eq_false_iff.mp hnamed)] at h
    exact .inr ⟨rfl, h⟩

/-- **An entry of a document has the last word on what it names.** -/
theorem get?_fileEntry {e : Text × Toml.Slot} (h : fileEntry document l e = some l') (x : Setting) :
    l'.get? x = (document.entryGives? x e).or (l.get? x) := by
  obtain ⟨key, slot⟩ := e
  simp only [fileEntry] at h
  rcases get?_or_of_ite (y := .format) rfl h with hgives | ⟨hformat, h⟩
  · exact hgives x
  rcases get?_or_of_ite (y := .model) rfl h with hgives | ⟨hmodel, h⟩
  · exact hgives x
  rcases get?_or_of_ite (y := .memory) rfl h with hgives | ⟨hmemory, h⟩
  · exact hgives x
  rcases get?_or_of_ite (y := .tabs) rfl h with hgives | ⟨htabs, h⟩
  · exact hgives x
  rcases get?_or_of_ite (y := .tables) rfl h with hgives | ⟨htables, h⟩
  · exact hgives x
  rcases get?_or_of_ite (y := .halt) rfl h with hgives | ⟨hhalt, h⟩
  · exact hgives x
  rcases get?_or_of_ite (y := .warnings) rfl h with hgives | ⟨hwarnings, h⟩
  · exact hgives x
  rcases get?_or_of_ite (y := .pass1Errors) rfl h with hgives | ⟨hpass1, h⟩
  · exact hgives x
  rcases get?_or_of_ite (y := .divide) rfl h with hgives | ⟨hdivide, h⟩
  · exact hgives x
  split at h <;> rename_i hnamed
  · rename_i a
    have hname : isNamed a.key key = true :=
      List.find?_some (p := fun a : Artifact => isNamed a.key key) hnamed
    rw [Option.bind_eq_bind, Option.bind_eq_some_iff] at h
    obtain ⟨entries, hentries, h⟩ := h
    rw [Option.bind_eq_bind, Option.bind_eq_some_iff] at h
    obtain ⟨d, hd, h⟩ := h
    cases h
    exact get?_of_table hname hentries hd x
  · cases h
    -- the key is none of a setting or a table
    have hother : isNamed x.outerKey key = false := by
      have hartifact : ∀ a : Artifact, ¬ isNamed a.key key = true := fun a =>
        List.find?_eq_none.mp hnamed a (by cases a <;> decide)
      cases x with
      | format => exact hformat
      | model => exact hmodel
      | memory => exact hmemory
      | tabs => exact htabs
      | tables => exact htables
      | halt => exact hhalt
      | warnings => exact hwarnings
      | pass1Errors => exact hpass1
      | divide => exact hdivide
      | enabled a => exact Bool.eq_false_iff.mpr (hartifact a)
      | path a => exact Bool.eq_false_iff.mpr (hartifact a)
    rw [Toml.Document.entryGives?_of_not_named hother, Option.none_or]

end

/-- **A file that is accepted sets what its document gives.** -/
theorem get?_of_decodeFile {readers : Readers} {edition : Toml.Edition} {path content : Text}
    {l : Layer} (h : decodeFile readers edition path content = .ok l) :
    ∃ document, readers.parse edition content = some document ∧
      ∀ x, l.get? x = document.gives? x := by
  rw [decodeFile] at h
  split at h
  · cases h
  rename_i document hdocument
  dsimp only at h
  split at h
  · cases h
  rename_i layer hlayer
  split at h
  · cases h
    refine ⟨document, hdocument, fun x => ?_⟩
    have hstep : ∀ l e l', fileEntry document l e = some l' →
        l'.get? x = (document.entryGives? x e).or (l.get? x) := fun l e l' he => get?_fileEntry he x
    rw [foldlM_lastGiven hstep hlayer, Layer.get?_empty, Option.or_none]
    rfl
  · cases h

end SpsAssembler
