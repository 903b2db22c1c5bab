import SpsAssembler.Command.Run
import SpsAssembler.Proofs.CommandFlags

/-!
# The settings of a run

Each setting of a run is the one of the highest layer that sets it: the command line, the
environment, the configuration file, the defaults. How a file, a variable and a truth value are read
is left to the readers of the run, of which nothing is assumed. There is one exception. The flag of an
output file that is only enabled on the command line also blanks its path, whatever the environment
and the file say about it.

* `Surroundings.fileGives?`: what the configuration file sets;
* `Surroundings.layered`: the setting of the highest layer;
* `OnlyEnables`: output files that are enabled without being named;
* **`run_layered`**: the settings of a run; `path_dropped`: a path that is lost.
-/

namespace SpsAssembler

/-- What the configuration file of a run sets a setting to, if there is one. -/
def Surroundings.fileGives? (w : Surroundings) (named : Text) (x : Setting) : Option x.Value := do
  let path ← configurationFile w.store w.env named w.readers
  let content ← (w.store.read path).toOption
  let document ← w.readers.parse w.env.edition content
  document.gives? x

/-- **A setting as the highest layer has it that sets it**: flags, environment, file, defaults. -/
def Surroundings.layered (w : Surroundings) (named : Text) (given : List (Flag × Text))
    (x : Setting) : x.Value :=
  (((lastGiven x.flagGives? given).or (w.env.gives? w.readers x)).or (w.fileGives? named x)).getD
    (Settings.default.get x)

/-- The flag of an output file is given, and only in order to enable it. -/
def OnlyEnables (given : List (Flag × Text)) (a : Artifact) : Prop :=
  (∃ value, (.output a, value) ∈ given) ∧
    ∀ value, (.output a, value) ∈ given → isOnWord value = true

variable {w : Surroundings} {s s' : Session} {c : CommandLine} {file : Layer}
  {given : List (Flag × Text)}

theorem get?_of_loadConfiguration (h : loadConfiguration w c s = .ok (file, s')) (x : Setting) :
    file.get? x = w.fileGives? c.config x := by
  rw [loadConfiguration] at h
  rw [Surroundings.fileGives?]
  split at h <;> rename_i hpath
  · cases h
    rw [hpath, Layer.get?_empty]
    rfl
  · rename_i path
    rw [hpath]
    split at h <;> rename_i hfile
    · cases h
    · cases h
      rw [loadFile] at hfile
      split at hfile <;> rename_i hread
      · cases hfile
      · obtain ⟨document, hdocument, hgives⟩ := get?_of_decodeFile hfile
        rw [hgives x]
        simp only [hread, Except.toOption, Option.bind_eq_bind, Option.bind_some, hdocument]

theorem get_layeredSettings (file : Layer) (env : Environment) (c : CommandLine) (readers : Readers)
    (x : Setting) : (layeredSettings file env c readers).get x =
      (((c.layer.get? x).or (env.gives? readers x)).or (file.get? x)).getD
        (Settings.default.get x) := by
  rw [layeredSettings, Layer.get_apply, Layer.get_apply, Layer.get_apply, Environment.get?_layer]
  cases c.layer.get? x <;> cases env.gives? readers x <;> rfl

theorem onlyEnables_iff (a : Artifact) :
    OnlyEnables given a ↔
      (Setting.path a).blank? given = some [] ∧
        lastGiven (Setting.path a).flagGives? given = none := by
  have hpath : ∀ value, (Setting.path a).flagGives? (.output a, value) = none ↔
      isOnWord value = true := fun value => by
    rw [show (Setting.path a).flagGives? (.output a, value) = (Setting.path a).ofFlag value from
      Setting.flagGives?_self (.path a) value, Setting.ofFlag]
    cases isOnWord value <;> cases isOffWord value <;> simp
  refine and_congr ?_ (Iff.trans ?_ lastGiven_eq_none.symm)
  · simp [Setting.blank?]
  · refine ⟨fun h g hg => ?_, fun h value hvalue => (hpath value).mp (h _ hvalue)⟩
    by_cases hflag : g.1 = .output a
    · obtain ⟨flag, value⟩ := g
      cases hflag
      exact (hpath value).mpr (h value hg)
    · exact Setting.flagGives?_of_ne hflag

/-- Elsewhere the blank path does not show: nothing is blank, or a value has been given. -/
theorem or_blank? {x : Setting} (h : ∀ a, x = .path a → ¬ OnlyEnables given a) :
    (lastGiven x.flagGives? given).or (x.blank? given) = lastGiven x.flagGives? given := by
  cases x with
  | path a =>
    cases hgiven : lastGiven (Setting.path a).flagGives? given with
    | some value => rfl
    | none =>
      have hblank : (Setting.path a).blank? given ≠ some [] := fun hblank =>
        h a rfl ((onlyEnables_iff a).mpr ⟨hblank, hgiven⟩)
      rw [Option.none_or]
      rw [Setting.blank?] at hblank ⊢
      split
      · rename_i hany
        exact absurd (if_pos hany) hblank
      · rfl
  | _ => exact Option.or_none

/-- **The settings of a run come in layers**, whatever readers it has. Each is the one of the highest
layer that sets it, but for the path of an output file that flags only enable. -/
theorem run_layered (w : Surroundings) (s s' : Session) (c : CommandLine) (file : Layer)
    (hparse : CommandLine.parse Command.assemble.flags w.args = .ok c) (hhelp : c.help = false)
    (hpos : c.args ≠ []) (hmax : c.args.length ≤ maxFiles)
    (hload : loadConfiguration w c s = .ok (file, s')) :
    ∃ given settings, ArgsSpell Command.assemble.flags w.args given c.args ∧
      settings = layeredSettings file w.env c w.readers ∧
      runAssembler w s = runSettings s' c.verbose settings c.args w.stamp ∧
      (∀ x, (∀ a, x = .path a → ¬ OnlyEnables given a) →
        settings.get x = w.layered c.config given x) ∧
      ∀ a, OnlyEnables given a → settings.get (.path a) = [] := by
  obtain ⟨given, hspells, hlayer⟩ := CommandLine.spells_of_parse hparse
  have hget : ∀ x, (layeredSettings file w.env c w.readers).get x =
      ((((lastGiven x.flagGives? given).or (x.blank? given)).or (w.env.gives? w.readers x)).or
        (w.fileGives? c.config x)).getD (Settings.default.get x) := fun x => by
    rw [get_layeredSettings, hlayer, get?_of_loadConfiguration hload]
  refine ⟨given, layeredSettings file w.env c w.readers, hspells, rfl, ?_, fun x hx => ?_, fun a ha => ?_⟩
  · rw [runAssembler, hparse]
    simp [hhelp, hpos, Nat.not_lt.mpr hmax, hload]
  · rw [hget, Surroundings.layered, or_blank? hx]
  · obtain ⟨hblank, hnone⟩ := (onlyEnables_iff a).mp ha
    rw [hget, hblank, hnone]
    rfl

theorem ok_of_toOption {ε α : Type} {x : Except ε α} {a : α} (h : x.toOption = some a) :
    x = .ok a := by
  cases x with
  | error e => cases h
  | ok b =>
    cases h
    rfl

/-! ## A file of one entry -/

section Single

variable {edition : Toml.Edition} {content : Text} (name : Text) (value : Toml.Scalar)

/-- The document in which one name has a value. -/
def single : Toml.Document :=
  (({ notes := [.own [name]] } : Toml.Document).set 0 name (.scalar value)).setKind {} name false

theorem parse_single (h : Toml.tokens edition content = some [.key [name], .scalar value]) :
    Toml.parse edition content = some (single name value) := by
  let d : Toml.Document := { notes := [.own [name]] }
  have hkey : Toml.Builder.step {} (.key [name]) = some ⟨d, {}, name, [.entry [name] {}]⟩ := rfl
  have hput : d.put {} name (.scalar value) = some (d.set 0 name (.scalar value)) := by
    have hnew : (d.slot? 0 name).isNone = true := by simp [d, Toml.Document.slot?]
    exact if_pos hnew
  have hvalue : Toml.Builder.step ⟨d, {}, name, [.entry [name] {}]⟩ (.scalar value) =
      some ⟨single name value, {}, name, []⟩ := by
    rw [Toml.Builder.step, Toml.Builder.finish, hput]
    rfl
  rw [Toml.parse, h]
  simp [hkey, hvalue]

theorem entries_single : ((single name value).tables[0]?.map Toml.Table.entries).getD [] =
    [(name, .scalar value)] := by
  simp [single, Toml.Document.set, Toml.Document.setKind, Toml.Table.entries, Toml.Table.set]

theorem decodeFile_single {path : Text} {layer : Layer}
    (htokens : Toml.tokens edition content = some [.key [name], .scalar value])
    (hlayer : fileEntry (single name value) {} (name, .scalar value) = some layer)
    (hknown : entryKeys (single name value) (name, .scalar value) = [[name]]) :
    decodeFile {} edition path content = .ok layer := by
  have hkeys : (single name value).keys = [[name]] := rfl
  have hunknown : unknownKeys (single name value) [(name, .scalar value)] = [] := by
    simp [unknownKeys, hkeys, hknown]
  have hparse : ({} : Readers).parse edition content = some (single name value) :=
    parse_single name value htokens
  rw [decodeFile, hparse]
  simp [entries_single, hlayer, hunknown]

end Single

/-- Settings in every layer: the format and the card deck on the command line, the memory in the
environment, and in the file that the program does not halt. -/
def layeredSurroundings : Surroundings where
  args := [ascii "-f", ascii "freeform", ascii "--crd", ascii "prog.sps"]
  env := [(ascii "SPS1620_MEMORY", ascii "20")]
  store := { entries := [([defaultConfiguration], .file (ascii "halt=false\n"))] }
  stamp := ⟨2024, 3, 5, 9, 7⟩

/-- The command line of the run. -/
def layeredLine : CommandLine where
  layer := { format := some (ascii "freeform"), cards := { enabled := some true, path := some [] } }
  args := [ascii "prog.sps"]
  given := [.output .cards, .format]

theorem parse_layered :
    CommandLine.parse Command.assemble.flags layeredSurroundings.args = .ok layeredLine :=
  ok_of_toOption (by decide +kernel)

theorem load_layered (s : Session) : ∃ s', loadConfiguration layeredSurroundings layeredLine s =
    .ok ({ halt := some false }, s') := by
  have hpath : configurationFile layeredSurroundings.store layeredSurroundings.env layeredLine.config
      layeredSurroundings.readers = some defaultConfiguration := by decide +kernel
  have hread : layeredSurroundings.store.read defaultConfiguration = .ok (ascii "halt=false\n") :=
    ok_of_toOption (by decide +kernel)
  have hdecode : decodeFile layeredSurroundings.readers layeredSurroundings.env.edition
      defaultConfiguration (ascii "halt=false\n") = .ok { halt := some false } :=
    decodeFile_single (ascii "halt") (.boolean false) (by decide +kernel) (by decide +kernel)
      (by decide +kernel)
  rw [loadConfiguration, hpath]
  simp only [loadFile, hread, hdecode]
  exact ⟨_, rfl⟩

/-- The flags, the environment, the file and the defaults each have their say. -/
theorem run_layered_each : ∃ s' given settings,
    ArgsSpell Command.assemble.flags layeredSurroundings.args given layeredLine.args ∧
      runAssembler layeredSurroundings { store := layeredSurroundings.store } =
        runSettings s' false settings layeredLine.args layeredSurroundings.stamp ∧
      (∀ x, (∀ a, x = .path a → ¬ OnlyEnables given a) →
        settings.get x = layeredSurroundings.layered [] given x) ∧
      settings.get .format = ascii "freeform" ∧ settings.get (.enabled .cards) = true ∧
      settings.get .memory = 20 ∧ settings.get .halt = false ∧ settings.get .model = 1 := by
  obtain ⟨s', hload⟩ := load_layered { store := layeredSurroundings.store }
  obtain ⟨given, settings, hspells, hsettings, hrun, hlayered, -⟩ :=
    run_layered layeredSurroundings { store := layeredSurroundings.store } s' layeredLine _
      parse_layered rfl (by decide) (by decide) hload
  refine ⟨s', given, settings, hspells, hrun, hlayered, ?_⟩
  rw [hsettings]
  decide +kernel

/-- The core image is enabled on the command line, and the environment names it. -/
def droppedSurroundings : Surroundings where
  args := [ascii "--cmem", ascii "prog.sps"]
  env := [(ascii "SPS1620_CMEM_PATH", ascii "kept.cmem")]
  stamp := ⟨2024, 3, 5, 9, 7⟩

/-- **The path is lost**: the run does not have the one that the highest layer sets. -/
theorem path_dropped : ∃ given settings,
    ArgsSpell Command.assemble.flags droppedSurroundings.args given [ascii "prog.sps"] ∧
      (∀ s, runAssembler droppedSurroundings s =
        runSettings s false settings [ascii "prog.sps"] droppedSurroundings.stamp) ∧
      droppedSurroundings.layered [] given (.path .core) = ascii "kept.cmem" ∧
      settings.get (.path .core) = [] := by
  have hparse : CommandLine.parse Command.assemble.flags droppedSurroundings.args =
      .ok { layer := { core := { enabled := some true, path := some [] } },
            args := [ascii "prog.sps"], given := [.output .core] } :=
    ok_of_toOption (by decide +kernel)
  have hspells : ArgsSpell Command.assemble.flags droppedSurroundings.args
      [(.output .core, ascii "on")] [ascii "prog.sps"] :=
    .alone (by decide : Flag.output .core ∈ Flag.all) rfl (.file (.inl (by decide)) .nil)
  have hconfiguration : configurationFile droppedSurroundings.store droppedSurroundings.env []
      droppedSurroundings.readers = none := by decide +kernel
  refine ⟨[(.output .core, ascii "on")], layeredSettings {} droppedSurroundings.env
    { layer := { core := { enabled := some true, path := some [] } } }, hspells, fun s => ?_,
    by decide +kernel, by decide +kernel⟩
  rw [runAssembler, hparse]
  simp only [loadConfiguration, hconfiguration]
  rfl

end SpsAssembler
