import SpsAssembler.Proofs.SettingLayers
import SpsAssembler.Settings.Flags

/-!
# Settings from flags

How arguments spell flags with their values, and what those values set. The last value that says
something about a setting counts. A flag for an output file that only enables it says nothing about
its path, but the layer of the command line has one all the same: without another value it is blank.

* `LettersSpell`, **`ArgsSpell`**: the flags and values that arguments spell;
* `Setting.flag`, `Setting.ofFlag`, `Setting.flagGives?`: what a flag says about a setting;
* `Assigns`, `assigns_set`: the layer of the command line behind some flags;
* **`spells_of_parse`**: the arguments of a run.
-/

namespace SpsAssembler

open CommandLine (dash equals testStart)

/-! ## Spelling -/

/-- Whether letters go on with the value of the flag in front of them. -/
def startsValue : Text → Bool
  | e :: _ :: _ => e == equals
  | _ => false

/-- **Letters behind a dash spell flags and values**, the last of which may be the next argument. -/
inductive LettersSpell (flags : List Flag) :
    Text → List Text → List (Flag × Text) → List Text → Prop where
  | nil {next : List Text} : LettersSpell flags [] next [] next
  | test {letters : Text} {next : List Text} (h : Text.hasPrefix testStart letters = true) :
      LettersSpell flags letters next [] next
  | alone {flag : Flag} {letter : Byte} {letters value : Text} {next next' : List Text}
      {given : List (Flag × Text)} (hflag : flag ∈ flags) (hletter : flag.letter? = some letter)
      (hbare : flag.bare? = some value) (hvalue : startsValue letters = false)
      (hrest : LettersSpell flags letters next given next') :
      LettersSpell flags (letter :: letters) next ((flag, value) :: given) next'
  | withValue {flag : Flag} {letter : Byte} {value : Text} {next : List Text} (hflag : flag ∈ flags)
      (hletter : flag.letter? = some letter) (hvalue : value ≠ []) :
      LettersSpell flags (letter :: equals :: value) next [(flag, value)] next
  | attached {flag : Flag} {letter : Byte} {value : Text} {next : List Text} (hflag : flag ∈ flags)
      (hletter : flag.letter? = some letter) (hbare : flag.bare? = none) (hne : value ≠ [])
      (hvalue : startsValue value = false) :
      LettersSpell flags (letter :: value) next [(flag, value)] next
  | withNext {flag : Flag} {letter : Byte} {value : Text} {next : List Text} (hflag : flag ∈ flags)
      (hletter : flag.letter? = some letter) (hbare : flag.bare? = none) :
      LettersSpell flags [letter] (value :: next) [(flag, value)] next

/-- **Arguments spell flags with their values, and files.** A flag that may do without a value never
takes the next argument. -/
inductive ArgsSpell (flags : List Flag) : List Text → List (Flag × Text) → List Text → Prop where
  | nil : ArgsSpell flags [] [] []
  | stop {files : List Text} : ArgsSpell flags ([dash, dash] :: files) [] files
  | file {arg : Text} {rest files : List Text} {given : List (Flag × Text)}
      (harg : arg.head? ≠ some dash ∨ arg.length ≤ 1) (hrest : ArgsSpell flags rest given files) :
      ArgsSpell flags (arg :: rest) given (arg :: files)
  | withValue {flag : Flag} {value : Text} {rest files : List Text} {given : List (Flag × Text)}
      (hflag : flag ∈ flags) (hrest : ArgsSpell flags rest given files) :
      ArgsSpell flags ((dash :: dash :: (ascii flag.name ++ equals :: value)) :: rest)
        ((flag, value) :: given) files
  | alone {flag : Flag} {value : Text} {rest files : List Text} {given : List (Flag × Text)}
      (hflag : flag ∈ flags) (hbare : flag.bare? = some value)
      (hrest : ArgsSpell flags rest given files) :
      ArgsSpell flags ((dash :: dash :: ascii flag.name) :: rest) ((flag, value) :: given) files
  | withNext {flag : Flag} {value : Text} {rest files : List Text} {given : List (Flag × Text)}
      (hflag : flag ∈ flags) (hbare : flag.bare? = none) (hrest : ArgsSpell flags rest given files) :
      ArgsSpell flags ((dash :: dash :: ascii flag.name) :: value :: rest) ((flag, value) :: given) files
  | letters {letter : Byte} {letters : Text} {next rest files : List Text}
      {given given' : List (Flag × Text)} (hletter : letter ≠ dash)
      (hletters : LettersSpell flags (letter :: letters) next given rest)
      (hrest : ArgsSpell flags rest given' files) :
      ArgsSpell flags ((dash :: letter :: letters) :: next) (given ++ given') files

/-! ## What flags say -/

/-- Whether a value only enables an output file. -/
def isOnWord (value : Text) : Bool := ["on", "true", ""].any fun w => value.toLowerAscii == ascii w

/-- Whether a value turns an output file off. -/
def isOffWord (value : Text) : Bool :=
  ["off", "false", "none"].any fun w => value.toLowerAscii == ascii w

namespace Setting

/-- The flag for a setting. -/
def flag : Setting → Flag
  | format => .format
  | model => .model
  | memory => .memory
  | tabs => .tabs
  | tables => .tables
  | halt => .halt
  | warnings => .warn
  | pass1Errors => .pass1Errors
  | divide => .divide
  | enabled a | path a => .output a

/-- What the value of its flag says about a setting. For an output file it may enable it, turn it off
and clear its path, or name it. -/
def ofFlag : (x : Setting) → Text → Option x.Value
  | format, t | tabs, t => some t
  | model, t | memory, t => t.readInteger.toOption
  | tables, t | halt, t | warnings, t | pass1Errors, t | divide, t => readSwitch t
  | enabled _, t => some (!isOffWord t)
  | path _, t => if isOnWord t then none else if isOffWord t then some [] else some t

/-- What a flag with its value says about a setting. -/
def flagGives? (x : Setting) (g : Flag × Text) : Option x.Value :=
  if g.1 = x.flag then x.ofFlag g.2 else none

/-- The path that an output file gets without one being named, once its flag is given. -/
def blank? (given : List (Flag × Text)) : (x : Setting) → Option x.Value
  | path a => if given.any fun g => g.1 == .output a then some [] else none
  | _ => none

end Setting

/-- A layer of the command line behind some more flags. -/
def Assigns (l : Layer) (given : List (Flag × Text)) (l' : Layer) : Prop :=
  ∀ x, l'.get? x = ((lastGiven x.flagGives? given).or (l.get? x)).or (x.blank? given)

variable {l l' l'' : Layer} {given given' : List (Flag × Text)} {value : Text}

namespace Setting

@[simp] theorem blank?_nil (x : Setting) : x.blank? [] = none := by
  cases x <;> rfl

theorem blank?_append (x : Setting) :
    x.blank? (given ++ given') = (x.blank? given).or (x.blank? given') := by
  cases x with
  | path a =>
    simp only [blank?, List.any_append]
    cases given.any fun g => g.1 == .output a <;> rfl
  | _ => rfl

theorem flagGives?_of_ne {x : Setting} {g : Flag × Text} (h : g.1 ≠ x.flag) : x.flagGives? g = none :=
  if_neg h

theorem flagGives?_self (x : Setting) (value : Text) : x.flagGives? (x.flag, value) = x.ofFlag value :=
  if_pos rfl

/-- Only the settings of an output file share a flag. -/
theorem flag_ne {x y : Setting} (hxy : x ≠ y) (hy : y.artifact? = none) : y.flag ≠ x.flag := by
  cases y with
  | enabled a => cases hy
  | path a => cases hy
  | _ => cases x <;> first | exact absurd rfl hxy | exact Flag.noConfusion

theorem ne_flag {flag : Flag} (h : flag ∈ [.config, .verbose, .help, .noDescriptions]) (x : Setting) :
    flag ≠ x.flag := by
  simp only [List.mem_cons, List.not_mem_nil, or_false] at h
  rcases h with rfl | rfl | rfl | rfl <;> cases x <;> exact Flag.noConfusion

theorem blank?_of_ne {x : Setting} {flag : Flag} (h : flag ≠ x.flag) :
    x.blank? [(flag, value)] = none := by
  cases x with
  | path a =>
    have hne : (flag == .output a) = false := beq_eq_false_iff_ne.mpr h
    simp [blank?, hne]
  | _ => rfl

end Setting

namespace Assigns

theorem nil (l : Layer) : Assigns l [] l := fun x => by simp

theorem trans (h : Assigns l given l') (h' : Assigns l' given' l'') :
    Assigns l (given ++ given') l'' := by
  intro x
  rw [h' x, h x, lastGiven_append, Setting.blank?_append]
  simp only [Option.or_assoc]

theorem single {flag : Flag} (h : ∀ x, l'.get? x = ((x.flagGives? (flag, value)).or (l.get? x)).or
    (x.blank? [(flag, value)])) : Assigns l [(flag, value)] l' := fun x => by
  rw [h x, lastGiven_cons, lastGiven_nil, Option.none_or]

theorem of_other {flag : Flag} (h : ∀ x : Setting, flag ≠ x.flag) : Assigns l [(flag, value)] l :=
  single fun x => by
    rw [Setting.flagGives?_of_ne (h x), Setting.blank?_of_ne (h x), Option.none_or, Option.or_none]

theorem put {y : Setting} {v : y.Value} (hy : y.artifact? = none) (hv : y.ofFlag value = some v) :
    Assigns l [(y.flag, value)] (l.put y v) := by
  refine single fun x => ?_
  by_cases hxy : x = y
  · subst hxy
    rw [Layer.get?_put, Setting.flagGives?_self, hv]
    rfl
  · have hne := Setting.flag_ne hxy hy
    rw [Layer.get?_put_of_ne hxy hy, Setting.flagGives?_of_ne hne, Setting.blank?_of_ne hne,
      Option.none_or, Option.or_none]

end Assigns

namespace CommandLine

variable {c c' : CommandLine} {flag : Flag}

theorem path_default (a : Artifact) : (Settings.default.destination a).path = [] := by
  cases a <;> rfl

theorem isOffWord_of_isOnWord (h : isOnWord value = true) : isOffWord value = false := by
  simp only [isOnWord, List.any_cons, List.any_nil, Bool.or_false, Bool.or_eq_true, beq_iff_eq] at h
  rcases h with h | h | h <;> simp only [isOffWord, h] <;> decide

theorem choose_eq (d : Destination) (value : Text) :
    d.choose value =
      { enabled := !isOffWord value
        path := if isOnWord value then d.path else if isOffWord value then [] else value } := by
  have hon : (value.toLowerAscii == ascii "on" || value.toLowerAscii == ascii "true" ||
      value.toLowerAscii.isEmpty) = isOnWord value := by
    have hempty : (value.toLowerAscii == ascii "") = value.toLowerAscii.isEmpty := by
      cases value.toLowerAscii <;> rfl
    simp [isOnWord, hempty, Bool.or_assoc]
  have hoff : (value.toLowerAscii == ascii "off" || value.toLowerAscii == ascii "false" ||
      value.toLowerAscii == ascii "none") = isOffWord value := by
    simp [isOffWord, Bool.or_assoc]
  simp only [Destination.choose, hon, hoff]
  cases honWord : isOnWord value with
  | true => simp [isOffWord_of_isOnWord honWord]
  | false => cases isOffWord value <;> rfl

theorem assigns_setOutput (c : CommandLine) (a : Artifact) (value : Text) :
    Assigns c.layer [(.output a, value)] (c.setOutput a value).layer := by
  refine .single fun x => ?_
  rw [setOutput]
  by_cases hx : x.artifact? = some a
  · cases x with
    | enabled b =>
      cases hx
      have hgives : (Setting.enabled a).flagGives? (.output a, value) = some (!isOffWord value) :=
        Setting.flagGives?_self (.enabled a) value
      rw [Layer.get?_enabled, Layer.destination_setDestination, choose_eq, hgives]
      rfl
    | path b =>
      cases hx
      have hgives : (Setting.path a).flagGives? (.output a, value) =
          if isOnWord value then none else if isOffWord value then some [] else some value :=
        Setting.flagGives?_self (.path a) value
      have hpath : ((c.layer.apply Settings.default).destination a).path =
          (c.layer.get? (.path a)).getD [] := by
        rw [← path_default a]
        exact Layer.get_apply c.layer Settings.default (.path a)
      have hblank : (Setting.path a).blank? [(.output a, value)] = some [] := by
        simp [Setting.blank?]
      rw [Layer.get?_path, Layer.destination_setDestination, choose_eq, hpath, hblank,
        hgives]
      cases isOnWord value with
      | true => cases c.layer.get? (.path a) <;> rfl
      | false => cases isOffWord value <;> rfl
    | _ => cases hx
  · have hne : Flag.output a ≠ x.flag := by
      intro heq
      cases x <;> cases heq
      all_goals exact hx rfl
    rw [Layer.get?_setDestination_of_ne hx, Setting.flagGives?_of_ne hne, Setting.blank?_of_ne hne,
      Option.none_or, Option.or_none]

theorem exists_of_switch (hkind : flag.kind = .switch) (h : c.assign flag value = .ok c') :
    ∃ b, readSwitch value = some b ∧ c' = c.setSwitch flag b := by
  unfold assign at h
  split at h
  · cases hkind
  · rw [hkind] at h
    cases hread : readSwitch value with
    | none =>
      rw [hread] at h
      cases h
    | some b =>
      rw [hread] at h
      cases h
      exact ⟨b, rfl, rfl⟩

theorem exists_of_number (hkind : flag.kind = .number) (h : c.assign flag value = .ok c') :
    ∃ n, value.readInteger.toOption = some n ∧ c' = c.setNumber flag n := by
  unfold assign at h
  split at h
  · cases hkind
  · rw [hkind] at h
    cases hread : value.readInteger with
    | error e =>
      rw [hread] at h
      cases h
    | ok n =>
      rw [hread] at h
      cases h
      exact ⟨n, rfl, rfl⟩

/-- **A flag assigns what its value says.** -/
theorem assigns_assign (h : c.assign flag value = .ok c') :
    Assigns c.layer [(flag, value)] c'.layer ∧ c'.args = c.args := by
  cases flag with
  | output a =>
    cases h
    exact ⟨assigns_setOutput c a value, rfl⟩
  | format =>
    cases h
    exact ⟨.put (y := .format) rfl rfl, rfl⟩
  | tabs =>
    cases h
    exact ⟨.put (y := .tabs) rfl rfl, rfl⟩
  | config =>
    cases h
    exact ⟨.of_other (Setting.ne_flag (by decide)), rfl⟩
  | model =>
    obtain ⟨n, hn, rfl⟩ := exists_of_number rfl h
    exact ⟨.put (y := .model) rfl hn, rfl⟩
  | memory =>
    obtain ⟨n, hn, rfl⟩ := exists_of_number rfl h
    exact ⟨.put (y := .memory) rfl hn, rfl⟩
  | tables =>
    obtain ⟨b, hb, rfl⟩ := exists_of_switch rfl h
    exact ⟨.put (y := .tables) rfl hb, rfl⟩
  | halt =>
    obtain ⟨b, hb, rfl⟩ := exists_of_switch rfl h
    exact ⟨.put (y := .halt) rfl hb, rfl⟩
  | warn =>
    obtain ⟨b, hb, rfl⟩ := exists_of_switch rfl h
    exact ⟨.put (y := .warnings) rfl hb, rfl⟩
  | pass1Errors =>
    obtain ⟨b, hb, rfl⟩ := exists_of_switch rfl h
    exact ⟨.put (y := .pass1Errors) rfl hb, rfl⟩
  | divide =>
    obtain ⟨b, hb, rfl⟩ := exists_of_switch rfl h
    exact ⟨.put (y := .divide) rfl hb, rfl⟩
  | verbose =>
    obtain ⟨b, -, rfl⟩ := exists_of_switch rfl h
    exact ⟨.of_other (Setting.ne_flag (by decide)), rfl⟩
  | help =>
    obtain ⟨b, -, rfl⟩ := exists_of_switch rfl h
    exact ⟨.of_other (Setting.ne_flag (by decide)), rfl⟩
  | noDescriptions =>
    obtain ⟨b, -, rfl⟩ := exists_of_switch rfl h
    exact ⟨.of_other (Setting.ne_flag (by decide)), rfl⟩

theorem assigns_set (h : c.set flag value = .ok c') :
    Assigns c.layer [(flag, value)] c'.layer ∧ c'.args = c.args := by
  rw [set] at h
  cases hassign : c.assign flag value with
  | error e =>
    rw [hassign] at h
    cases h
  | ok c₁ =>
    rw [hassign] at h
    cases h
    obtain ⟨hlayer, hargs⟩ := assigns_assign hassign
    exact ⟨hlayer, hargs⟩

/-! ## Reading arguments -/

theorem exists_of_bind {ε α β : Type} {x : Except ε α} {f : α → Except ε β} {b : β}
    (h : (x >>= f) = .ok b) : ∃ a, x = .ok a ∧ f a = .ok b := by
  cases x with
  | error e => cases h
  | ok a => exact ⟨a, rfl, h⟩

variable {flags : List Flag} {name letters : Text} {letter : Byte} {next next' : List Text}

theorem of_findName (h : findName flags name = .ok flag) : flag ∈ flags ∧ ascii flag.name = name := by
  rw [findName] at h
  split at h <;> rename_i hfind
  · cases h
    exact ⟨List.mem_of_find?_eq_some hfind,
      eq_of_beq (List.find?_some (p := fun f : Flag => ascii f.name == name) hfind)⟩
  · split at h <;> cases h

theorem of_findLetter (h : findLetter flags letters letter = .ok flag) :
    flag ∈ flags ∧ flag.letter? = some letter := by
  rw [findLetter] at h
  split at h <;> rename_i hfind
  · cases h
    exact ⟨List.mem_of_find?_eq_some hfind,
      eq_of_beq (List.find?_some (p := fun f : Flag => f.letter? == some letter) hfind)⟩
  · split at h <;> cases h

theorem assigns_of_bind (h : (do let d ← c.set flag value; pure (d, next)) = .ok (c', next')) :
    Assigns c.layer [(flag, value)] c'.layer ∧ c'.args = c.args ∧ next' = next := by
  obtain ⟨d, hd, h⟩ := exists_of_bind h
  cases h
  obtain ⟨hlayer, hargs⟩ := assigns_set hd
  exact ⟨hlayer, hargs, rfl⟩

theorem spells_of_parseName {arg body : Text} (h : parseName flags c arg body next = .ok (c', next')) :
    ∃ flag value, Assigns c.layer [(flag, value)] c'.layer ∧ c'.args = c.args ∧
      next'.length ≤ next.length ∧
      ∀ given files, ArgsSpell flags next' given files →
        ArgsSpell flags ((dash :: dash :: body) :: next) ((flag, value) :: given) files := by
  rw [parseName] at h
  split at h
  · cases h
  obtain ⟨flag, hfind, h⟩ := exists_of_bind h
  obtain ⟨hflag, hname⟩ := of_findName hfind
  have hbody : body = ascii flag.name ++ body.dropWhile (· != equals) := by
    rw [hname, List.takeWhile_append_dropWhile]
  cases hrest : body.dropWhile (· != equals) with
  | cons e value =>
    rw [hrest] at h hbody
    have he : e = equals := by
      have hhead := List.head_dropWhile_not (· != equals) (l := body) (by simp [hrest])
      simpa [hrest] using hhead
    obtain ⟨hlayer, hargs, rfl⟩ := assigns_of_bind h
    refine ⟨flag, value, hlayer, hargs, Nat.le_refl _, fun given files hspells => ?_⟩
    rw [hbody, he]
    exact .withValue hflag hspells
  | nil =>
    rw [hrest] at h
    rw [hrest, List.append_nil] at hbody
    rw [hbody]
    cases hbare : flag.bare? with
    | some value =>
      rw [hbare] at h
      obtain ⟨hlayer, hargs, rfl⟩ := assigns_of_bind h
      exact ⟨flag, value, hlayer, hargs, Nat.le_refl _, fun given files => .alone hflag hbare⟩
    | none =>
      rw [hbare] at h
      cases next with
      | nil => cases h
      | cons value next =>
        obtain ⟨hlayer, hargs, rfl⟩ := assigns_of_bind h
        exact ⟨flag, value, hlayer, hargs, Nat.le_succ _, fun given files => .withNext hflag hbare⟩

theorem spells_of_parseLetters (h : parseLetters flags letters c next = .ok (c', next')) :
    ∃ given, LettersSpell flags letters next given next' ∧ Assigns c.layer given c'.layer ∧
      c'.args = c.args ∧ next'.length ≤ next.length := by
  induction letters generalizing c with
  | nil =>
    cases h
    exact ⟨[], .nil, .nil _, rfl, Nat.le_refl _⟩
  | cons letter rest ih =>
    rw [parseLetters] at h
    by_cases htest : testStart.hasPrefix (letter :: rest) = true
    · rw [if_pos htest] at h
      cases h
      exact ⟨[], .test htest, .nil _, rfl, Nat.le_refl _⟩
    rw [if_neg htest] at h
    obtain ⟨flag, hfind, h⟩ := exists_of_bind h
    obtain ⟨hflag, hletter⟩ := of_findLetter hfind
    -- a flag that needs no value goes before the other letters
    have halone : ∀ value, flag.bare? = some value → startsValue rest = false →
        (do let d ← c.set flag value; parseLetters flags rest d next) = .ok (c', next') →
        ∃ given, LettersSpell flags (letter :: rest) next given next' ∧
          Assigns c.layer given c'.layer ∧ c'.args = c.args ∧ next'.length ≤ next.length := by
      intro value hbare hvalue h
      obtain ⟨d, hd, h⟩ := exists_of_bind h
      obtain ⟨given, hspells, hlayer, hargs, hlength⟩ := ih h
      obtain ⟨hone, hsame⟩ := assigns_set hd
      exact ⟨(flag, value) :: given, .alone hflag hletter hbare hvalue hspells, hone.trans hlayer,
        hargs.trans hsame, hlength⟩
    cases rest with
    | nil =>
      cases hbare : flag.bare? with
      | some value =>
        rw [hbare] at h
        exact halone value hbare rfl h
      | none =>
        rw [hbare] at h
        cases next with
        | nil => cases h
        | cons value next =>
          obtain ⟨hlayer, hargs, rfl⟩ := assigns_of_bind h
          exact ⟨_, .withNext hflag hletter hbare, hlayer, hargs, Nat.le_succ _⟩
    | cons e rest =>
      cases rest with
      | nil =>
        cases hbare : flag.bare? with
        | some value =>
          rw [hbare] at h
          exact halone value hbare rfl h
        | none =>
          rw [hbare] at h
          obtain ⟨hlayer, hargs, rfl⟩ := assigns_of_bind h
          exact ⟨_, .attached hflag hletter hbare (List.cons_ne_nil _ _) rfl, hlayer, hargs,
            Nat.le_refl _⟩
      | cons v value =>
        dsimp only at h
        by_cases he : (e == equals) = true
        · rw [if_pos he] at h
          obtain ⟨hlayer, hargs, rfl⟩ := assigns_of_bind h
          rw [eq_of_beq he]
          exact ⟨_, .withValue hflag hletter (List.cons_ne_nil v value), hlayer, hargs, Nat.le_refl _⟩
        · rw [if_neg he] at h
          have hvalue : startsValue (e :: v :: value) = false := Bool.eq_false_iff.mpr he
          cases hbare : flag.bare? with
          | some value' =>
            rw [hbare] at h
            exact halone value' hbare hvalue h
          | none =>
            rw [hbare] at h
            obtain ⟨hlayer, hargs, rfl⟩ := assigns_of_bind h
            exact ⟨_, .attached hflag hletter hbare (List.cons_ne_nil _ _) hvalue, hlayer, hargs,
              Nat.le_refl _⟩

theorem spells_of_parseFrom {fuel : Nat} {args : List Text} (hfuel : args.length ≤ fuel)
    (h : parseFrom flags fuel c args = .ok c') :
    ∃ given files, ArgsSpell flags args given files ∧ Assigns c.layer given c'.layer ∧
      c'.args = c.args ++ files := by
  induction fuel generalizing c args with
  | zero =>
    obtain rfl : args = [] := List.length_eq_zero_iff.mp (Nat.le_zero.mp hfuel)
    cases h
    exact ⟨[], [], .nil, .nil _, rfl⟩
  | succ fuel ih =>
    cases args with
    | nil =>
      cases h
      exact ⟨[], [], .nil, .nil _, (List.append_nil _).symm⟩
    | cons arg next =>
      have hnext : next.length ≤ fuel := Nat.le_of_succ_le_succ hfuel
      -- an argument that is no flag
      have hfile : arg.head? ≠ some dash ∨ arg.length ≤ 1 →
          parseFrom flags fuel { c with args := c.args ++ [arg] } next = .ok c' →
          ∃ given files, ArgsSpell flags (arg :: next) given files ∧ Assigns c.layer given c'.layer ∧
            c'.args = c.args ++ files := by
        intro harg h
        obtain ⟨given, files, hspells, hlayer, hargs⟩ := ih hnext h
        exact ⟨given, arg :: files, .file harg hspells, hlayer, by simp [hargs]⟩
      cases arg with
      | nil => exact hfile (.inl nofun) h
      | cons a rest =>
        cases rest with
        | nil => exact hfile (.inr (Nat.le_refl _)) h
        | cons b rest =>
          rw [parseFrom] at h
          by_cases ha : (a != dash) = true
          · rw [if_pos ha] at h
            exact hfile (.inl (by simpa using ha)) h
          rw [if_neg ha] at h
          obtain rfl : a = dash := by simpa using ha
          by_cases hb : (b == dash) = true
          · obtain rfl := eq_of_beq hb
            rw [if_pos hb] at h
            by_cases hrest : rest.isEmpty = true
            · rw [if_pos hrest] at h
              obtain rfl := List.isEmpty_iff.mp hrest
              cases h
              exact ⟨[], next, .stop, .nil _, rfl⟩
            · rw [if_neg hrest] at h
              obtain ⟨⟨d, next'⟩, hname, h⟩ := exists_of_bind h
              obtain ⟨flag, value, hone, hsame, hlength, hspells⟩ := spells_of_parseName hname
              obtain ⟨given, files, hmore, hlayer, hargs⟩ := ih (Nat.le_trans hlength hnext) h
              exact ⟨(flag, value) :: given, files, hspells given files hmore, hone.trans hlayer,
                by rw [hargs, hsame]⟩
          · rw [if_neg hb] at h
            obtain ⟨⟨d, next'⟩, hletters, h⟩ := exists_of_bind h
            obtain ⟨given, hspells, hone, hsame, hlength⟩ := spells_of_parseLetters hletters
            obtain ⟨given', files, hmore, hlayer, hargs⟩ := ih (Nat.le_trans hlength hnext) h
            exact ⟨given ++ given', files, .letters (by simpa using hb) hspells hmore,
              hone.trans hlayer, by rw [hargs, hsame]⟩

/-- **The arguments of a run spell flags and files**, and the layer of the command line has what the
last value for each setting says. -/
theorem spells_of_parse {args : List Text} (h : parse flags args = .ok c) :
    ∃ given, ArgsSpell flags args given c.args ∧
      ∀ x, c.layer.get? x = (lastGiven x.flagGives? given).or (x.blank? given) := by
  obtain ⟨given, files, hspells, hlayer, hargs⟩ := spells_of_parseFrom (Nat.le_refl _) h
  rw [List.nil_append] at hargs
  refine ⟨given, hargs ▸ hspells, fun x => ?_⟩
  rw [hlayer x, Layer.get?_empty, Option.or_none]

end CommandLine

end SpsAssembler
