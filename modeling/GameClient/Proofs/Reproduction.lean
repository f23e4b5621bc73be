import GameClient.Proofs.Masking
import GameClient.Proofs.Outcome
import GameClient.Proofs.Reordering
import GameClient.Settings.Basic
/-!
Settings written as arguments. What a client starts with can be asked for again with one option for each setting, and
then no variable of the environment has a say any more. The units that do so speak of seven different things, so their
order is free; what can get in the way is a text that is taken for an option, a server that is not its own normal form
and a size in a variable that is not in order.
-/

namespace GameClient

open Text

namespace Settings

/-- The arguments that ask for the settings, none of them left to the environment. -/
def arguments (settings : Settings) : List String :=
  ["--server", settings.server, "--path", settings.path, "--width", number settings.width,
    "--height", number settings.height, "--title", settings.title] ++
  (if settings.fullscreen then ["--fullscreen"] else []) ++
  (if settings.showMenu then [] else ["--no-menu"])

/-- The value of a setting as it is written behind its option. -/
def valueText (settings : Settings) : Setting → String
  | .server => settings.server
  | .path => settings.path
  | .width => number settings.width
  | .height => number settings.height
  | .title => settings.title

/-- The units of the arguments. -/
def units (settings : Settings) : List Argument :=
  (Setting.all.map fun setting => .option setting (some (settings.valueText setting))) ++
  (if settings.fullscreen then [.single "--fullscreen"] else []) ++
  (if settings.showMenu then [] else [.single "--no-menu"])

theorem mem_units_iff {settings : Settings} {unit : Argument} :
    unit ∈ settings.units ↔
      (∃ setting, unit = .option setting (some (settings.valueText setting))) ∨
      (settings.fullscreen = true ∧ unit = .single "--fullscreen") ∨
      (settings.showMenu = false ∧ unit = .single "--no-menu") := by
  have every : ∀ setting : Setting, setting ∈ Setting.all := by
    intro setting
    cases setting <;> decide
  cases full : settings.fullscreen <;> cases shown : settings.showMenu <;>
    simp [units, full, shown, every, eq_comm]

theorem flatMap_tokens_units (settings : Settings) :
    settings.units.flatMap Argument.tokens = settings.arguments := by
  cases full : settings.fullscreen <;> cases shown : settings.showMenu <;>
    simp [units, arguments, full, shown, Argument.tokens, Setting.all, Setting.flag, valueText]

/-- The arguments are cut into the units, whatever the texts in them are. -/
theorem ofTokens_arguments (settings : Settings) : Argument.ofTokens settings.arguments = settings.units := by
  rw [← flatMap_tokens_units]
  apply Argument.ofTokens_flatMap_tokens
  intro unit member
  rcases mem_units_iff.mp member with ⟨setting, rfl⟩ | ⟨_, rfl⟩ | ⟨_, rfl⟩
  · rfl
  · decide
  · decide

end Settings

/-! ### Texts that can be values -/

theorem isFlagLike_eq_false_of_head {token : String} {c : Char} {rest : List Char}
    (shape : token.toList = c :: rest) (noHyphen : c ≠ '-') : isFlagLike token = false := by
  simp [isFlagLike, shape, List.isPrefixOf, noHyphen.symm]

/-- The numeral of a size is read again as that size. -/
theorem readDimension_number {n : Nat} (extent : IsExtent n) :
    readDimension (Settings.number n) = some n := by
  have digits : ∀ c ∈ Numeral.write n, c.isDigit = true := fun _ => Numeral.isDigit_of_mem_write
  have visible : ∀ c ∈ Numeral.write n, isBlank c = false := by
    intro c member
    apply Address.isBlank_eq_false_of_isAlphanum
    simp [Char.isAlphanum, digits c member]
  have same : trim (Settings.number n).toList = [] ++ Numeral.write n := by
    rw [Settings.number, String.toList_ofList, trim_eq_self visible, List.nil_append]
  exact readDimension_eq_some_iff.mpr
    ⟨[], _, same, Or.inl rfl, Numeral.write_ne_nil n, digits, Nat.ofDigitChars_ten_toDigits, extent⟩

theorem isFlagLike_number (n : Nat) : isFlagLike (Settings.number n) = false := by
  obtain ⟨c, rest, shape⟩ := List.exists_cons_of_ne_nil (Numeral.write_ne_nil n)
  have same : (Settings.number n).toList = c :: rest := by
    rw [Settings.number, String.toList_ofList, shape]
  refine isFlagLike_eq_false_of_head same ?_
  rintro rfl
  have digit : ('-').isDigit = true := Numeral.isDigit_of_mem_write (n := n) (by simp [shape])
  exact absurd digit (by decide)

theorem Address.isFlagLike_toString (address : Address) : isFlagLike address.toString = false := by
  have first : ∃ rest, address.toString.toList = 'h' :: rest := by
    rw [Address.toString, String.toList_ofList, Address.text]
    cases address.scheme <;> exact ⟨_, rfl⟩
  obtain ⟨rest, shape⟩ := first
  exact isFlagLike_eq_false_of_head shape (by decide)

theorem orIfBlank_orIfBlank (text other : String) :
    orIfBlank (orIfBlank text other) other = orIfBlank text other := by
  unfold orIfBlank
  cases blank : allBlank text <;> simp [blank]

/-! ### Settling backwards -/

namespace Draft

/-- A draft settles into everything that it becomes. -/
theorem Becomes.settle_eq {draft : Draft} {settings : Settings} (h : draft.Becomes settings) :
    draft.settle = .ready settings := by
  obtain ⟨clean, ⟨address, found, server⟩, path, width, height, title, fullscreen, showMenu⟩ := h
  have width_pos : 0 < draft.width := width ▸ settings.width_pos
  have height_pos : 0 < draft.height := height ▸ settings.height_pos
  simp only [settle, found, if_pos clean, Settings.create, dif_pos width_pos, dif_pos height_pos,
    Outcome.ready.injEq]
  cases settings
  simp_all

end Draft

/-- The client starts with the settings exactly if help is not asked for and the draft becomes them. -/
theorem resolve_eq_ready_iff {args : List String} {env : Environment} {settings : Settings} :
    resolve args env = .ready settings ↔
      resolve args env ≠ .help ∧ ((Draft.ofEnvironment env).scan args).Becomes settings := by
  constructor
  · intro ready
    exact ⟨by simp [ready], becomes_of_resolve ready⟩
  · rintro ⟨noHelp, becomes⟩
    rw [resolve_eq_settle noHelp, becomes.settle_eq]

/-! ### What the units give -/

namespace Settings

variable {settings : Settings} {setting : Setting}

theorem filterMap_valueFor_units (accepted : isFlagLike (settings.valueText setting) = false) :
    settings.units.filterMap (Argument.valueFor setting) = [settings.valueText setting] := by
  cases setting <;> cases full : settings.fullscreen <;> cases shown : settings.showMenu <;>
    simp_all [units, Setting.all, Argument.valueFor]

theorem filterMap_dimensionFor_units {n : Nat} (size : settings.valueText setting = number n)
    (extent : IsExtent n) : settings.units.filterMap (Argument.dimensionFor setting) = [n] := by
  have accepted : isFlagLike (settings.valueText setting) = false := size ▸ isFlagLike_number n
  have read : readDimension (settings.valueText setting) = some n := size ▸ readDimension_number extent
  have values := filterMap_valueFor_units accepted
  calc settings.units.filterMap (Argument.dimensionFor setting)
      = (settings.units.filterMap (Argument.valueFor setting)).filterMap readDimension :=
        List.filterMap_filterMap.symm
    _ = [n] := by simp [values, read]

theorem filterMap_startMode_units (settings : Settings) :
    settings.units.filterMap Argument.startMode = if settings.fullscreen then [true] else [] := by
  cases full : settings.fullscreen <;> cases shown : settings.showMenu <;>
    simp [units, Setting.all, full, shown, Argument.startMode]

theorem hidesMenu_units (settings : Settings) :
    (∃ unit ∈ settings.units, unit.HidesMenu) ↔ settings.showMenu = false := by
  simp [mem_units_iff, Argument.HidesMenu]

theorem not_asksForHelp_units (settings : Settings) : ∀ unit ∈ settings.units, ¬ unit.AsksForHelp := by
  intro unit member
  rcases mem_units_iff.mp member with ⟨setting, rfl⟩ | ⟨_, rfl⟩ | ⟨_, rfl⟩
  · simp
  · decide
  · decide

end Settings

/-! ### Reading the units -/

namespace Draft

/-- A field that no more than one of the units sets ends with what that unit says, in whatever order the units
stand. -/
theorem scan_of_perm {α : Type} (field : Draft → α) (given : Argument → Option α)
    (step : ∀ draft argument, field (draft.after argument) = (given argument).getD (field draft))
    {args : List String} {units : List Argument} (perm : (Argument.ofTokens args).Perm units)
    (value : Option α) (only : units.filterMap given = value.toList) (draft : Draft) :
    field (draft.scan args) = value.getD (field draft) := by
  have moved : ((Argument.ofTokens args).filterMap given).Perm value.toList :=
    only ▸ perm.filterMap given
  rw [scan_of_getD field given step]
  -- A list of at most one value has no other order.
  cases value with
  | none =>
      rw [List.perm_nil.mp moved]
      rfl
  | some value =>
      rw [List.perm_singleton.mp moved]
      rfl

end Draft

namespace Settings

variable {settings : Settings} {args : List String} (perm : (Argument.ofTokens args).Perm settings.units)
include perm

/-- A text ends as the one of the settings, if it is not taken for an option. -/
theorem scan_text_eq (setting : Setting) (field : Draft → String)
    (step : ∀ draft argument, field (Draft.after draft argument) =
      (Argument.valueFor setting argument).getD (field draft))
    (accepted : isFlagLike (settings.valueText setting) = false) (draft : Draft) :
    field (draft.scan args) = settings.valueText setting :=
  Draft.scan_of_perm field _ step perm (some _) (filterMap_valueFor_units accepted) draft

theorem scan_size_eq (setting : Setting) (field : Draft → Nat)
    (step : ∀ draft argument, field (Draft.after draft argument) =
      (Argument.dimensionFor setting argument).getD (field draft))
    {n : Nat} (size : settings.valueText setting = number n) (extent : IsExtent n) (draft : Draft) :
    field (draft.scan args) = n :=
  Draft.scan_of_perm field _ step perm (some n) (filterMap_dimensionFor_units size extent) draft

end Settings

/-- What holds of all settings that a client starts with: their server and their size can be written behind options,
and there is nothing blank left for a default to replace. -/
structure Settings.Writable (settings : Settings) : Prop where
  server : isFlagLike settings.server = false
  width : IsExtent settings.width
  height : IsExtent settings.height
  path : orIfBlank settings.path Settings.defaultPath = settings.path
  title : orIfBlank settings.title Settings.defaultTitle = settings.title

theorem writable_of_resolve {args : List String} {env : Environment} {settings : Settings}
    (h : resolve args env = .ready settings) : settings.Writable := by
  have range : ((Draft.ofEnvironment env).scan args).InRange := (Draft.inRange_ofEnvironment env).scan args
  obtain ⟨_, ⟨address, _, server⟩, path, width, height, title, _, _⟩ := becomes_of_resolve h
  exact
    { server := by rw [server]; exact address.isFlagLike_toString
      width := by rw [width]; exact range.width
      height := by rw [height]; exact range.height
      path := by rw [path, orIfBlank_orIfBlank]
      title := by rw [title, orIfBlank_orIfBlank] }

namespace Settings.Writable

variable {settings : Settings} (writable : settings.Writable)
include writable

/-- Nothing is wrong with the units as long as the path and the title are not taken for options. -/
theorem clean_units_iff :
    (∀ unit ∈ settings.units, unit.problem = none) ↔
      isFlagLike settings.path = false ∧ isFlagLike settings.title = false := by
  have width : IsDimension (number settings.width) :=
    ⟨_, readDimension_eq_some_iff.mp (readDimension_number writable.width)⟩
  have height : IsDimension (number settings.height) :=
    ⟨_, readDimension_eq_some_iff.mp (readDimension_number writable.height)⟩
  have option : ∀ setting, (Argument.option setting (some (settings.valueText setting))).problem = none ↔
      isFlagLike (settings.valueText setting) = false := by
    intro setting
    by_cases flagLike : isFlagLike (settings.valueText setting) = true
    · simp [Argument.problem, flagLike]
    · cases setting <;> simp_all [Argument.problem, Argument.dimensionLabel, valueText]
  constructor
  · intro clean
    have option_clean := fun setting => (option setting).mp (clean _ (mem_units_iff.mpr (Or.inl ⟨setting, rfl⟩)))
    exact ⟨option_clean .path, option_clean .title⟩
  · rintro ⟨path, title⟩ unit member
    rcases mem_units_iff.mp member with ⟨setting, rfl⟩ | ⟨_, rfl⟩ | ⟨_, rfl⟩
    · rw [option]
      cases setting with
      | server => exact writable.server
      | path => exact path
      | title => exact title
      | width | height => exact isFlagLike_number _
    · decide
    · decide

variable {args : List String} (perm : (Argument.ofTokens args).Perm settings.units)
include perm

/-- The units make the settings, from the draft of any environment with which nothing is wrong. -/
theorem becomes_scan (path : isFlagLike settings.path = false) (title : isFlagLike settings.title = false)
    (server : Address.normalText settings.server = .ok settings.server) {env : Environment}
    (clean : (Draft.ofEnvironment env).problems = []) :
    ((Draft.ofEnvironment env).scan args).Becomes settings where
  clean := by
    have units : ∀ argument ∈ Argument.ofTokens args, argument.problem = none := fun argument member =>
      writable.clean_units_iff.mpr ⟨path, title⟩ argument (perm.mem_iff.mp member)
    rw [Draft.scan_problems, clean, List.nil_append]
    exact List.filterMap_eq_nil_iff.mpr units
  server := by
    rw [scan_text_eq perm .server Draft.server (fun _ _ => rfl) writable.server]
    exact Address.normalText_eq_ok_iff.mp server
  path := by
    rw [scan_text_eq perm .path Draft.path (fun _ _ => rfl) path]
    exact writable.path.symm
  width := (scan_size_eq perm .width Draft.width (fun _ _ => rfl) rfl writable.width _).symm
  height := (scan_size_eq perm .height Draft.height (fun _ _ => rfl) rfl writable.height _).symm
  title := by
    rw [scan_text_eq perm .title Draft.title (fun _ _ => rfl) title]
    exact writable.title.symm
  fullscreen := by
    have mode : settings.units.filterMap Argument.startMode =
        (if settings.fullscreen then some true else none).toList := by
      rw [filterMap_startMode_units]
      split <;> rfl
    rw [Draft.scan_of_perm Draft.fullscreen Argument.startMode (fun _ _ => rfl) perm _ mode]
    cases settings.fullscreen <;> rfl
  showMenu := by
    have hidden := hidesMenu_units settings
    rw [Bool.eq_iff_iff, Draft.scan_showMenu, ← Bool.not_eq_false, ← hidden]
    simp [Draft.ofEnvironment, perm.mem_iff]

/-- Whatever the order of the units, the client starts with the settings exactly if nothing gets in their way. -/
theorem resolve_of_perm_iff (env : Environment) :
    resolve args env = .ready settings ↔
      isFlagLike settings.path = false ∧ isFlagLike settings.title = false ∧
        Address.normalText settings.server = .ok settings.server ∧
        ∀ size : Setting, size = .width ∨ size = .height →
          ∀ given, env size.envName = some given → IsDimension given := by
  constructor
  · intro ready
    obtain ⟨width, height, units⟩ := clean_of_resolve ready
    obtain ⟨path, title⟩ := writable.clean_units_iff.mp fun unit member => units unit (perm.mem_iff.mpr member)
    obtain ⟨address, found, same⟩ := (becomes_of_resolve ready).server
    rw [scan_text_eq perm .server Draft.server (fun _ _ => rfl) writable.server] at found
    refine ⟨path, title, ?_, ?_⟩
    · exact Address.normalText_eq_ok_iff.mpr ⟨address, found, same⟩
    · rintro size (rfl | rfl)
      · exact environmentProblem_eq_none_iff.mp width
      · exact environmentProblem_eq_none_iff.mp height
  · rintro ⟨path, title, server, sizes⟩
    have width := environmentProblem_eq_none_iff.mpr (sizes .width (Or.inl rfl))
    have height := environmentProblem_eq_none_iff.mpr (sizes .height (Or.inr rfl))
    have clean : (Draft.ofEnvironment env).problems = [] := by
      rw [Draft.problems_ofEnvironment, width, height]
      rfl
    have noHelp : ∀ argument ∈ Argument.ofTokens args, ¬ argument.AsksForHelp := fun argument member =>
      not_asksForHelp_units settings argument (perm.mem_iff.mp member)
    exact resolve_eq_ready_iff.mpr
      ⟨resolve_ne_help_iff.mpr noHelp, writable.becomes_scan perm path title server clean⟩

end Settings.Writable

/-- What a client starts with can be asked for again: the arguments written for the settings bring them back whatever
the environment is, exactly if the path and the title are not taken for options, the server is its own normal form
and each of the two variables for the size is in order or not set. The order of the options does not matter. -/
theorem resolve_arguments_iff {args : List String} {env : Environment} {settings : Settings}
    (h : resolve args env = .ready settings) (other : Environment) :
    (resolve settings.arguments other = .ready settings ↔
      isFlagLike settings.path = false ∧ isFlagLike settings.title = false ∧
        Address.normalText settings.server = .ok settings.server ∧
        ∀ size : Setting, size = .width ∨ size = .height →
          ∀ given, other size.envName = some given → IsDimension given) ∧
    ∀ again, (Argument.ofTokens again).Perm (Argument.ofTokens settings.arguments) →
      (resolve again other = .ready settings ↔ resolve settings.arguments other = .ready settings) := by
  have writable := writable_of_resolve h
  have units := settings.ofTokens_arguments
  have here := writable.resolve_of_perm_iff (.of_eq units) other
  refine ⟨here, fun again perm => ?_⟩
  rw [here]
  exact writable.resolve_of_perm_iff (perm.trans (.of_eq units)) other

/-- With every other variable set to two hyphens the settings come back, and also from the options in another order. A
path that starts with two hyphens comes from its variable and from nothing else. -/
theorem resolve_arguments_iff_of_hyphens :
    ∃ args env settings other again env' settings', resolve args env = .ready settings ∧
      settings.arguments =
        ["--server", "http://[::1]:80/x", "--path", " --p", "--width", "1280", "--height", "7", "--title",
          " -h", "--fullscreen", "--no-menu"] ∧
      other Setting.server.envName = some "--" ∧ other Setting.width.envName = some "\t+1 " ∧
      resolve settings.arguments other = .ready settings ∧
      again =
        ["--no-menu", "--title", " -h", "--height", "7", "--fullscreen", "--width", "1280", "--path",
          " --p", "--server", "http://[::1]:80/x"] ∧
      resolve again other = .ready settings ∧
      resolve [] env' = .ready settings' ∧ settings'.path = "--p" ∧
      resolve settings'.arguments env' ≠ .ready settings' := by
  let args := ["--title", " -h", "--server", "[::1]:0080/x/", "--height", " +007", "--no-menu", "--fullscreen"]
  let env : Environment := fun name => if name = Setting.path.envName then some " --p" else none
  let settings : Settings :=
    ⟨"http://[::1]:80/x", " --p", 1280, 7, " -h", true, false, by decide, by decide⟩
  let other : Environment := fun name =>
    if name = Setting.width.envName ∨ name = Setting.height.envName then some "\t+1 " else some "--"
  let again := ["--no-menu", "--title", " -h", "--height", "7", "--fullscreen", "--width", "1280",
    "--path", " --p", "--server", "http://[::1]:80/x"]
  let env' : Environment := fun name => if name = Setting.path.envName then some "--p" else none
  let settings' : Settings :=
    ⟨"http://localhost:3000", "--p", 1280, 720, "FlappyBingus", false, true, by decide, by decide⟩
  have ready : resolve args env = .ready settings := by decide
  have ready' : resolve [] env' = .ready settings' := by decide
  have sizes : ∀ size : Setting, size = .width ∨ size = .height →
      ∀ given, other size.envName = some given → IsDimension given := by
    rintro size (rfl | rfl) given ⟨⟩ <;> decide
  obtain ⟨here, anyOrder⟩ := resolve_arguments_iff ready other
  have repeated := here.mpr ⟨by decide, by decide, by decide, sizes⟩
  refine ⟨args, env, settings, other, again, env', settings', ready, by decide, by decide, by decide, repeated, rfl,
    (anyOrder again (by decide)).mpr repeated, ready', rfl, ?_⟩
  intro repeated'
  have path := ((resolve_arguments_iff ready' env').1.mp repeated').1
  exact absurd path (by decide)

end GameClient
