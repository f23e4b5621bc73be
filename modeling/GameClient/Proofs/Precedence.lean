import Mathlib.Data.List.Basic
import Mathlib.Data.List.TakeWhile
import GameClient.Proofs.Blank
import GameClient.Proofs.Refusal
/-!
Where the settings of a client come from. A unit in order gives its value to a setting, the last such value
counts, and behind it stand the variable and the default. This is followed through the scan for every field
of the draft, and then through what the draft settles into.
-/

namespace GameClient

open Text

theorem orIfBlank_eq (text other : String) :
    orIfBlank text other = if trim text.toList = [] then other else text := by
  unfold orIfBlank allBlank
  simp only [List.all_eq_true, trim_eq_nil_iff]

namespace Argument

/-- The unit says how the window starts. -/
def SetsMode (argument : Argument) : Prop :=
  argument = .single "--fullscreen" ∨ argument = .single "--windowed"

instance : DecidablePred SetsMode := fun _ => inferInstanceAs (Decidable (_ ∨ _))

theorem startMode_eq (argument : Argument) :
    argument.startMode =
      if argument.SetsMode then some (decide (argument = .single "--fullscreen")) else none := by
  unfold startMode SetsMode
  by_cases full : argument = .single "--fullscreen"
  · simp [full]
  · by_cases windowed : argument = .single "--windowed" <;> simp [full, windowed]

/-- What the window starts with is said by the last unit that says anything about it. -/
theorem getLast?_startMode (arguments : List Argument) :
    (arguments.filterMap startMode).getLast?.getD false = true ↔
      (arguments.filter SetsMode).getLast? = some (.single "--fullscreen") := by
  have modes : arguments.filterMap startMode =
      (arguments.filter SetsMode).map fun argument => decide (argument = .single "--fullscreen") := by
    rw [← List.filterMap_eq_map, List.filterMap_filter]
    congr 1
    funext argument
    simp [startMode_eq]
  rw [modes, List.getLast?_map]
  cases (arguments.filter SetsMode).getLast? <;> simp

section Clean

variable {setting : Setting} {argument : Argument}

theorem valueFor_eq_some_iff {value : String} :
    argument.valueFor setting = some value ↔
      argument = .option setting (some value) ∧ isFlagLike value = false := by
  cases argument with
  | single token => simp
  | option given text =>
      cases text with
      | none => simp
      | some text =>
          simp only [valueFor, Option.ite_none_right_eq_some, Option.some.injEq, option.injEq]
          constructor
          · rintro ⟨⟨same, plain⟩, rfl⟩
            exact ⟨⟨same, rfl⟩, plain⟩
          · rintro ⟨⟨same, rfl⟩, plain⟩
            exact ⟨⟨same, plain⟩, rfl⟩

/-- The width or height after a unit in order is the one that the last text until then writes. -/
theorem readDimension_getD (clean : argument.problem = none)
    (sized : (dimensionLabel setting).isSome = true) {text : String} {n : Nat}
    (h : readDimension text = some n) :
    readDimension ((argument.valueFor setting).getD text) =
      some ((argument.dimensionFor setting).getD n) := by
  rw [dimensionFor]
  cases given : argument.valueFor setting with
  | none => simpa using h
  | some value =>
      obtain ⟨rfl, plain⟩ := valueFor_eq_some_iff.mp given
      obtain ⟨label, labelled⟩ := Option.isSome_iff_exists.mp sized
      have isDimension : IsDimension value := by
        by_contra wrong
        simp [problem, plain, labelled, wrong] at clean
      obtain ⟨m, read⟩ := Option.isSome_iff_exists.mp (readDimension_isSome_iff.mpr isDimension)
      simp [read]

end Clean

end Argument

namespace Settings

/-- What is created holds just what was given. -/
theorem fields_of_create {server path title : String} {width height : Nat}
    {fullscreen showMenu : Bool} {settings : Settings}
    (h : create server path width height title fullscreen showMenu = .ok settings) :
    settings.server = server ∧ settings.path = path ∧ settings.width = width ∧
      settings.height = height ∧ settings.title = title ∧ settings.fullscreen = fullscreen ∧
      settings.showMenu = showMenu := by
  unfold create at h
  split at h
  · split at h
    · cases h
      exact ⟨rfl, rfl, rfl, rfl, rfl, rfl, rfl⟩
    · simp at h
  · simp at h

end Settings

namespace Draft

/-- Among units in order, a width or height stays the one that the last text for it writes. -/
theorem readDimension_foldl {setting : Setting} {field : Draft → Nat}
    (sized : (Argument.dimensionLabel setting).isSome = true)
    (step : ∀ (draft : Draft) (argument : Argument),
      field (draft.after argument) = (argument.dimensionFor setting).getD (field draft))
    {arguments : List Argument} (clean : ∀ argument ∈ arguments, argument.problem = none)
    {draft : Draft} {text : String} (h : readDimension text = some (field draft)) :
    readDimension ((arguments.filterMap (Argument.valueFor setting)).getLast?.getD text) =
      some (field (arguments.foldl take draft)) := by
  induction arguments generalizing draft text with
  | nil => exact h
  | cons argument rest ih =>
      -- The text so far writes the number so far, and so it does after one unit more.
      have here : readDimension ((argument.valueFor setting).getD text) =
          some (field (draft.take argument)) := by
        rw [take_eq_after, step]
        exact Argument.readDimension_getD (clean argument (by simp)) sized h
      have later := ih (fun other member => clean other (by simp [member])) here
      rw [List.foldl_cons, ← later]
      cases given : argument.valueFor setting with
      | none => simp [given]
      | some value => simp [given, List.getLast?_cons]

/-- The settings are what the draft says, and nothing was wrong with it. -/
structure Becomes (draft : Draft) (settings : Settings) : Prop where
  clean : draft.problems = []
  server : ∃ address, Address.normalize draft.server = .ok address ∧
    settings.server = address.toString
  path : settings.path = orIfBlank draft.path Settings.defaultPath
  width : settings.width = draft.width
  height : settings.height = draft.height
  title : settings.title = orIfBlank draft.title Settings.defaultTitle
  fullscreen : settings.fullscreen = draft.fullscreen
  showMenu : settings.showMenu = draft.showMenu

theorem becomes_of_settle {draft : Draft} {settings : Settings}
    (h : draft.settle = .ready settings) : draft.Becomes settings := by
  unfold settle at h
  cases found : Address.normalize draft.server with
  | error error => simp [found] at h
  | ok address =>
      by_cases clean : draft.problems = []
      · simp only [found, if_pos clean] at h
        split at h
        · next made created =>
            cases h
            obtain ⟨server, path, width, height, title, fullscreen, showMenu⟩ :=
              Settings.fields_of_create created
            exact ⟨clean, ⟨address, found, server⟩, path, width, height, title, fullscreen, showMenu⟩
        · simp at h
      · simp [found, clean] at h

end Draft

/-- A client that starts has settled a draft that wants no help. -/
theorem becomes_of_resolve {args : List String} {env : Environment} {settings : Settings}
    (h : resolve args env = .ready settings) :
    ((Draft.ofEnvironment env).scan args).Becomes settings := by
  unfold resolve at h
  cases help : ((Draft.ofEnvironment env).scan args).help with
  | true => simp [help] at h
  | false => exact Draft.becomes_of_settle (by simpa [help] using h)

/-- If a client starts, nothing was wrong with the two variables or with any unit. -/
theorem clean_of_resolve {args : List String} {env : Environment} {settings : Settings}
    (h : resolve args env = .ready settings) :
    environmentProblem env .width = none ∧ environmentProblem env .height = none ∧
      ∀ argument ∈ Argument.ofTokens args, argument.problem = none := by
  have clean := (becomes_of_resolve h).clean
  rw [Draft.scan_problems, List.append_eq_nil_iff, List.filterMap_eq_nil_iff] at clean
  obtain ⟨ofVariables, ofUnits⟩ := clean
  simp only [Draft.ofEnvironment, Draft.dimension_problems, List.append_eq_nil_iff,
    Option.toList_eq_nil_iff] at ofVariables
  exact ⟨ofVariables.1, ofVariables.2, ofUnits⟩

namespace Draft

/-- A variable in order gives the width or height that it writes, and the default if it is not set. -/
theorem readDimension_dimension {env : Environment} {setting : Setting} {default : String} {n : Nat}
    (clean : environmentProblem env setting = none) (h : readDimension default = some n) :
    readDimension ((env setting.envName).getD default) = some (dimension env setting n).1 := by
  unfold dimension
  unfold environmentProblem at clean
  cases found : env setting.envName with
  | none => simpa using h
  | some given =>
      have isDimension : IsDimension given := by
        by_contra wrong
        simp [found, wrong] at clean
      obtain ⟨m, read⟩ := Option.isSome_iff_exists.mp (readDimension_isSome_iff.mpr isDimension)
      simp [read]

variable {args : List String} {env : Environment} {setting : Setting}

/-- A text ends as the effective one. -/
theorem scan_eq_effectiveText (field : Draft → String)
    (step : ∀ (draft : Draft) (argument : Argument),
      field (draft.after argument) = (argument.valueFor setting).getD (field draft))
    (start : field (ofEnvironment env) = (env setting.envName).getD setting.defaultText) :
    field ((ofEnvironment env).scan args) = effectiveText setting args env := by
  rw [scan_of_getD field _ step, start, effectiveText]

/-- Among units in order, a width or height ends as the one that the effective text writes. -/
theorem writesDimension_effectiveText (field : Draft → Nat)
    (clean : ∀ argument ∈ Argument.ofTokens args, argument.problem = none)
    (sized : (Argument.dimensionLabel setting).isSome = true)
    (step : ∀ (draft : Draft) (argument : Argument),
      field (draft.after argument) = (argument.dimensionFor setting).getD (field draft))
    (start : readDimension ((env setting.envName).getD (setting.defaultText)) =
      some (field (ofEnvironment env))) :
    WritesDimension (effectiveText setting args env) (field ((ofEnvironment env).scan args)) := by
  rw [← readDimension_eq_some_iff, scan_eq_foldl, effectiveText]
  exact readDimension_foldl sized step clean start

end Draft

/-- What a client starts with. Each text comes from the last unit for its option, or else from the
variable, or else is the default; a blank path or title gives way to the default and to nothing else. -/
theorem settings_of_resolve {args : List String} {env : Environment} {settings : Settings}
    (h : resolve args env = .ready settings) :
    (∃ address, Address.normalize (effectiveText .server args env) = .ok address ∧
        settings.server = address.toString) ∧
      settings.path =
        (if trim (effectiveText .path args env).toList = [] then "/" else effectiveText .path args env) ∧
      settings.title =
        (if trim (effectiveText .title args env).toList = [] then "FlappyBingus"
          else effectiveText .title args env) ∧
      WritesDimension (effectiveText .width args env) settings.width ∧
      WritesDimension (effectiveText .height args env) settings.height ∧
      (settings.fullscreen = true ↔
        ((Argument.ofTokens args).filter Argument.SetsMode).getLast? =
          some (.single "--fullscreen")) ∧
      (settings.showMenu = false ↔ .single "--no-menu" ∈ Argument.ofTokens args) := by
  have becomes := becomes_of_resolve h
  obtain ⟨width_clean, height_clean, clean⟩ := clean_of_resolve h
  refine ⟨?server, ?path, ?title, ?width, ?height, ?fullscreen, ?showMenu⟩
  case server =>
    rw [← Draft.scan_eq_effectiveText Draft.server (fun _ _ => rfl) rfl]
    exact becomes.server
  case path =>
    rw [becomes.path, orIfBlank_eq,
      Draft.scan_eq_effectiveText Draft.path (fun _ _ => rfl) rfl]
    rfl
  case title =>
    rw [becomes.title, orIfBlank_eq,
      Draft.scan_eq_effectiveText Draft.title (fun _ _ => rfl) rfl]
    rfl
  case width =>
    rw [becomes.width]
    exact Draft.writesDimension_effectiveText Draft.width clean rfl (fun _ _ => rfl)
      (Draft.readDimension_dimension width_clean (by decide))
  case height =>
    rw [becomes.height]
    exact Draft.writesDimension_effectiveText Draft.height clean rfl (fun _ _ => rfl)
      (Draft.readDimension_dimension height_clean (by decide))
  case fullscreen =>
    rw [becomes.fullscreen, ← Argument.getLast?_startMode,
      Draft.scan_of_getD Draft.fullscreen Argument.startMode fun _ _ => rfl]
    rfl
  case showMenu =>
    rw [becomes.showMenu, Bool.eq_false_iff, ne_eq, Draft.scan_showMenu]
    simp [Draft.ofEnvironment, Argument.HidesMenu]

/-- A blank title hides the title of the variable and then gives way to the default, a path keeps its white
space, and the last word on the window is `--windowed`. -/
theorem settings_of_resolve_masked :
    ∃ args env settings, resolve args env = .ready settings ∧
      effectiveText .title args env = " \t" ∧ settings.title = "FlappyBingus" ∧
      settings.path = " a" ∧ WritesDimension " +0800" settings.width ∧
      WritesDimension "600" settings.height ∧ settings.fullscreen = false ∧
      settings.showMenu = true ∧
      ∃ address, Address.normalize "https://[::1]:80/x/" = .ok address ∧
        settings.server = address.toString := by
  let args := ["--title", "-h", "--path", "b", "--fullscreen", "--server", "ftp://a", "--title", " \t",
    "--windowed", "--path", " a", "--width", "1", "--width", " +0800", "--server",
    "https://[::1]:80/x/"]
  let env : Environment := fun name =>
    if name = "FLAPPYBINGUS_CLIENT_HEIGHT" then some "600"
    else if name = "FLAPPYBINGUS_CLIENT_TITLE" then some "Mine" else none
  let settings : Settings :=
    ⟨"https://[::1]:80/x", " a", 800, 600, "FlappyBingus", false, true, by decide, by decide⟩
  have ready : resolve args env = .ready settings := by decide
  have blank : effectiveText .title args env = " \t" := by decide
  obtain ⟨server, path, title, width, height, fullscreen, showMenu⟩ := settings_of_resolve ready
  refine ⟨args, env, settings, ready, blank, ?_, ?_, width, height, ?_, ?_, server⟩
  · rw [title, blank]
    rfl
  · rw [path]
    decide
  · rw [Bool.eq_false_iff, ne_eq, fullscreen]
    decide
  · rw [← Bool.not_eq_false, showMenu]
    decide

end GameClient
