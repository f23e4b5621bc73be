import GameClient.Proofs.Dimension
/-!
The arguments as a sequence of units. `Argument.ofTokens` cuts the tokens into units once and for all;
scanning is then one step for each unit, and what each step does to the draft is said here, field by
field, for single steps and for whole scans.
-/

namespace GameClient

/-- One unit of the arguments. -/
inductive Argument where
  /-- An option that takes a value, and the token after it if there is one, whatever that token is. -/
  | option (setting : Setting) (value : Option String)
  /-- Any other token. -/
  | single (token : String)
deriving Repr, DecidableEq

namespace Setting

theorem ofFlag?_flag (setting : Setting) : ofFlag? setting.flag = some setting := by
  cases setting <;> decide

theorem flag_of_ofFlag? {token : String} {setting : Setting}
    (h : ofFlag? token = some setting) : setting.flag = token := by
  have found := List.find?_some h
  simpa using found

/-- A token takes a value exactly when it is the flag of a setting. -/
theorem ofFlag?_eq_some_iff {token : String} {setting : Setting} :
    ofFlag? token = some setting ↔ token = setting.flag := by
  constructor
  · intro h
    exact (flag_of_ofFlag? h).symm
  · intro same
    rw [same]
    exact ofFlag?_flag setting

theorem ofFlag?_eq_none_iff {token : String} :
    ofFlag? token = none ↔ ∀ setting : Setting, token ≠ setting.flag := by
  simp only [Option.eq_none_iff_forall_ne_some, ne_eq, ofFlag?_eq_some_iff]

end Setting

namespace Switch

/-- The tokens that mean something without a value. -/
def tokens : List String :=
  ["-h", "--help", "--fullscreen", "--windowed", "--no-menu"]

theorem mem_names_of_ofToken? {token : String} {switch : Switch}
    (h : ofToken? token = some switch) : token ∈ switch.names := by
  have found := List.find?_some h
  simpa using found

theorem names_subset_tokens (switch : Switch) : switch.names ⊆ tokens := by
  cases switch <;> decide

/-- A token is a switch exactly when it is one of `tokens`. -/
theorem ofToken?_eq_none_iff {token : String} : ofToken? token = none ↔ token ∉ tokens := by
  constructor
  · intro h member
    have every : ∀ known ∈ tokens, ofToken? known ≠ none := by decide
    exact every token member h
  · intro unknown
    cases found : ofToken? token with
    | none => rfl
    | some switch =>
        exact absurd (names_subset_tokens switch (mem_names_of_ofToken? found)) unknown

end Switch

namespace Argument

/-- Cuts tokens into units, from left to right. -/
def ofTokens : List String → List Argument
  | [] => []
  | token :: rest =>
    match Setting.ofFlag? token with
    | none => .single token :: ofTokens rest
    | some setting =>
      match rest with
      | [] => [.option setting none]
      | value :: rest => .option setting (some value) :: ofTokens rest

/-- The tokens of a unit. -/
def tokens : Argument → List String
  | .option setting value => setting.flag :: value.toList
  | .single token => [token]

/-- No token is lost or moved by the cutting. -/
theorem flatMap_tokens_ofTokens (args : List String) : (ofTokens args).flatMap tokens = args := by
  fun_induction ofTokens args with
  | case1 => rfl
  | case2 token rest _ ih => simp [tokens, ih]
  | case3 token setting flag => simp [tokens, Setting.flag_of_ofFlag? flag]
  | case4 token setting flag value rest ih =>
      simp [tokens, Setting.flag_of_ofFlag? flag, ih]

/-- The unit asks for help. -/
def AsksForHelp (argument : Argument) : Prop :=
  argument = .single "-h" ∨ argument = .single "--help"

instance : DecidablePred AsksForHelp := fun _ => inferInstanceAs (Decidable (_ ∨ _))

/-- The unit hides the menu. -/
def HidesMenu (argument : Argument) : Prop :=
  argument = .single "--no-menu"

instance : DecidablePred HidesMenu := fun _ => inferInstanceAs (Decidable (_ = _))

/-- How the window starts, if the unit says so. -/
def startMode (argument : Argument) : Option Bool :=
  if argument = .single "--fullscreen" then some true
  else if argument = .single "--windowed" then some false
  else none

/-- The value that the unit gives to a setting. A value that starts with two hyphens is none. -/
def valueFor (setting : Setting) : Argument → Option String
  | .option given (some value) =>
    if given = setting ∧ isFlagLike value = false then some value else none
  | _ => none

/-- The width or height that the unit gives. -/
def dimensionFor (setting : Setting) (argument : Argument) : Option Nat :=
  (argument.valueFor setting).bind readDimension

/-- The word for a setting in a complaint about its value, if there are texts that are no value of
it. -/
def dimensionLabel : Setting → Option String
  | .width => some "Width"
  | .height => some "Height"
  | _ => none

/-- What is wrong with a unit. -/
def problem : Argument → Option Problem
  | .option setting none => some (.missingValue setting.flag)
  | .option setting (some value) =>
    if isFlagLike value then some (.missingValue setting.flag)
    else
      match dimensionLabel setting with
      | none => none
      | some label => if IsDimension value then none else some (.notPositive label)
  | .single token => if token ∈ Switch.tokens then none else some (.unknownOption token)

/-! ### A unit speaks of one thing only -/

section OneThing

variable (setting given : Setting) (value : Option String) (token : String)

@[simp] theorem valueFor_single : (single token).valueFor setting = none := rfl

@[simp] theorem dimensionFor_single : (single token).dimensionFor setting = none := rfl

@[simp] theorem valueFor_option_none : (option given none).valueFor setting = none := rfl

@[simp] theorem startMode_option : (option given value).startMode = none := by
  simp [startMode]

@[simp] theorem not_hidesMenu_option : ¬ (option given value).HidesMenu := by
  simp [HidesMenu]

@[simp] theorem not_asksForHelp_option : ¬ (option given value).AsksForHelp := by
  simp [AsksForHelp]

end OneThing

end Argument

namespace Draft

/-- Takes one unit. -/
def take (draft : Draft) : Argument → Draft
  | .single token => draft.takeSingle token
  | .option setting none => draft.report (.missingValue setting.flag)
  | .option setting (some value) => draft.takeValue setting value

/-- Scanning takes the units one after the other. -/
theorem scan_eq_foldl (draft : Draft) (args : List String) :
    draft.scan args = (Argument.ofTokens args).foldl take draft := by
  fun_induction Argument.ofTokens args generalizing draft with
  | case1 => rfl
  | case2 token rest single ih =>
      rw [scan, single]
      exact ih _
  | case3 token setting flag =>
      rw [scan, flag]
      rfl
  | case4 token setting flag value rest ih =>
      rw [scan, flag]
      exact ih _

/-- The draft after a unit, field by field, in the words of the unit. -/
def after (draft : Draft) (argument : Argument) : Draft where
  server := (argument.valueFor .server).getD draft.server
  path := (argument.valueFor .path).getD draft.path
  width := (argument.dimensionFor .width).getD draft.width
  height := (argument.dimensionFor .height).getD draft.height
  title := (argument.valueFor .title).getD draft.title
  fullscreen := argument.startMode.getD draft.fullscreen
  showMenu := draft.showMenu && !decide argument.HidesMenu
  help := draft.help || decide argument.AsksForHelp
  problems := draft.problems ++ argument.problem.toList

theorem takeSingle_eq_after (draft : Draft) (token : String) :
    draft.takeSingle token = draft.after (.single token) := by
  unfold takeSingle
  cases found : Switch.ofToken? token with
  | none =>
      have unknown : token ∉ Switch.tokens := Switch.ofToken?_eq_none_iff.mp found
      simp only [Switch.tokens, List.mem_cons, List.not_mem_nil, or_false, not_or] at unknown
      simp [after, report, Argument.startMode, Argument.HidesMenu, Argument.AsksForHelp,
        Argument.problem, Switch.tokens, unknown]
  | some switch =>
      have named : token ∈ switch.names := Switch.mem_names_of_ofToken? found
      have known : token ∈ Switch.tokens := Switch.names_subset_tokens switch named
      cases switch <;> simp only [Switch.names, List.mem_cons, List.not_mem_nil, or_false] at named
      case help =>
        rcases named with rfl | rfl <;>
          simp [toggle, after, Argument.startMode, Argument.HidesMenu, Argument.AsksForHelp,
            Argument.problem, known]
      all_goals
        subst named
        simp [toggle, after, Argument.startMode, Argument.HidesMenu, Argument.AsksForHelp,
          Argument.problem, known]

theorem takeValue_eq_after (draft : Draft) (setting : Setting) (value : String) :
    draft.takeValue setting value = draft.after (.option setting (some value)) := by
  unfold takeValue
  by_cases flagLike : isFlagLike value = true
  · simp [flagLike, report, after, Argument.valueFor, Argument.dimensionFor, Argument.problem]
  · cases setting <;> cases read : readDimension value <;>
      simp [flagLike, read, assign, report, after, Argument.valueFor, Argument.dimensionFor,
        Argument.problem, Argument.dimensionLabel, ← readDimension_isSome_iff]

/-- A unit does to the draft what its words say, and nothing else. -/
theorem take_eq_after (draft : Draft) (argument : Argument) :
    draft.take argument = draft.after argument := by
  cases argument with
  | single token => exact takeSingle_eq_after draft token
  | option setting value =>
      cases value with
      | none => simp [take, report, after, Argument.dimensionFor, Argument.problem]
      | some value => exact takeValue_eq_after draft setting value

/-! ### What a whole scan does -/

/-- A field that each unit either sets or leaves alone ends with the last value set. -/
theorem foldl_take_of_getD {α : Type} (field : Draft → α) (given : Argument → Option α)
    (step : ∀ draft argument, field (draft.take argument) = (given argument).getD (field draft))
    (arguments : List Argument) (draft : Draft) :
    field (arguments.foldl take draft) =
      (arguments.filterMap given).getLast?.getD (field draft) := by
  induction arguments generalizing draft with
  | nil => rfl
  | cons argument rest ih =>
      rw [List.foldl_cons, ih, step]
      cases value : given argument with
      | none => simp [value]
      | some value' => simp [value, List.getLast?_cons]

/-- The same, in the words of the units. -/
theorem scan_of_getD {α : Type} (field : Draft → α) (given : Argument → Option α)
    (step : ∀ draft argument, field (draft.after argument) = (given argument).getD (field draft))
    (draft : Draft) (args : List String) :
    field (draft.scan args) =
      ((Argument.ofTokens args).filterMap given).getLast?.getD (field draft) := by
  rw [scan_eq_foldl]
  exact foldl_take_of_getD field given
    (fun draft argument => by rw [take_eq_after]; exact step draft argument) _ draft

/-- What holds of a field and of every value that a unit can give it holds of the field after a scan. -/
theorem scan_keeps {α : Type} {P : α → Prop} (field : Draft → α) (given : Argument → Option α)
    (step : ∀ draft argument, field (draft.after argument) = (given argument).getD (field draft))
    (every : ∀ argument, ∀ value ∈ given argument, P value) {draft : Draft} (start : P (field draft))
    (args : List String) : P (field (draft.scan args)) := by
  rw [scan_of_getD field given step]
  cases last : ((Argument.ofTokens args).filterMap given).getLast? with
  | none => exact start
  | some value =>
      obtain ⟨argument, _, gives⟩ := List.mem_filterMap.mp (List.mem_of_getLast? last)
      exact every argument value gives

/-- What holds of every number that a text can give holds of what a unit gives. -/
theorem dimensionFor_keeps {P : Nat → Prop} (every : ∀ given, ∀ n ∈ readDimension given, P n)
    {setting : Setting} (argument : Argument) : ∀ n ∈ argument.dimensionFor setting, P n := by
  intro n gives
  obtain ⟨given, _, read⟩ := Option.bind_eq_some_iff.mp gives
  exact every given n read

/-- The server is the value of the last unit that gives one. -/
theorem scan_server (draft : Draft) (args : List String) :
    (draft.scan args).server =
      ((Argument.ofTokens args).filterMap (Argument.valueFor .server)).getLast?.getD
        draft.server :=
  scan_of_getD server (Argument.valueFor .server) (fun _ _ => rfl) draft args

/-- The menu is shown unless it was hidden before or some unit hides it. -/
theorem scan_showMenu (draft : Draft) (args : List String) :
    (draft.scan args).showMenu = true ↔
      draft.showMenu = true ∧ ∀ argument ∈ Argument.ofTokens args, ¬ argument.HidesMenu := by
  rw [scan_eq_foldl]
  induction Argument.ofTokens args generalizing draft with
  | nil => simp
  | cons argument rest ih =>
      rw [List.foldl_cons, ih, take_eq_after]
      simp [after, and_assoc]

/-- The problems of the units follow those found before, in the order of the units. -/
theorem scan_problems (draft : Draft) (args : List String) :
    (draft.scan args).problems =
      draft.problems ++ (Argument.ofTokens args).filterMap Argument.problem := by
  rw [scan_eq_foldl]
  induction Argument.ofTokens args generalizing draft with
  | nil => simp
  | cons argument rest ih =>
      rw [List.foldl_cons, ih, take_eq_after]
      cases found : argument.problem <;> simp [after, found]

/-- Help is wanted exactly if it was before or some unit asks for it. -/
theorem scan_help (draft : Draft) (args : List String) :
    (draft.scan args).help = true ↔
      draft.help = true ∨ ∃ argument ∈ Argument.ofTokens args, argument.AsksForHelp := by
  rw [scan_eq_foldl]
  induction Argument.ofTokens args generalizing draft with
  | nil => simp
  | cons argument rest ih =>
      rw [List.foldl_cons, ih, take_eq_after]
      simp [after, or_assoc]

/-- The draft has a size that a window can have. -/
def HasSize (draft : Draft) : Prop :=
  0 < draft.width ∧ 0 < draft.height

/-- No argument takes the size away. -/
theorem HasSize.scan {draft : Draft} (h : draft.HasSize) (args : List String) :
    (draft.scan args).HasSize :=
  ⟨scan_keeps width _ (fun _ _ => rfl) (dimensionFor_keeps fun _ _ => pos_of_readDimension) h.1 args,
    scan_keeps height _ (fun _ _ => rfl) (dimensionFor_keeps fun _ _ => pos_of_readDimension) h.2 args⟩

end Draft

end GameClient
