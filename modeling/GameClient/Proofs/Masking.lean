import GameClient.Proofs.Trace
/-!
Two runs of a client whose environments differ in one variable. Drafts that agree in everything but one setting
still do so after any argument; once an option has given that setting a value they agree in all, so that nothing
shows of the variable. A variable for the size is looked at in any case: what is wrong with it comes before all that
is wrong with the arguments.
-/

namespace GameClient

/-- The environment without the variable of a setting. -/
def Environment.unset (env : Environment) (setting : Setting) : Environment :=
  fun name => if name = setting.envName then none else env name

namespace Setting

theorem envName_inj {setting other : Setting} : setting.envName = other.envName ↔ setting = other := by
  cases setting <;> cases other <;> decide

end Setting

namespace Draft

/-- The drafts agree in everything but the value of one setting. -/
structure AgreeExcept (setting : Setting) (one two : Draft) : Prop where
  server : setting ≠ .server → one.server = two.server
  path : setting ≠ .path → one.path = two.path
  width : setting ≠ .width → one.width = two.width
  height : setting ≠ .height → one.height = two.height
  title : setting ≠ .title → one.title = two.title
  fullscreen : one.fullscreen = two.fullscreen
  showMenu : one.showMenu = two.showMenu
  help : one.help = two.help
  problems : one.problems = two.problems

/-- The drafts agree in the value of one setting. -/
def AgreeIn (setting : Setting) (one two : Draft) : Prop :=
  match setting with
  | .server => one.server = two.server
  | .path => one.path = two.path
  | .width => one.width = two.width
  | .height => one.height = two.height
  | .title => one.title = two.title

variable {setting : Setting} {one two : Draft}

theorem AgreeExcept.eq (h : AgreeExcept setting one two) (same : AgreeIn setting one two) :
    one = two := by
  obtain ⟨server, path, width, height, title, fullscreen, showMenu, help, problems⟩ := h
  cases one
  cases two
  cases setting <;> simp_all [AgreeIn]

theorem AgreeExcept.take (h : AgreeExcept setting one two) (argument : Argument) :
    AgreeExcept setting (one.take argument) (two.take argument) := by
  rw [take_eq_after, take_eq_after]
  refine ⟨fun other => ?_, fun other => ?_, fun other => ?_, fun other => ?_, fun other => ?_, ?_, ?_, ?_, ?_⟩
  · simp only [after, h.server other]
  · simp only [after, h.path other]
  · simp only [after, h.width other]
  · simp only [after, h.height other]
  · simp only [after, h.title other]
  · simp only [after, h.fullscreen]
  · simp only [after, h.showMenu]
  · simp only [after, h.help]
  · simp only [after, h.problems]

theorem AgreeExcept.scan (h : AgreeExcept setting one two) (args : List String) :
    AgreeExcept setting (one.scan args) (two.scan args) := by
  rw [scan_eq_foldl, scan_eq_foldl]
  induction Argument.ofTokens args generalizing one two with
  | nil => exact h
  | cons argument rest ih => exact ih (h.take argument)

/-- A draft in which something is wrong settles into what is wrong, whatever its size is. -/
theorem AgreeExcept.settle_eq (h : AgreeExcept setting one two) (size : setting = .width ∨ setting = .height)
    (wrong : one.problems ≠ []) : one.settle = two.settle := by
  have server : one.server = two.server := h.server (by rcases size with rfl | rfl <;> decide)
  have wrongToo : two.problems ≠ [] := h.problems ▸ wrong
  unfold settle
  rw [← server]
  cases Address.normalize one.server with
  | error error => simp only [h.problems]
  | ok address => simp only [h.problems, if_neg wrongToo]

/-! ### What an option hides -/

/-- A field that some unit gives a value is after a scan what it would be after any other start. -/
theorem scan_of_given {α : Type} (field : Draft → α) (given : Argument → Option α)
    (step : ∀ draft argument, field (draft.after argument) = (given argument).getD (field draft))
    {args : List String} {argument : Argument} (member : argument ∈ Argument.ofTokens args)
    (gives : (given argument).isSome = true) (one two : Draft) :
    field (one.scan args) = field (two.scan args) := by
  rw [scan_of_getD field given step, scan_of_getD field given step]
  cases last : ((Argument.ofTokens args).filterMap given).getLast? with
  | none =>
      obtain ⟨value, found⟩ := Option.isSome_iff_exists.mp gives
      have listed := List.mem_filterMap.mpr ⟨argument, member, found⟩
      rw [List.getLast?_eq_none_iff.mp last] at listed
      simp at listed
  | some value => rfl

variable {args : List String} {value : String}

/-- Behind an option with a value the drafts agree in the setting, unless it is a size that the value does not
write; then something is wrong. -/
theorem agreeIn_scan (member : .option setting (some value) ∈ Argument.ofTokens args)
    (accepted : isFlagLike value = false) (one two : Draft) :
    AgreeIn setting (one.scan args) (two.scan args) ∨
      (setting = .width ∨ setting = .height) ∧ ∀ draft : Draft, (draft.scan args).problems ≠ [] := by
  have gives : ((Argument.option setting (some value)).valueFor setting).isSome = true := by
    simp [Argument.valueFor, accepted]
  have sized : ∀ label, Argument.dimensionLabel setting = some label →
      ((Argument.option setting (some value)).dimensionFor setting).isSome = true ∨
        ∀ draft : Draft, (draft.scan args).problems ≠ [] := by
    intro label labelled
    by_cases written : IsDimension value
    · refine Or.inl ?_
      simpa [Argument.dimensionFor, Argument.valueFor, accepted] using readDimension_isSome_iff.mpr written
    · refine Or.inr fun draft => ?_
      have problem : (Argument.option setting (some value)).problem = some (.notPositive label) := by
        simp [Argument.problem, accepted, labelled, written]
      rw [scan_problems]
      exact List.append_ne_nil_of_right_ne_nil _
        (List.ne_nil_of_mem (List.mem_filterMap.mpr ⟨_, member, problem⟩))
  cases setting with
  | server => exact Or.inl (scan_of_given Draft.server _ (fun _ _ => rfl) member gives one two)
  | path => exact Or.inl (scan_of_given Draft.path _ (fun _ _ => rfl) member gives one two)
  | title => exact Or.inl (scan_of_given Draft.title _ (fun _ _ => rfl) member gives one two)
  | width =>
      rcases sized "Width" rfl with written | wrong
      · exact Or.inl (scan_of_given Draft.width _ (fun _ _ => rfl) member written one two)
      · exact Or.inr ⟨Or.inl rfl, wrong⟩
  | height =>
      rcases sized "Height" rfl with written | wrong
      · exact Or.inl (scan_of_given Draft.height _ (fun _ _ => rfl) member written one two)
      · exact Or.inr ⟨Or.inr rfl, wrong⟩

end Draft

/-! ### What a variable says -/

section Variables

variable {env other : Environment} {setting : Setting}

theorem environmentProblem_eq_none_iff :
    environmentProblem env setting = none ↔ ∀ given, env setting.envName = some given → IsDimension given := by
  unfold environmentProblem
  cases env setting.envName <;> simp

theorem environmentProblem_congr (same : env setting.envName = other setting.envName) :
    environmentProblem env setting = environmentProblem other setting := by
  unfold environmentProblem
  rw [same]

theorem Draft.dimension_congr (same : env setting.envName = other setting.envName) (default : Nat) :
    dimension env setting default = dimension other setting default := by
  unfold dimension
  rw [same]

theorem Draft.problems_ofEnvironment (env : Environment) :
    (ofEnvironment env).problems =
      (environmentProblem env .width).toList ++ (environmentProblem env .height).toList := by
  simp only [ofEnvironment, dimension_problems]

/-- Environments that agree in all variables but that of one setting begin drafts that agree in all but that
setting, if nothing is wrong with the variable. -/
theorem Draft.agreeExcept_ofEnvironment
    (agree : ∀ rest, rest ≠ setting → env rest.envName = other rest.envName)
    (clean : ∀ size, size = .width ∨ size = .height →
      environmentProblem env size = environmentProblem other size) :
    AgreeExcept setting (ofEnvironment env) (ofEnvironment other) where
  server differs := by simp only [ofEnvironment, agree .server differs.symm]
  path differs := by simp only [ofEnvironment, agree .path differs.symm]
  width differs := by simp only [ofEnvironment, dimension_congr (agree .width differs.symm)]
  height differs := by simp only [ofEnvironment, dimension_congr (agree .height differs.symm)]
  title differs := by simp only [ofEnvironment, agree .title differs.symm]
  fullscreen := rfl
  showMenu := rfl
  help := rfl
  problems := by
    rw [problems_ofEnvironment, problems_ofEnvironment, clean .width (Or.inl rfl), clean .height (Or.inr rfl)]

/-! ### Two runs -/

variable {args : List String}

/-- No variable but the five matters. -/
theorem resolve_congr (agree : ∀ setting : Setting, env setting.envName = other setting.envName) :
    resolve args env = resolve args other := by
  have same : Draft.ofEnvironment env = Draft.ofEnvironment other := by
    simp only [Draft.ofEnvironment, agree, Draft.dimension_congr (agree _)]
  rw [resolve, resolve, same]

theorem resolve_masked {value : String} (member : .option setting (some value) ∈ Argument.ofTokens args)
    (accepted : isFlagLike value = false)
    (agree : ∀ rest, rest ≠ setting → env rest.envName = other rest.envName)
    (clean : ∀ size, size = .width ∨ size = .height →
      environmentProblem env size = environmentProblem other size) :
    resolve args env = resolve args other := by
  have except := (Draft.agreeExcept_ofEnvironment agree clean).scan args
  have settled : ((Draft.ofEnvironment env).scan args).settle =
      ((Draft.ofEnvironment other).scan args).settle := by
    rcases Draft.agreeIn_scan member accepted (Draft.ofEnvironment env) (Draft.ofEnvironment other) with
      same | ⟨size, wrong⟩
    · rw [except.eq same]
    · exact except.settle_eq size (wrong _)
  simp only [resolve, except.help, settled]

theorem environmentProblem_unset (env : Environment) (setting other : Setting) :
    environmentProblem (env.unset setting) other =
      if other = setting then none else environmentProblem env other := by
  unfold environmentProblem Environment.unset
  by_cases same : other = setting <;> simp [same, Setting.envName_inj]

/-- The problems of the outcome are all that is wrong, unless help is asked for. -/
theorem problems_resolve (noHelp : ∀ argument ∈ Argument.ofTokens args, ¬ argument.AsksForHelp)
    (env : Environment) : (resolve args env).problems = expectedProblems args env := by
  by_cases clean : expectedProblems args env = []
  · cases outcome : resolve args env with
    | help => exact clean.symm
    | ready settings => exact clean.symm
    | rejected problems => exact absurd clean (resolve_eq_rejected_iff.mp outcome).2.1
  · rw [resolve_eq_rejected_iff.mpr ⟨noHelp, clean, rfl⟩]
    rfl

/-- What is wrong with the variables of the size comes first, and all else is what it would be without them. -/
theorem expectedProblems_eq (args : List String) (env : Environment) :
    expectedProblems args env =
      (environmentProblem env .width).toList ++ (environmentProblem env .height).toList ++
        expectedProblems args ((env.unset .width).unset .height) := by
  have width : environmentProblem ((env.unset .width).unset .height) .width = none := by
    simp [environmentProblem_unset]
  have height : environmentProblem ((env.unset .width).unset .height) .height = none := by
    simp [environmentProblem_unset]
  have server : ((env.unset .width).unset .height) Setting.server.envName = env Setting.server.envName := by
    simp [Environment.unset, Setting.envName_inj]
  simp only [expectedProblems, effectiveText, width, height, server, Option.toList_none, List.nil_append,
    List.append_assoc]

/-- A value on the command line hides the variable of its setting, that of a size only as long as it is in order. A
size in a variable that is not in order is reported before everything else, the width before the height, unless help
is asked for. No other variable matters. -/
theorem resolve_eq_of_masked (args : List String) :
    (∀ setting value env other, .option setting (some value) ∈ Argument.ofTokens args →
      isFlagLike value = false →
      (∀ rest, rest ≠ setting → env rest.envName = other rest.envName) →
      (setting = .width ∨ setting = .height →
        (∀ given, env setting.envName = some given → IsDimension given) ∧
          ∀ given, other setting.envName = some given → IsDimension given) →
      resolve args env = resolve args other) ∧
    (∀ env, (∀ argument ∈ Argument.ofTokens args, ¬ argument.AsksForHelp) →
      environmentProblem env .width ≠ none ∨ environmentProblem env .height ≠ none →
      resolve args env = .rejected
        ((environmentProblem env .width).toList ++ (environmentProblem env .height).toList ++
          (resolve args ((env.unset .width).unset .height)).problems)) ∧
    (∀ env, (∃ argument ∈ Argument.ofTokens args, argument.AsksForHelp) → resolve args env = .help) ∧
    ∀ env other : Environment, (∀ setting : Setting, env setting.envName = other setting.envName) →
      resolve args env = resolve args other := by
  refine ⟨?masked, ?reported, ?help, fun env other => resolve_congr⟩
  case masked =>
    intro setting value env other member accepted agree inOrder
    refine resolve_masked member accepted agree fun size sized => ?_
    by_cases same : size = setting
    · subst same
      obtain ⟨one, two⟩ := inOrder sized
      rw [environmentProblem_eq_none_iff.mpr one, environmentProblem_eq_none_iff.mpr two]
    · exact environmentProblem_congr (agree size same)
  case reported =>
    intro env noHelp wrong
    rw [problems_resolve noHelp, ← expectedProblems_eq, resolve_eq_rejected_iff]
    refine ⟨noHelp, ?_, rfl⟩
    intro clean
    rw [expectedProblems_eq] at clean
    simp only [List.append_eq_nil_iff, Option.toList_eq_nil_iff] at clean
    rcases wrong with width | height
    · exact width clean.1.1
    · exact height clean.1.2
  case help =>
    intro env asked
    exact (resolve_eq_help_iff_asksForHelp args env).mpr asked

end Variables

/-- An option hides a server that is no address, but not a width that is no number, although both have an option
with a value. -/
theorem resolve_eq_of_masked_server :
    ∃ args env other wide settings,
      env Setting.server.envName = some "ftp://a" ∧ other Setting.server.envName = none ∧
      resolve args other = .ready settings ∧ resolve args env = .ready settings ∧
      wide Setting.width.envName = some "0" ∧ .option .width (some "800") ∈ Argument.ofTokens args ∧
      resolve args wide = .rejected [.notPositive "FLAPPYBINGUS_CLIENT_WIDTH"] := by
  let args := ["--server", "b", "--width", "800"]
  let other : Environment := fun _ => none
  let env : Environment := fun name => if name = Setting.server.envName then some "ftp://a" else none
  let wide : Environment := fun name => if name = Setting.width.envName then some "0" else none
  let settings : Settings :=
    ⟨"http://b", "/", 800, 720, "FlappyBingus", false, true, by decide, by decide⟩
  have ready : resolve args other = .ready settings := by decide
  obtain ⟨masked, reported, _, _⟩ := resolve_eq_of_masked args
  have given : .option .server (some "b") ∈ Argument.ofTokens args := by decide
  have agree : ∀ rest : Setting, rest ≠ .server → env rest.envName = other rest.envName := by
    intro rest differs
    exact if_neg (mt Setting.envName_inj.mp differs)
  have same : resolve args env = resolve args other :=
    masked .server "b" env other given (by decide) agree (by simp)
  refine ⟨args, env, other, wide, settings, rfl, rfl, ready, same.trans ready, rfl, by decide, ?_⟩
  rw [reported wide (by decide) (Or.inl (by decide))]
  decide

end GameClient
