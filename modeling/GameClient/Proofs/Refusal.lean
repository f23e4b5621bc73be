import GameClient.Proofs.OptionPlace
/-!
When a client starts and what it says when it does not. `expectedProblems` lists, straight from the
arguments and the environment, what is wrong with them; unless help is asked for, the client is
refused with exactly this list, and starts if the list is empty.
-/

namespace GameClient

/-- What is wrong with the variable of a width or a height. -/
def environmentProblem (env : Environment) (setting : Setting) : Option Problem :=
  match env setting.envName with
  | none => none
  | some given => if IsDimension given then none else some (.notPositive setting.envName)

/-- What is wrong with a server. -/
def serverProblem (server : String) : Option Problem :=
  match Address.normalize server with
  | .ok _ => none
  | .error error => some (.address error)

/-- The text that a setting has in the end: the last value on the command line, or else the variable,
or else the default. -/
def effectiveText (setting : Setting) (args : List String) (env : Environment) : String :=
  ((Argument.ofTokens args).filterMap (Argument.valueFor setting)).getLast?.getD
    ((env setting.envName).getD setting.defaultText)

/-- All that is wrong: the variables, the units of the arguments, the server. -/
def expectedProblems (args : List String) (env : Environment) : List Problem :=
  (environmentProblem env .width).toList ++ (environmentProblem env .height).toList ++
    (Argument.ofTokens args).filterMap Argument.problem ++
    (serverProblem (effectiveText .server args env)).toList

namespace Draft

theorem dimension_problems (env : Environment) (setting : Setting) (default : Nat) :
    (dimension env setting default).2 = (environmentProblem env setting).toList := by
  unfold dimension environmentProblem
  cases env setting.envName with
  | none => rfl
  | some given =>
      cases read : readDimension given with
      | none => simp [read, readDimension_eq_none_iff.mp read]
      | some n => simp [read, readDimension_isSome_iff.mp (Option.isSome_iff_exists.mpr ⟨n, read⟩)]

/-- What holds of a default and of every number that a text can give holds of what a variable gives. -/
theorem dimension_keeps {P : Nat → Prop} (every : ∀ given, ∀ n ∈ readDimension given, P n)
    (env : Environment) (setting : Setting) {default : Nat} (h : P default) :
    P (dimension env setting default).1 := by
  unfold dimension
  cases env setting.envName with
  | none => exact h
  | some given =>
      cases read : readDimension given with
      | none => simpa [read] using h
      | some n => simpa [read] using every given n read

theorem hasSize_ofEnvironment (env : Environment) : (ofEnvironment env).HasSize :=
  ⟨dimension_keeps (fun _ _ => pos_of_readDimension) env .width (by decide),
    dimension_keeps (fun _ _ => pos_of_readDimension) env .height (by decide)⟩

/-- A draft with a size settles into settings, unless something was or is wrong. -/
theorem settle_of_hasSize {draft : Draft} (h : draft.HasSize) :
    (draft.problems ++ (serverProblem draft.server).toList = [] →
        ∃ settings, draft.settle = .ready settings) ∧
      (draft.problems ++ (serverProblem draft.server).toList ≠ [] →
        draft.settle = .rejected (draft.problems ++ (serverProblem draft.server).toList)) := by
  unfold settle serverProblem
  cases Address.normalize draft.server with
  | error error => simp
  | ok address =>
      by_cases clean : draft.problems = []
      · simp [clean, Settings.create, h.1, h.2]
      · simp [clean]

end Draft

/-- The problems of the draft and of its server are the expected ones. -/
theorem problems_scan (args : List String) (env : Environment) :
    ((Draft.ofEnvironment env).scan args).problems ++
        (serverProblem ((Draft.ofEnvironment env).scan args).server).toList =
      expectedProblems args env := by
  simp only [Draft.scan_problems, Draft.scan_server, expectedProblems, effectiveText,
    Draft.ofEnvironment, Draft.dimension_problems, Setting.defaultText]

/-- Without a unit that asks for help, the client is refused with exactly the expected problems, and
it starts if there are none. -/
theorem resolve_of_no_help (args : List String) (env : Environment)
    (noHelp : ∀ argument ∈ Argument.ofTokens args, ¬ argument.AsksForHelp) :
    (expectedProblems args env ≠ [] →
        resolve args env = .rejected (expectedProblems args env)) ∧
      (expectedProblems args env = [] → ∃ settings, resolve args env = .ready settings) := by
  have asked : resolve args env ≠ .help := resolve_ne_help_iff.mpr noHelp
  have size := (Draft.hasSize_ofEnvironment env).scan args
  have settled := Draft.settle_of_hasSize size
  rw [problems_scan, ← resolve_eq_settle asked] at settled
  exact ⟨settled.2, settled.1⟩

/-- Problems come in the order in which they are looked for, and a token in the place of a value is no
option: neither `--fullscreen` nor `-h` has an effect here. -/
theorem resolve_rejected_in_order :
    ∃ args env, (∀ argument ∈ Argument.ofTokens args, ¬ argument.AsksForHelp) ∧
      expectedProblems args env ≠ [] ∧
      resolve args env = .rejected
        [.notPositive "FLAPPYBINGUS_CLIENT_HEIGHT", .missingValue "--width", .notPositive "Height",
          .unknownOption "--nope", .missingValue "--path", .address .unknownScheme] := by
  let args := ["--width", "--fullscreen", "--title", "-h", "--height", "0", "--server", "ftp://a",
    "--nope", "--path"]
  let env : Environment := fun name =>
    if name = "FLAPPYBINGUS_CLIENT_HEIGHT" then some " -7" else none
  have noHelp : ∀ argument ∈ Argument.ofTokens args, ¬ argument.AsksForHelp := by decide
  have wrong : expectedProblems args env ≠ [] := by decide
  refine ⟨args, env, noHelp, wrong, ?_⟩
  rw [(resolve_of_no_help args env noHelp).1 wrong]
  decide

end GameClient
