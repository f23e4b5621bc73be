import GameClient.Program
import GameClient.Proofs.Printed
import GameClient.Proofs.Refusal
/-!
How a run of the program goes. `Goes` has one case for each of the three ways, told by all that is done and by
the exit code, and no run mixes them. A run is played on a stage, which is any output and any maker of windows;
that the effects of a run are all that a stage sees of the program is a theorem about the program written for a
stage. What is printed and the exit code then follow from the three ways.
-/

namespace GameClient

/-- The ways in which a run can go, by what has come of the arguments and the environment. -/
inductive Goes : Outcome → Run → Prop where
  /-- The help text is printed. -/
  | helped : Goes .help ⟨[.out Help.text], 0⟩
  /-- What is wrong is said on the standard error output, one line for each problem, and the help text
  follows. -/
  | refused {problems : List Problem} (nonempty : problems ≠ []) :
      Goes (.rejected problems)
        ⟨.err "FlappyBingus Desktop Client failed to start:" ::
          problems.map (fun problem => .err (" - " ++ problem.message)) ++
          [.err "", .err Help.text], 2⟩
  /-- A window is made and shown. -/
  | shown {settings : Settings} :
      Goes (.ready settings) ⟨[.createWindow settings, .showWindow], 0⟩

/-- An output and a maker of windows, by what each call does to the world. -/
structure Stage (World Shown : Type) where
  printOut : String → World → World
  printErr : String → World → World
  createWindow : Settings → World → Shown × World
  showWindow : Shown → World → World

namespace Stage

variable {World Shown : Type} (stage : Stage World Shown)

/-- Plays one effect, given the window that was made last. -/
def play (before : Option Shown × World) : Effect → Option Shown × World
  | .out text => (before.1, stage.printOut text before.2)
  | .err text => (before.1, stage.printErr text before.2)
  | .createWindow settings =>
    let made := stage.createWindow settings before.2
    (some made.1, made.2)
  | .showWindow => (before.1, before.1.elim before.2 fun window => stage.showWindow window before.2)

/-- What the world is after effects. -/
def playAll (effects : List Effect) (world : World) : World :=
  (effects.foldl stage.play (none, world)).2

/-- Prints the complaint about problems, the line of each as it comes. -/
def complain (messages : List String) (world : World) : World :=
  messages.foldl (fun world message => stage.printErr (" - " ++ message) world)
    (stage.printErr (Help.clientName ++ " failed to start:") world)

/-- The program as it calls the stage: the exit code, and what the world is then. -/
def perform (args : List String) (env : Environment) (world : World) : Nat × World :=
  match resolve args env with
  | .help => (Run.success, stage.printOut Help.text world)
  | .rejected problems =>
    let world := stage.complain (problems.map Problem.message) world
    (Run.usageError, stage.printErr Help.text (stage.printErr "" world))
  | .ready settings =>
    let made := stage.createWindow settings world
    (Run.success, stage.showWindow made.1 made.2)

theorem foldl_play_messages (messages : List String) (window : Option Shown) (world : World) :
    (messages.map fun message => .err (" - " ++ message)).foldl stage.play (window, world) =
      (window, messages.foldl (fun world message => stage.printErr (" - " ++ message) world) world) := by
  induction messages generalizing world with
  | nil => rfl
  | cons message rest ih => exact ih (stage.printErr (" - " ++ message) world)

theorem foldl_play_complaint (messages : List String) (window : Option Shown) (world : World) :
    (Program.complaint messages).foldl stage.play (window, world) =
      (window, stage.complain messages world) :=
  stage.foldl_play_messages messages window _

/-- A stage sees the effects of the run and nothing else of the program. -/
theorem perform_eq (args : List String) (env : Environment) (world : World) :
    stage.perform args env world =
      ((Program.run args env).code, stage.playAll (Program.run args env).effects world) := by
  unfold perform Program.run
  cases resolve args env with
  | help => rfl
  | ready settings => rfl
  | rejected problems =>
      simp only [Program.report, playAll, List.foldl_append, foldl_play_complaint]
      rfl

end Stage

/-! ### The three ways -/

/-- The client is refused if no help is asked for and something is wrong, and with all that is wrong. -/
theorem resolve_eq_rejected_iff {args : List String} {env : Environment} {problems : List Problem} :
    resolve args env = .rejected problems ↔
      (∀ argument ∈ Argument.ofTokens args, ¬ argument.AsksForHelp) ∧
        expectedProblems args env ≠ [] ∧ problems = expectedProblems args env := by
  have help := resolve_eq_help_iff_asksForHelp args env
  by_cases asked : resolve args env = .help
  · obtain ⟨argument, member, asks⟩ := help.mp asked
    rw [asked]
    constructor
    · exact nofun
    · intro h
      exact absurd asks (h.1 argument member)
  · have noHelp : ∀ argument ∈ Argument.ofTokens args, ¬ argument.AsksForHelp := by
      intro argument member asks
      exact asked (help.mpr ⟨argument, member, asks⟩)
    have size := (Draft.hasSize_ofEnvironment env).scan args
    obtain ⟨ready, refused⟩ := Draft.settle_of_hasSize size
    rw [problems_scan, ← resolve_eq_settle asked] at ready refused
    by_cases clean : expectedProblems args env = []
    · obtain ⟨settings, started⟩ := ready clean
      simp [started, clean]
    · rw [refused clean, Outcome.rejected.injEq]
      constructor
      · intro same
        exact ⟨noHelp, clean, same.symm⟩
      · intro h
        exact h.2.2.symm

/-- The report of problems, line by line. -/
theorem Program.report_eq (problems : List Problem) :
    Program.report problems =
      ⟨.err "FlappyBingus Desktop Client failed to start:" ::
        problems.map (fun problem => .err (" - " ++ problem.message)) ++
        [.err "", .err Help.text], 2⟩ := by
  simp only [Program.report, Program.complaint, List.map_map]
  rfl

namespace Goes

variable {outcome : Outcome} {run : Run}

theorem refused_report {problems : List Problem} (nonempty : problems ≠ []) :
    Goes (.rejected problems) (Program.report problems) := by
  rw [Program.report_eq]
  exact .refused nonempty

/-- Each outcome leads to one run. -/
theorem unique {other : Run} (h : Goes outcome run) (h' : Goes outcome other) : run = other := by
  cases h <;> cases h' <;> rfl

/-- The exit code says that the client was refused. -/
theorem code_eq_two_iff (h : Goes outcome run) :
    run.code = 2 ↔ ∃ problems, outcome = .rejected problems := by
  cases h <;> simp

theorem createWindow_mem_iff (h : Goes outcome run) (settings : Settings) :
    .createWindow settings ∈ run.effects ↔ outcome = .ready settings := by
  cases h <;> simp [eq_comm]

/-- Something is written to the standard error output exactly if the client was refused. -/
theorem errs_ne_nil_iff (h : Goes outcome run) : run.errs ≠ [] ↔ run.code = 2 := by
  cases h <;> simp [Run.errs]

/-- A client that was refused writes nothing to the standard output and has no window. -/
theorem outs_of_code_eq_two (h : Goes outcome run) (code : run.code = 2) :
    run.outs = [] ∧ run.window? = none := by
  cases h with
  | helped => simp at code
  | refused nonempty =>
      constructor
      · simp [Run.outs]
      · simp [Run.window?]
  | shown => simp at code

theorem window?_eq_some_iff (h : Goes outcome run) (settings : Settings) :
    run.window? = some settings ↔ outcome = .ready settings := by
  cases h with
  | helped => simp [Run.window?]
  | refused nonempty =>
      have windowless := ((Goes.refused nonempty).outs_of_code_eq_two rfl).2
      rw [windowless]
      exact ⟨nofun, nofun⟩
  | shown => simp [Run.window?]

end Goes

theorem goes_run (args : List String) (env : Environment) :
    Goes (resolve args env) (Program.run args env) := by
  unfold Program.run
  cases found : resolve args env with
  | help => exact .helped
  | ready settings => exact .shown
  | rejected problems =>
      obtain ⟨_, wrong, same⟩ := resolve_eq_rejected_iff.mp found
      exact .refused_report (same ▸ wrong)

/-- Also with arguments that are no text the run goes in one of the three ways. -/
theorem exists_goes_runRaw (args : List (List UInt8)) (env : Environment) :
    ∃ outcome, Goes outcome (Program.runRaw args env) := by
  unfold Program.runRaw
  cases found : Program.unreadable args with
  | nil => exact ⟨_, goes_run _ env⟩
  | cons problem rest => exact ⟨_, .refused_report (List.cons_ne_nil problem rest)⟩

namespace Program.Performance

open Text

/-- The session of a window writes nothing to the standard error output. -/
theorem stderr_ne_empty_iff (desktop : Desktop) (args : List (List UInt8)) (env : Environment)
    (input : List UInt8) :
    (perform desktop args env input).stderr ≠ "" ↔ (perform desktop args env input).run.code = 2 := by
  obtain ⟨outcome, goes⟩ := exists_goes_runRaw args env
  rw [stderr, ne_eq, joinLines_eq_empty_iff]
  exact goes.errs_ne_nil_iff

theorem stdout_of_code_eq_two {desktop : Desktop} {args : List (List UInt8)} {env : Environment}
    {input : List UInt8} (code : (perform desktop args env input).run.code = 2) :
    (perform desktop args env input).stdout = "" := by
  obtain ⟨outcome, goes⟩ := exists_goes_runRaw args env
  obtain ⟨silent, windowless⟩ := goes.outs_of_code_eq_two code
  simp [stdout, screen, perform, silent, windowless, joinLines]

end Program.Performance

/-- A run goes in exactly one of the three ways, and its effects are all that any output and any maker of
windows see of it. The exit code is 2 exactly if something is wrong and no help is asked for, and a window is
made exactly for the settings that come of the arguments and the environment. With any arguments and on any
desktop something is written to the standard error output exactly if the exit code is 2, and nothing to the
standard output then. -/
theorem run_goes_one_way (args : List String) (env : Environment) :
    (∀ run, Goes (resolve args env) run ↔ run = Program.run args env) ∧
    (∀ {World Shown : Type} (stage : Stage World Shown) (world : World),
      stage.perform args env world =
        ((Program.run args env).code, stage.playAll (Program.run args env).effects world)) ∧
    ((Program.run args env).code = 2 ↔ expectedProblems args env ≠ [] ∧
      ∀ argument ∈ Argument.ofTokens args, ¬ argument.AsksForHelp) ∧
    (∀ settings, .createWindow settings ∈ (Program.run args env).effects ↔
      resolve args env = .ready settings) ∧
    ∀ desktop raw input,
      ((Program.perform desktop raw env input).stderr ≠ "" ↔
        (Program.perform desktop raw env input).run.code = 2) ∧
      ((Program.perform desktop raw env input).run.code = 2 →
        (Program.perform desktop raw env input).stdout = "") := by
  have goes := goes_run args env
  refine ⟨?ways, fun stage world => stage.perform_eq args env world, ?code, goes.createWindow_mem_iff,
    ?binary⟩
  case ways =>
    intro run
    constructor
    · intro h
      exact h.unique goes
    · intro same
      rw [same]
      exact goes
  case code =>
    rw [goes.code_eq_two_iff]
    simp only [resolve_eq_rejected_iff, exists_and_left, exists_eq, and_true]
    exact and_comm
  case binary =>
    intro desktop raw input
    exact ⟨Program.Performance.stderr_ne_empty_iff desktop raw env input,
      Program.Performance.stdout_of_code_eq_two⟩

/-- Two problems are reported one below the other; an argument that is no text is reason enough for the exit
code 2, also beside one that asks for help. -/
theorem run_goes_one_way_of_problems :
    Program.run ["--nope", "--width"] (fun _ => none) =
        ⟨[.err "FlappyBingus Desktop Client failed to start:", .err " - Unknown option: --nope",
          .err " - Missing value for --width", .err "", .err Help.text], 2⟩ ∧
      Program.run ["--nope", "--help"] (fun _ => none) = ⟨[.out Help.text], 0⟩ ∧
      (Program.perform {} [[0xFF], Text.Utf8.encode "-h".toList] (fun _ => none) []).run.code = 2 ∧
      (Program.perform {} [[0xFF], Text.Utf8.encode "-h".toList] (fun _ => none) []).stdout = "" := by
  have rejected : resolve ["--nope", "--width"] (fun _ => none) =
      .rejected [.unknownOption "--nope", .missingValue "--width"] := by decide
  have helped : resolve ["--nope", "--help"] (fun _ => none) = .help := by decide
  have code : (Program.perform {} [[0xFF], Text.Utf8.encode "-h".toList] (fun _ => none) []).run.code =
      2 := by decide
  obtain ⟨ways, _, _, _, binary⟩ := run_goes_one_way ["--nope", "--width"] fun _ => none
  have helpWays := (run_goes_one_way ["--nope", "--help"] fun _ => none).1
  rw [rejected] at ways
  rw [helped] at helpWays
  exact ⟨((ways _).mp (.refused (by simp))).symm, ((helpWays _).mp .helped).symm, code,
    (binary _ _ _).2 code⟩

end GameClient
