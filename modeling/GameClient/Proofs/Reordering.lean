import Mathlib.Logic.Relation
import GameClient.Proofs.Trace
import GameClient.Proofs.Precedence
/-!
Arguments in another order. Each field of the draft is set by units that are about one thing, so complete units may
be put in any order in which those that set the same thing keep theirs: the last of them is still the last. What
changes is the order of the problems, which become those of the units in their new order. Such a reordering is one
that can be made step by step, two neighbours that do not set the same thing changing places in each step.
-/

namespace GameClient

open Relation

/-- What a unit can set: the value of a setting, or how the window starts. -/
inductive Topic where
  | value (setting : Setting)
  | startMode
deriving Repr, DecidableEq

namespace Argument

/-- The unit has all its tokens. The token after an option may be any token, also a flag; a token by itself is not
the flag of a setting, since that would take the token after it. -/
def IsComplete : Argument → Prop
  | .option _ value => value.isSome = true
  | .single token => ∀ setting : Setting, token ≠ setting.flag

instance : DecidablePred IsComplete
  | .option _ value => inferInstanceAs (Decidable (value.isSome = true))
  | .single _ => decidable_of_iff _ Setting.ofFlag?_eq_none_iff

/-- The tokens of complete units are cut into just these units. -/
theorem ofTokens_flatMap_tokens {units : List Argument} (complete : ∀ unit ∈ units, unit.IsComplete) :
    ofTokens (units.flatMap tokens) = units := by
  induction units with
  | nil => rfl
  | cons unit rest ih =>
      obtain ⟨here, later⟩ := List.forall_mem_cons.mp complete
      rw [List.flatMap_cons]
      cases unit with
      | single token =>
          have noFlag : Setting.ofFlag? token = none := Setting.ofFlag?_eq_none_iff.mpr here
          simp [tokens, ofTokens, noFlag, ih later]
      | option setting value =>
          obtain ⟨text, rfl⟩ := Option.isSome_iff_exists.mp here
          simp [tokens, ofTokens, Setting.ofFlag?_flag, ih later]

/-- What the unit is about. -/
def topic? (argument : Argument) : Option Topic :=
  match argument with
  | .option setting _ => some (.value setting)
  | .single _ => if argument.SetsMode then some .startMode else none

/-- What the unit sets. One that is refused sets nothing, whatever it is about. -/
def sets? (argument : Argument) : Option Topic :=
  if argument.problem = none then argument.topic? else none

section Sets

variable {argument : Argument} {setting : Setting}

/-- A value that is a token in order and, for a size, writes a number, sets its setting. -/
theorem sets?_of_valueFor {value : String} (accepted : dimensionLabel setting = none ∨ IsDimension value)
    (gives : argument.valueFor setting = some value) : argument.sets? = some (.value setting) := by
  cases argument with
  | single token => simp at gives
  | option given text =>
      cases text with
      | none => simp at gives
      | some text =>
          simp only [valueFor, Option.ite_none_right_eq_some, Option.some.injEq] at gives
          obtain ⟨⟨rfl, flagLike⟩, rfl⟩ := gives
          have clean : (option given (some text)).problem = none := by
            rcases accepted with unlabelled | written
            · simp [problem, flagLike, unlabelled]
            · simp only [problem, flagLike, if_pos written, Bool.false_eq_true, if_false]
              cases dimensionLabel given <;> rfl
          rw [sets?, if_pos clean]
          rfl

theorem sets?_of_dimensionFor {n : Nat} (gives : argument.dimensionFor setting = some n) :
    argument.sets? = some (.value setting) := by
  obtain ⟨value, given, read⟩ := Option.bind_eq_some_iff.mp gives
  have written : IsDimension value := readDimension_isSome_iff.mp (Option.isSome_iff_exists.mpr ⟨n, read⟩)
  exact sets?_of_valueFor (Or.inr written) given

theorem sets?_of_startMode {fullscreen : Bool} (gives : argument.startMode = some fullscreen) :
    argument.sets? = some .startMode := by
  rw [startMode_eq] at gives
  split at gives
  · next sets => rcases sets with rfl | rfl <;> decide
  · simp at gives

end Sets

/-- The units do not set the same thing. -/
def Apart (one two : Argument) : Prop :=
  ∀ topic, ¬ (one.sets? = some topic ∧ two.sets? = some topic)

end Argument

/-- The one list of units is the other in another order, but those that set the same thing keep theirs. -/
structure Reordered (one two : List Argument) : Prop where
  perm : one.Perm two
  keeps : ∀ topic, one.filter (·.sets? = some topic) = two.filter (·.sets? = some topic)

namespace Reordered

variable {one two three : List Argument}

theorem refl (units : List Argument) : Reordered units units :=
  ⟨List.Perm.refl units, fun _ => rfl⟩

theorem trans (h : Reordered one two) (h' : Reordered two three) : Reordered one three :=
  ⟨h.perm.trans h'.perm, fun topic => (h.keeps topic).trans (h'.keeps topic)⟩

/-- It is enough that all units about the same thing keep their order. -/
theorem of_topics (perm : one.Perm two)
    (keeps : ∀ topic, one.filter (·.topic? = some topic) = two.filter (·.topic? = some topic)) :
    Reordered one two := by
  refine ⟨perm, fun topic => ?_⟩
  have among : ∀ units : List Argument, units.filter (·.sets? = some topic) =
      (units.filter (·.topic? = some topic)).filter (·.problem = none) := by
    intro units
    rw [List.filter_filter]
    congr 1
    funext unit
    by_cases clean : unit.problem = none <;> simp [Argument.sets?, clean]
  rw [among, among, keeps]

theorem isComplete (h : Reordered one two) (complete : ∀ unit ∈ one, unit.IsComplete) :
    ∀ unit ∈ two, unit.IsComplete := by
  intro unit member
  apply complete
  exact h.perm.mem_iff.mpr member

/-! ### What is given comes in the same order -/

theorem filterMap_eq {α : Type} {given : Argument → Option α} {topic : Topic} (h : Reordered one two)
    (about : ∀ unit value, given unit = some value → unit.sets? = some topic) :
    one.filterMap given = two.filterMap given := by
  have among : ∀ units : List Argument,
      (units.filter (·.sets? = some topic)).filterMap given = units.filterMap given := by
    intro units
    rw [List.filterMap_filter]
    congr 1
    funext unit
    cases gives : given unit with
    | none => simp
    | some value => simp [about unit value gives]
  rw [← among one, ← among two, h.keeps]

theorem filterMap_valueFor {setting : Setting} (h : Reordered one two)
    (unlabelled : Argument.dimensionLabel setting = none) :
    one.filterMap (Argument.valueFor setting) = two.filterMap (Argument.valueFor setting) := by
  apply h.filterMap_eq
  intro unit value gives
  exact Argument.sets?_of_valueFor (Or.inl unlabelled) gives

theorem filterMap_dimensionFor (h : Reordered one two) (setting : Setting) :
    one.filterMap (Argument.dimensionFor setting) = two.filterMap (Argument.dimensionFor setting) := by
  apply h.filterMap_eq
  intro unit n gives
  exact Argument.sets?_of_dimensionFor gives

theorem filterMap_startMode (h : Reordered one two) :
    one.filterMap Argument.startMode = two.filterMap Argument.startMode := by
  apply h.filterMap_eq
  intro unit fullscreen gives
  exact Argument.sets?_of_startMode gives

/-! ### Neighbours that change places -/

/-- Two neighbours that do not set the same thing change places. -/
inductive Swap : List Argument → List Argument → Prop where
  | here {unit other : Argument} (apart : unit.Apart other) (rest : List Argument) :
      Swap (unit :: other :: rest) (other :: unit :: rest)
  | later (unit : Argument) {before after : List Argument} (swap : Swap before after) :
      Swap (unit :: before) (unit :: after)

theorem Swap.reordered (h : Swap one two) : Reordered one two := by
  induction h with
  | @here unit other apart rest =>
      refine ⟨List.Perm.swap other unit rest, fun topic => ?_⟩
      by_cases sets : unit.sets? = some topic
      · have differs : other.sets? ≠ some topic := fun same => apart topic ⟨sets, same⟩
        simp [sets, differs]
      · simp [List.filter_cons, sets]
  | later unit swap ih =>
      refine ⟨ih.perm.cons unit, fun topic => ?_⟩
      rw [List.filter_cons, List.filter_cons, ih.keeps]

theorem swaps_cons (unit : Argument) (h : ReflTransGen Swap one two) :
    ReflTransGen Swap (unit :: one) (unit :: two) :=
  h.lift (unit :: ·) fun _ _ swap => .later unit swap

/-- A unit may pass those that do not set the same thing. -/
theorem swaps_append_cons {unit : Argument} {front : List Argument} (back : List Argument)
    (apart : ∀ other ∈ front, unit.Apart other) :
    ReflTransGen Swap (unit :: (front ++ back)) (front ++ unit :: back) := by
  induction front with
  | nil => exact .refl
  | cons other rest ih =>
      obtain ⟨first, later⟩ := List.forall_mem_cons.mp apart
      apply ReflTransGen.head (.here first (rest ++ back))
      exact swaps_cons other (ih later)

/-- The first unit passes only such units on the way to its new place. -/
theorem exists_place {unit : Argument} {rest : List Argument} (h : Reordered (unit :: rest) two) :
    ∃ front back, two = front ++ unit :: back ∧ (∀ other ∈ front, unit.Apart other) ∧
      Reordered rest (front ++ back) := by
  obtain ⟨front, back, rfl, first⟩ :=
    List.eq_append_cons_of_mem (h.perm.mem_iff.mp List.mem_cons_self)
  have none : ∀ topic, unit.sets? = some topic → front.filter (·.sets? = some topic) = [] := by
    -- Else the first of them stands where the unit itself has to stand.
    intro topic sets
    have keeps := h.keeps topic
    cases found : front.filter (·.sets? = some topic) with
    | nil => rfl
    | cons other others =>
        rw [List.filter_cons_of_pos (by simpa using sets), List.filter_append, found] at keeps
        have same : unit = other := (List.cons.inj keeps).1
        have member : other ∈ front := (List.mem_filter.mp (found ▸ List.mem_cons_self)).1
        exact absurd (same ▸ member) first
  refine ⟨front, back, rfl, ?_, ?_, fun topic => ?_⟩
  · intro other member topic both
    have listed : other ∈ front.filter (·.sets? = some topic) :=
      List.mem_filter.mpr ⟨member, by simpa using both.2⟩
    rw [none topic both.1] at listed
    exact List.not_mem_nil listed
  · exact (h.perm.trans List.perm_middle).cons_inv
  · have keeps := h.keeps topic
    by_cases sets : unit.sets? = some topic
    · simpa [sets, none topic sets] using keeps
    · simpa [List.filter_cons, sets] using keeps

/-- The reorderings are what comes of letting neighbours that do not set the same thing change places. -/
theorem iff_swaps : Reordered one two ↔ ReflTransGen Swap one two := by
  constructor
  · intro h
    induction one generalizing two with
    | nil => rw [h.perm.nil_eq]
    | cons unit rest ih =>
        obtain ⟨front, back, rfl, apart, behind⟩ := h.exists_place
        exact (swaps_cons unit (ih behind)).trans (swaps_append_cons back apart)
  · intro swaps
    induction swaps with
    | refl => exact refl one
    | tail _ swap ih => exact ih.trans swap.reordered

end Reordered

/-! ### The draft and the outcome -/

namespace Draft

attribute [ext] Draft

variable {one two : List Argument} (reordered : Reordered one two) (complete : ∀ unit ∈ one, unit.IsComplete)
include reordered complete

/-- A field for which the units give the same values in the same order is the same in the end. -/
theorem field_scan_eq {α : Type} (field : Draft → α) {given : Argument → Option α}
    (step : ∀ draft argument, field (draft.after argument) = (given argument).getD (field draft))
    (same : one.filterMap given = two.filterMap given) (draft : Draft) :
    field (draft.scan (two.flatMap Argument.tokens)) =
      field (draft.scan (one.flatMap Argument.tokens)) := by
  rw [scan_of_getD field given step, scan_of_getD field given step,
    Argument.ofTokens_flatMap_tokens complete,
    Argument.ofTokens_flatMap_tokens (reordered.isComplete complete), same]

/-- The reordered units make the same draft, but for the order of the problems. -/
theorem scan_reordered (draft : Draft) :
    draft.scan (two.flatMap Argument.tokens) =
      { draft.scan (one.flatMap Argument.tokens) with
        problems := draft.problems ++ two.filterMap Argument.problem } := by
  have cutOne := Argument.ofTokens_flatMap_tokens complete
  have cutTwo := Argument.ofTokens_flatMap_tokens (reordered.isComplete complete)
  ext1
  case server =>
    exact field_scan_eq reordered complete server (fun _ _ => rfl) (reordered.filterMap_valueFor rfl) draft
  case path =>
    exact field_scan_eq reordered complete path (fun _ _ => rfl) (reordered.filterMap_valueFor rfl) draft
  case title =>
    exact field_scan_eq reordered complete title (fun _ _ => rfl) (reordered.filterMap_valueFor rfl) draft
  case width =>
    exact field_scan_eq reordered complete width (fun _ _ => rfl) (reordered.filterMap_dimensionFor .width) draft
  case height =>
    exact field_scan_eq reordered complete height (fun _ _ => rfl) (reordered.filterMap_dimensionFor .height) draft
  case fullscreen =>
    exact field_scan_eq reordered complete fullscreen (fun _ _ => rfl) reordered.filterMap_startMode draft
  case showMenu =>
    rw [Bool.eq_iff_iff, scan_showMenu, scan_showMenu, cutOne, cutTwo]
    simp only [reordered.perm.mem_iff]
  case help =>
    rw [Bool.eq_iff_iff, scan_help, scan_help, cutOne, cutTwo]
    simp only [reordered.perm.mem_iff]
  case problems => rw [scan_problems, cutTwo]

end Draft

/-- What is wrong with the variables of the environment, whatever the arguments are. -/
def variableProblems (env : Environment) : List Problem :=
  (environmentProblem env .width).toList ++ (environmentProblem env .height).toList

/-- The server is refused for one reason or for none. -/
theorem exists_serverProblem_eq (text : String) :
    ∃ refused : Option AddressError, serverProblem text = refused.map Problem.address := by
  unfold serverProblem
  cases Address.normalize text with
  | ok address => exact ⟨none, rfl⟩
  | error error => exact ⟨some error, rfl⟩

/-- What is expected to be wrong with complete units in any such order. -/
theorem exists_expectedProblems_reordered {one : List Argument} (complete : ∀ unit ∈ one, unit.IsComplete)
    (env : Environment) :
    ∃ refused : Option AddressError, ∀ two, Reordered one two →
      expectedProblems (two.flatMap Argument.tokens) env =
        variableProblems env ++ two.filterMap Argument.problem ++ (refused.map Problem.address).toList := by
  obtain ⟨refused, same⟩ := exists_serverProblem_eq
    (effectiveText .server (one.flatMap Argument.tokens) env)
  refine ⟨refused, fun two reordered => ?_⟩
  have cutTwo := Argument.ofTokens_flatMap_tokens (reordered.isComplete complete)
  rw [effectiveText, Argument.ofTokens_flatMap_tokens complete,
    reordered.filterMap_valueFor rfl, ← cutTwo] at same
  rw [expectedProblems, effectiveText, same, cutTwo]
  rfl

/-- The order of complete units matters only for those that set the same thing. Units reordered without changing
the order of these ask for help if they did before and give the same settings. When the client is refused, what is
wrong with the variables comes first as before, then what is wrong with the units in the new order of the units,
and the server is refused for the same reason or for none. -/
theorem resolve_reordered {one two : List Argument} (complete : ∀ unit ∈ one, unit.IsComplete)
    (reordered : Reordered one two) (env : Environment) :
    (resolve (one.flatMap Argument.tokens) env = .help → resolve (two.flatMap Argument.tokens) env = .help) ∧
    (∀ settings, resolve (one.flatMap Argument.tokens) env = .ready settings →
      resolve (two.flatMap Argument.tokens) env = .ready settings) ∧
    ∀ problems, resolve (one.flatMap Argument.tokens) env = .rejected problems →
      ∃ server : Option AddressError,
        problems = variableProblems env ++ one.filterMap Argument.problem ++
          (server.map Problem.address).toList ∧
        resolve (two.flatMap Argument.tokens) env = .rejected
          (variableProblems env ++ two.filterMap Argument.problem ++
            (server.map Problem.address).toList) := by
  have cutOne := Argument.ofTokens_flatMap_tokens complete
  have cutTwo := Argument.ofTokens_flatMap_tokens (reordered.isComplete complete)
  refine ⟨?help, ?ready, ?rejected⟩
  case help =>
    rw [resolve_eq_help_iff_asksForHelp, resolve_eq_help_iff_asksForHelp, cutOne, cutTwo]
    rintro ⟨unit, member, asks⟩
    exact ⟨unit, reordered.perm.mem_iff.mp member, asks⟩
  case ready =>
    intro settings ready
    -- Where nothing is wrong there are no problems to be put in another order.
    have clean : ∀ unit ∈ one, unit.problem = none := by
      rw [← cutOne]
      exact (clean_of_resolve ready).2.2
    have order : two.filterMap Argument.problem = one.filterMap Argument.problem := by
      rw [List.filterMap_eq_nil_iff.mpr clean, List.filterMap_eq_nil_iff]
      intro unit member
      exact clean unit (reordered.perm.mem_iff.mpr member)
    have problems := Draft.scan_problems (Draft.ofEnvironment env) (one.flatMap Argument.tokens)
    have same := Draft.scan_reordered reordered complete (Draft.ofEnvironment env)
    rw [cutOne, ← order] at problems
    rw [← problems] at same
    rw [← ready, resolve, resolve, same]
  case rejected =>
    intro problems rejected
    obtain ⟨noHelp, wrong, rfl⟩ := resolve_eq_rejected_iff.mp rejected
    obtain ⟨server, expected⟩ := exists_expectedProblems_reordered complete env
    have before := expected one (.refl one)
    have after := expected two reordered
    have perm : (expectedProblems (one.flatMap Argument.tokens) env).Perm
        (expectedProblems (two.flatMap Argument.tokens) env) := by
      rw [before, after]
      apply List.Perm.append_right
      apply List.Perm.append_left
      exact reordered.perm.filterMap Argument.problem
    refine ⟨server, before, ?_⟩
    rw [← after, resolve_eq_rejected_iff]
    refine ⟨?_, fun clean => wrong (clean ▸ perm).eq_nil, rfl⟩
    intro unit member
    rw [cutTwo] at member
    apply noHelp
    rw [cutOne]
    exact reordered.perm.mem_iff.mpr member

/-- A width that is refused may pass one that is not, the servers keep their order and so do the two ways to start,
and one of the two complaints about units goes before the other instead of behind it. -/
theorem resolve_reordered_of_refused_width :
    let env : Environment := fun name => if name = "FLAPPYBINGUS_CLIENT_HEIGHT" then some "tall" else none
    resolve ["--width", "0", "--server", "a", "--nope", "--fullscreen", "--width", "800", "--windowed",
        "--server", "ftp://b"] env =
      .rejected [.notPositive "FLAPPYBINGUS_CLIENT_HEIGHT", .notPositive "Width", .unknownOption "--nope",
        .address .unknownScheme] ∧
    resolve ["--fullscreen", "--server", "a", "--windowed", "--width", "800", "--server", "ftp://b", "--nope",
        "--width", "0"] env =
      .rejected [.notPositive "FLAPPYBINGUS_CLIENT_HEIGHT", .unknownOption "--nope", .notPositive "Width",
        .address .unknownScheme] := by
  intro env
  let one : List Argument := [.option .width (some "0"), .option .server (some "a"), .single "--nope",
    .single "--fullscreen", .option .width (some "800"), .single "--windowed", .option .server (some "ftp://b")]
  let two : List Argument := [.single "--fullscreen", .option .server (some "a"), .single "--windowed",
    .option .width (some "800"), .option .server (some "ftp://b"), .single "--nope", .option .width (some "0")]
  have complete : ∀ unit ∈ one, unit.IsComplete := by decide
  have reordered : Reordered one two := by
    refine ⟨by decide, fun topic => ?_⟩
    cases topic with
    | value setting => cases setting <;> decide
    | startMode => decide
  have rejected : resolve (one.flatMap Argument.tokens) env =
      .rejected [.notPositive "FLAPPYBINGUS_CLIENT_HEIGHT", .notPositive "Width", .unknownOption "--nope",
        .address .unknownScheme] := by decide
  obtain ⟨server, problems, after⟩ := (resolve_reordered complete reordered env).2.2 _ rejected
  have first : variableProblems env = [.notPositive "FLAPPYBINGUS_CLIENT_HEIGHT"] := by decide
  have unitsOne : one.filterMap Argument.problem = [.notPositive "Width", .unknownOption "--nope"] := by decide
  have unitsTwo : two.filterMap Argument.problem = [.unknownOption "--nope", .notPositive "Width"] := by decide
  rw [first, unitsOne] at problems
  rw [first, unitsTwo] at after
  cases server with
  | none => simp at problems
  | some refused =>
      have unknown : refused = .unknownScheme := by simpa [eq_comm] using problems
      rw [unknown] at after
      exact ⟨rejected, after⟩

end GameClient
