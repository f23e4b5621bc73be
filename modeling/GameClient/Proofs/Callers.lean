import Mathlib.Data.List.Basic
import Mathlib.Logic.Relation
import GameClient.Proofs.Worker
import GameClient.Startup
/-!
Callers of a startup that take turns. To set the mark and to run the startup action are two steps, so that others may
come in between, and a startup action makes calls of its own, one step at a time. `Move` has one case for each thing
that a caller can do next. All calls can be brought to their end, and a caller that has nobody beside it finds what
its calls find when they are answered one after the other.
-/

namespace GameClient

namespace StartupCall

mutual

/-- A bound for the steps that a call takes, with the calls inside it. -/
def left : StartupCall → Nat
  | .isBegun => 1
  | .start action => leftAll action + 3

/-- A bound for the steps that calls take. -/
def leftAll : List StartupCall → Nat
  | [] => 0
  | first :: rest => first.left + leftAll rest

end

end StartupCall

namespace StartupAnswer

mutual

/-- The answers that callers get, in the order in which they get them: a request that wins gets its own after those
inside it. -/
def given : StartupAnswer → List Bool
  | .isBegun answer => [answer]
  | .lost => [false]
  | .won inside => givenAll inside ++ [true]

/-- The answers that callers get from several calls. -/
def givenAll : List StartupAnswer → List Bool
  | [] => []
  | first :: rest => first.given ++ givenAll rest

end

end StartupAnswer

namespace Startup

/-- Sets the mark, if nobody has. -/
def mark (state : Startup) : Startup :=
  { state with begun := true }

/-- Counts a run of a startup action. -/
def enter (state : Startup) : Startup :=
  { state with count := state.count + 1 }

theorem begin_eq (state : Startup) : state.begin = state.mark.enter :=
  rfl

/-- What a caller has to do next. A request bears a number from the moment at which it tries to set the mark. -/
inductive Task where
  /-- It makes a call. -/
  | call (call : StartupCall)
  /-- Its request has set the mark, and it begins the startup action. -/
  | enter (request : Nat) (action : List StartupCall)
  /-- It returns from the request with this answer. -/
  | answer (request : Nat) (answer : Bool)

/-- What can be seen of a step. -/
inductive Notice where
  /-- The mark was asked for. -/
  | asked (answer : Bool)
  /-- A request tried to set the mark, inside a startup action or not, and did so or found it set. -/
  | tried (request : Nat) (inside won : Bool)
  /-- The startup action of a request began to run. -/
  | entered (request : Nat)
  /-- A request was answered. -/
  | answered (request : Nat) (answer : Bool)
deriving Repr, DecidableEq

namespace Task

/-- The task comes after the calls of a startup action. -/
def endsAction : Task → Bool
  | .answer _ given => given
  | .call _ | .enter _ _ => false

/-- A bound for the steps that a task can lead to. -/
def left : Task → Nat
  | .call made => made.left
  | .enter _ action => StartupCall.leftAll action + 2
  | .answer _ _ => 1

/-- A bound for the steps that tasks can lead to. -/
def leftAll : List Task → Nat
  | [] => 0
  | first :: rest => first.left + leftAll rest

theorem leftAll_append (before after : List Task) :
    leftAll (before ++ after) = leftAll before + leftAll after := by
  induction before with
  | nil => simp [leftAll]
  | cons first rest ih => simp [leftAll, ih, Nat.add_assoc]

theorem leftAll_map_call (calls : List StartupCall) :
    leftAll (calls.map .call) = StartupCall.leftAll calls := by
  induction calls with
  | nil => rfl
  | cons first rest ih =>
      rw [List.map_cons, leftAll, ih]
      rfl

end Task

/-- The answer that a caller has got, if it has got one. -/
def Notice.answer? : Notice → Option Bool
  | .asked answer | .answered _ answer => some answer
  | .tried _ _ _ | .entered _ => none

/-- The calls that a caller has still to make are inside a startup action. -/
def isInside (rest : List Task) : Bool :=
  rest.any Task.endsAction

/-- What a caller with these tasks does next, if this is the number of the next request. -/
inductive Move (number : Nat) : Startup → List Task → Startup → List Task → Notice → Prop where
  /-- It asks whether the mark is set. -/
  | ask {shared : Startup} {rest : List Task} :
      Move number shared (.call .isBegun :: rest) shared rest (.asked shared.begun)
  /-- It finds no mark and sets it, in one step. -/
  | win {shared : Startup} {action : List StartupCall} {rest : List Task}
      (unmarked : shared.begun = false) :
      Move number shared (.call (.start action) :: rest) shared.mark (.enter number action :: rest)
        (.tried number (isInside rest) true)
  /-- It finds the mark set. -/
  | lose {shared : Startup} {action : List StartupCall} {rest : List Task}
      (marked : shared.begun = true) :
      Move number shared (.call (.start action) :: rest) shared (.answer number false :: rest)
        (.tried number (isInside rest) false)
  /-- It begins the startup action, the calls of which come before the answer. -/
  | enter {shared : Startup} {request : Nat} {action : List StartupCall} {rest : List Task} :
      Move number shared (.enter request action :: rest) shared.enter
        (action.map .call ++ .answer request true :: rest) (.entered request)
  /-- It returns from a request. -/
  | answer {shared : Startup} {request : Nat} {answer : Bool} {rest : List Task} :
      Move number shared (.answer request answer :: rest) shared rest (.answered request answer)

section Move

variable {number : Nat} {shared next : Startup} {mine left : List Task} {notice : Notice}

theorem Move.left_lt (moves : Move number shared mine next left notice) :
    Task.leftAll left < Task.leftAll mine := by
  cases moves with
  | ask => simp [Task.leftAll, Task.left, StartupCall.left]
  | win unmarked => simp [Task.leftAll, Task.left, StartupCall.left]
  | lose marked =>
      simp only [Task.leftAll, Task.left, StartupCall.left]
      omega
  | enter =>
      simp only [Task.leftAll_append, Task.leftAll_map_call, Task.leftAll, Task.left]
      omega
  | answer => simp [Task.leftAll, Task.left]

theorem Move.exists_of_cons (number : Nat) (shared : Startup) (task : Task) (rest : List Task) :
    ∃ next left notice, Move number shared (task :: rest) next left notice := by
  cases task with
  | call made =>
      cases made with
      | isBegun => exact ⟨_, _, _, .ask⟩
      | start action =>
          cases begun : shared.begun with
          | false => exact ⟨_, _, _, .win begun⟩
          | true => exact ⟨_, _, _, .lose begun⟩
  | enter request action => exact ⟨_, _, _, .enter⟩
  | answer request given => exact ⟨_, _, _, .answer⟩

/-- What a caller with these tasks finds, if nobody comes in between: the answers, and what is shared in the end. -/
def foretold (shared : Startup) : List Task → List Bool × Startup
  | [] => ([], shared)
  | .call made :: rest =>
    let one := shared.call made
    let others := foretold one.2 rest
    (one.1.given ++ others.1, others.2)
  | .enter _ action :: rest =>
    let inside := callAll shared.enter action
    let others := foretold inside.2 rest
    (StartupAnswer.givenAll inside.1 ++ true :: others.1, others.2)
  | .answer _ given :: rest =>
    let others := foretold shared rest
    (given :: others.1, others.2)

theorem foretold_map_call_append (shared : Startup) (calls : List StartupCall) (rest : List Task) :
    foretold shared (calls.map .call ++ rest) =
      (StartupAnswer.givenAll (callAll shared calls).1 ++ (foretold (callAll shared calls).2 rest).1,
        (foretold (callAll shared calls).2 rest).2) := by
  induction calls generalizing shared with
  | nil => simp [callAll, StartupAnswer.givenAll]
  | cons first others ih =>
      simp only [List.map_cons, List.cons_append, foretold, ih, callAll, StartupAnswer.givenAll,
        List.append_assoc]

theorem Move.foretold_eq (moves : Move number shared mine next left notice) :
    foretold shared mine =
      (notice.answer?.toList ++ (foretold next left).1, (foretold next left).2) := by
  cases moves with
  | ask => rfl
  | win unmarked =>
      simp [foretold, call, unmarked, begin_eq, StartupAnswer.given, Notice.answer?]
  | lose marked => simp [foretold, call, marked, StartupAnswer.given, Notice.answer?]
  | enter => simp [foretold_map_call_append, foretold, Notice.answer?]
  | answer => rfl

end Move

/-- Callers at one moment: what they share, what each of them has still to do, and all that could be seen so far. -/
structure Callers where
  shared : Startup := {}
  tasks : List (List Task)
  history : List Notice := []

namespace Callers

/-- Callers, each with the calls that it is going to make. -/
def start (calls : List (List StartupCall)) : Callers where
  tasks := calls.map fun own => own.map .call

/-- One of the callers makes a move. -/
inductive Step : Callers → Callers → Prop where
  | turn {callers : Callers} {before after : List (List Task)} {mine left : List Task} {shared : Startup}
      {notice : Notice} (tasks : callers.tasks = before ++ mine :: after)
      (moves : Move callers.history.length callers.shared mine shared left notice) :
      Step callers
        { shared := shared
          tasks := before ++ left :: after
          history := callers.history ++ [notice] }

/-- Some interleaving of the callers leads from one moment to the other. -/
def Reaches : Callers → Callers → Prop :=
  Relation.ReflTransGen Step

/-- Nobody has anything left to do. -/
def Done (callers : Callers) : Prop :=
  ∀ mine ∈ callers.tasks, mine = []

variable {callers next last : Callers}

theorem Step.history_prefix (step : Step callers next) : callers.history <+: next.history := by
  cases step with
  | turn tasks moves => exact List.prefix_append _ _

/-- What has been seen stays seen. -/
theorem Reaches.history_prefix (run : Reaches callers last) : callers.history <+: last.history := by
  induction run with
  | refl => exact List.prefix_rfl
  | tail _ step ih => exact ih.trans step.history_prefix

/-! ### The end -/

/-- A bound for the steps that callers can still take. -/
def left (callers : Callers) : Nat :=
  Task.leftAll callers.tasks.flatten

theorem Step.left_lt (step : Step callers next) : next.left < callers.left := by
  obtain ⟨tasks, moves⟩ := step
  have less := moves.left_lt
  simp only [left, tasks, List.flatten_append, List.flatten_cons, Task.leftAll_append]
  omega

theorem exists_step (busy : ¬ callers.Done) : ∃ next, Step callers next := by
  simp only [Done, not_forall] at busy
  obtain ⟨mine, member, more⟩ := busy
  obtain ⟨before, after, tasks⟩ := List.append_of_mem member
  obtain ⟨task, rest, rfl⟩ := List.exists_cons_of_ne_nil more
  obtain ⟨_, _, _, moves⟩ := Move.exists_of_cons callers.history.length callers.shared task rest
  exact ⟨_, .turn tasks moves⟩

/-- All calls can be brought to their end. -/
theorem exists_done (callers : Callers) : ∃ last, Reaches callers last ∧ last.Done :=
  exists_reaches_end left (fun step => step.left_lt) (fun _ _ => trivial) (fun _ busy => exists_step busy)
    (trivial : True)

/-! ### A caller for itself -/

/-- All answers that callers have got, the oldest first. -/
def answers (callers : Callers) : List Bool :=
  callers.history.filterMap Notice.answer?

/-- No step of a lone caller changes what it is going to find in the end. -/
theorem Step.foretold_eq (step : Step callers next) {own : List Task} (alone : callers.tasks = [own]) :
    ∃ rest, next.tasks = [rest] ∧
      (callers.answers ++ (foretold callers.shared own).1, (foretold callers.shared own).2) =
        (next.answers ++ (foretold next.shared rest).1, (foretold next.shared rest).2) := by
  cases step with
  | @turn before after mine left shared notice tasks moves =>
      rw [alone] at tasks
      obtain ⟨rfl, same⟩ | ⟨_, _, nothing⟩ := List.cons_eq_append_iff.mp tasks
      · obtain ⟨rfl, rfl⟩ := List.cons.inj same
        refine ⟨left, rfl, ?_⟩
        rw [moves.foretold_eq]
        cases seen : notice.answer? <;> simp [answers, seen]
      · simp at nothing

theorem foretold_of_reaches {own : List StartupCall} (run : Reaches (start [own]) callers) :
    ∃ rest, callers.tasks = [rest] ∧
      (callers.answers ++ (foretold callers.shared rest).1, (foretold callers.shared rest).2) =
        foretold {} (own.map .call) := by
  induction run with
  | refl => exact ⟨_, rfl, rfl⟩
  | tail _ step ih =>
      obtain ⟨rest, alone, same⟩ := ih
      obtain ⟨left, still, keeps⟩ := step.foretold_eq alone
      exact ⟨left, still, keeps.symm.trans same⟩

/-- A caller that has nobody beside it finds what its calls find when they are answered one after the other. -/
theorem alone_of_reaches {own : List StartupCall} (run : Reaches (start [own]) callers)
    (done : callers.Done) :
    callers.answers = StartupAnswer.givenAll (callAll {} own).1 ∧ callers.shared = (callAll {} own).2 := by
  obtain ⟨rest, alone, same⟩ := foretold_of_reaches run
  have nothing : rest = [] := done rest (by simp [alone])
  have whole := foretold_map_call_append {} own []
  rw [List.append_nil, ← same, nothing] at whole
  simpa [foretold] using whole

end Callers

end Startup

end GameClient
