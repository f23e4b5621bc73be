import Mathlib.Logic.Relation
import GameClient.Render.Worker
/-!
A worker keeps its account: what it has done and what still waits for it are all that was submitted, in
that order, unless a job crashed; then it has done just what was submitted before that job. What takes steps
that leave less and less comes to its end.
-/

namespace GameClient

/-- Where every step leaves less, and something sound stays so and can take a step until it has ended, the
end can be reached. -/
theorem exists_reaches_end {State : Type} {Step : State → State → Prop} {Sound Ended : State → Prop}
    (left : State → Nat) (falls : ∀ {state next}, Step state next → left next < left state)
    (stays : ∀ {state next}, Sound state → Step state next → Sound next)
    (goesOn : ∀ {state}, Sound state → ¬ Ended state → ∃ next, Step state next) {state : State}
    (sound : Sound state) : ∃ last, Relation.ReflTransGen Step state last ∧ Ended last := by
  induction bound : left state using Nat.strongRecOn generalizing state with
  | ind n ih =>
      by_cases ended : Ended state
      · exact ⟨state, .refl, ended⟩
      · obtain ⟨next, step⟩ := goesOn sound ended
        obtain ⟨last, run, atEnd⟩ := ih (left next) (bound ▸ falls step) (stays sound step) rfl
        exact ⟨last, .head step run, atEnd⟩

/-- The job does something and does not crash. -/
def Job.isAct {α : Type} : Job α → Bool
  | .act _ => true
  | .crash => false

namespace Worker

variable {α : Type}

/-- Jobs do what those before the first crash say. -/
theorem map_act_effects (jobs : List (Job α)) :
    (effects jobs).map .act = jobs.takeWhile Job.isAct := by
  induction jobs with
  | nil => rfl
  | cons job rest ih =>
      cases job with
      | act effect => simp [effects, List.takeWhile_cons, Job.isAct, ih]
      | crash => simp [effects, Job.isAct]

theorem effects_map_act_append (done : List α) (jobs : List (Job α)) :
    effects (done.map .act ++ jobs) = done ++ effects jobs := by
  induction done with
  | nil => rfl
  | cons effect rest ih => simp [effects, ih]

theorem effects_map_act (done : List α) : effects (done.map .act) = done := by
  simpa [effects] using effects_map_act_append done []

/-- The jobs are all that was submitted to the worker: those that it has done, then those that wait. If it
has died, nothing waits, and a job that crashed follows those that it has done. -/
def Serves (worker : Worker α) (jobs : List (Job α)) : Prop :=
  (worker.alive = true ∧ jobs = worker.done.map .act ++ worker.waiting) ∨
    (worker.alive = false ∧ worker.waiting = [] ∧
      ∃ lost, jobs = worker.done.map .act ++ .crash :: lost)

variable {worker next : Worker α} {jobs : List (Job α)}

/-- What a worker has done is where the submitted jobs begin. -/
theorem Serves.done_prefix (h : worker.Serves jobs) : worker.done.map .act <+: jobs := by
  rcases h with ⟨_, account⟩ | ⟨_, _, lost, account⟩
  · exact ⟨worker.waiting, account.symm⟩
  · exact ⟨.crash :: lost, account.symm⟩

/-- A worker for which nothing waits is alive if no job crashes. -/
theorem Serves.alive_eq (h : worker.Serves jobs) (empty : worker.waiting = []) :
    worker.alive = jobs.all Job.isAct := by
  rcases h with ⟨alive, account⟩ | ⟨dead, _, lost, account⟩
  · simp [alive, account, empty, Job.isAct]
  · simp [dead, account, Job.isAct]

theorem Serves.submit (h : worker.Serves jobs) (job : Job α) :
    (worker.submit job).Serves (jobs ++ [job]) := by
  unfold Worker.submit
  rcases h with ⟨alive, account⟩ | ⟨dead, empty, lost, account⟩
  · rw [if_pos alive]
    exact Or.inl ⟨alive, by rw [account, List.append_assoc]⟩
  · rw [if_neg (by simp [dead])]
    exact Or.inr ⟨dead, empty, lost ++ [job], by rw [account, List.append_assoc, List.cons_append]⟩

/-- Submitting a job does nothing yet. -/
@[simp] theorem done_submit (worker : Worker α) (job : Job α) :
    (worker.submit job).done = worker.done := by
  unfold Worker.submit
  cases worker.alive <;> rfl

theorem length_waiting_submit (worker : Worker α) (job : Job α) :
    (worker.submit job).waiting.length ≤ worker.waiting.length + 1 := by
  unfold Worker.submit
  cases worker.alive <;> simp

/-- What a step can be: the oldest job is done, or it crashes. -/
theorem step_eq_some_iff :
    worker.step = some next ↔ worker.alive = true ∧
      ((∃ effect rest, worker.waiting = .act effect :: rest ∧
          next = { worker with waiting := rest, done := worker.done ++ [effect] }) ∨
        ∃ rest, worker.waiting = .crash :: rest ∧
          next = { worker with waiting := [], alive := false }) := by
  obtain ⟨name, waiting, done, alive⟩ := worker
  cases alive with
  | false => simp [step]
  | true =>
      cases waiting with
      | nil => simp [step]
      | cons job rest => cases job <;> simp [step, eq_comm, and_assoc]

theorem length_waiting_of_step (taken : worker.step = some next) :
    next.waiting.length < worker.waiting.length := by
  obtain ⟨_, ⟨effect, rest, waiting, rfl⟩ | ⟨rest, waiting, rfl⟩⟩ := step_eq_some_iff.mp taken
  all_goals simp [waiting]

theorem Serves.step (h : worker.Serves jobs) (taken : worker.step = some next) :
    next.Serves jobs := by
  obtain ⟨alive, ⟨effect, rest, waiting, rfl⟩ | ⟨rest, waiting, rfl⟩⟩ := step_eq_some_iff.mp taken
  all_goals
    rcases h with ⟨_, account⟩ | ⟨dead, _⟩
    case inr => simp [alive] at dead
    rw [waiting] at account
  · exact Or.inl ⟨alive, by simp [account]⟩
  · exact Or.inr ⟨rfl, rfl, rest, account⟩

/-- A worker to which only effects were submitted never crashes: if it can take a step, the oldest job is an
effect, and it is done. -/
theorem Serves.step_act {submitted : List α} (h : worker.Serves (submitted.map .act))
    (taken : worker.step = some next) :
    ∃ effect rest, worker.waiting = .act effect :: rest ∧
      next = { worker with waiting := rest, done := worker.done ++ [effect] } := by
  obtain ⟨alive, acted | ⟨rest, waiting, _⟩⟩ := step_eq_some_iff.mp taken
  · exact acted
  · rcases h with ⟨_, account⟩ | ⟨dead, _⟩
    · have crash : Job.crash ∈ submitted.map .act := by
        rw [account, waiting]
        simp
      simp at crash
    · simp [alive] at dead

/-- A worker that can do nothing more has done all that there was to do. -/
theorem Serves.done_of_step_eq_none (h : worker.Serves jobs) (idle : worker.step = none) :
    worker.done = effects jobs := by
  rcases h with ⟨alive, account⟩ | ⟨_, _, lost, account⟩
  · have empty : worker.waiting = [] := by
      cases waiting : worker.waiting with
      | nil => rfl
      | cons job rest => cases job <;> simp [Worker.step, alive, waiting] at idle
    rw [account, effects_map_act_append, empty]
    simp [effects]
  · rw [account, effects_map_act_append]
    simp [effects]

end Worker

end GameClient
