import Mathlib.Data.List.Infix
import Mathlib.Logic.Relation
import GameClient.Proofs.Worker
/-!
An executor: a worker together with its owner. The owner submits jobs and then gives the executor up, which
closes the queue and waits for the thread; meanwhile the thread takes jobs and runs them. `Step` has one case
for each moment at which the other side could notice something, so that a job may be sent before, during or
after the crash of another one. Seen from afar an executor is a worker, and every step of it is a submission, a
step of that worker, or nothing; so the account of a worker is the account of an executor.
-/

namespace GameClient

/-- What the thread of an executor is doing. -/
inductive ThreadPhase (α : Type) where
  /-- It waits for a job. -/
  | waiting
  /-- It has taken a job and runs it. -/
  | running (job : Job α)
  /-- A job has crashed, and the thread still has its end of the queue. -/
  | unwinding
  /-- It has ended, by a crash or because there was nothing left to do. -/
  | ended (crashed : Bool)
deriving Repr, DecidableEq

/-- A bound for the steps of a thread with the job that it has. -/
def ThreadPhase.left {α : Type} : ThreadPhase α → Nat
  | .waiting | .unwinding => 1
  | .running _ => 3
  | .ended _ => 0

/-- How an owner gives its executor up. -/
inductive Ending where
  /-- By a call, at whose end the executor is dropped. -/
  | shutdown
  /-- By dropping it. -/
  | drop
deriving Repr, DecidableEq

/-- How often the executor is stopped again after it has been stopped once. -/
def Ending.stopsAgain : Ending → Nat
  | .shutdown => 1
  | .drop => 0

/-- What the owner of an executor is doing. -/
inductive OwnerPhase (α : Type) where
  /-- It has these jobs to submit and then gives the executor up. -/
  | submitting (ahead : List (Job α)) (ending : Ending)
  /-- It stops the executor: it lets go of its end of the queue. -/
  | closing (stopsAgain : Nat)
  /-- It goes on stopping the executor: it waits for the thread. -/
  | joining (stopsAgain : Nat)
  /-- It has given the executor up. -/
  | returned
deriving Repr, DecidableEq

namespace OwnerPhase

variable {α : Type}

/-- The jobs that are yet to be submitted. -/
def ahead : OwnerPhase α → List (Job α)
  | .submitting jobs _ => jobs
  | .closing _ | .joining _ | .returned => []

/-- What the owner does after it has stopped the executor. -/
def afterStop : Nat → OwnerPhase α
  | 0 => .returned
  | stopsAgain + 1 => .closing stopsAgain

/-- A bound for the steps of an owner, each job counted for itself and for the steps of the thread with
it. -/
def left : OwnerPhase α → Nat
  | .submitting jobs ending => 4 * jobs.length + 2 * ending.stopsAgain + 3
  | .closing stopsAgain => 2 * stopsAgain + 2
  | .joining stopsAgain => 2 * stopsAgain + 1
  | .returned => 0

theorem left_afterStop (stopsAgain : Nat) :
    (afterStop stopsAgain : OwnerPhase α).left ≤ 2 * stopsAgain := by
  cases stopsAgain with
  | zero => exact Nat.le_refl _
  | succ stopsAgain => exact Nat.le_refl _

theorem ahead_afterStop (stopsAgain : Nat) :
    (afterStop stopsAgain : OwnerPhase α).ahead = [] := by
  cases stopsAgain <;> rfl

end OwnerPhase

/-- An executor at one moment. -/
@[ext] structure Executor (α : Type) where
  name : String
  threadName : String
  owner : OwnerPhase α
  /-- The owner has its end of the queue. -/
  hasSender : Bool := true
  /-- The owner has not waited for the thread yet. -/
  hasHandle : Bool := true
  thread : ThreadPhase α := .waiting
  queue : List (Job α) := []
  /-- All jobs that were submitted, also those that were dropped. -/
  submitted : List (Job α) := []
  /-- What has been done, each effect with the name of the thread on which it took place. -/
  done : List (α × String) := []
deriving Repr, DecidableEq

namespace Executor

variable {α : Type}

/-- A new executor of an owner with these jobs. The thread bears the name of the executor. -/
def start (name : String) (jobs : List (Job α)) (ending : Ending) : Executor α where
  name := name
  threadName := name
  owner := .submitting jobs ending

/-- A job that is sent reaches the queue if both ends of it are there. -/
def delivers (executor : Executor α) : Bool :=
  executor.hasSender &&
    match executor.thread with
    | .ended _ => false
    | .waiting | .running _ | .unwinding => true

/-- The owner sends a job. -/
def send (executor : Executor α) (job : Job α) : Executor α :=
  { executor with
    submitted := executor.submitted ++ [job]
    queue := if executor.delivers then executor.queue ++ [job] else executor.queue }

/-- A step of the owner or of the thread. -/
inductive Step : Executor α → Executor α → Prop where
  /-- The owner submits the next job. -/
  | submit {executor : Executor α} {job : Job α} {rest : List (Job α)} {ending : Ending}
      (owner : executor.owner = .submitting (job :: rest) ending) :
      Step executor { executor.send job with owner := .submitting rest ending }
  /-- The owner has no more jobs and begins to give the executor up. -/
  | giveUp {executor : Executor α} {ending : Ending}
      (owner : executor.owner = .submitting [] ending) :
      Step executor { executor with owner := .closing ending.stopsAgain }
  /-- The owner lets go of its end of the queue, if it still has it. -/
  | close {executor : Executor α} {stopsAgain : Nat}
      (owner : executor.owner = .closing stopsAgain) :
      Step executor { executor with hasSender := false, owner := .joining stopsAgain }
  /-- The owner has waited for the end of the thread. -/
  | join {executor : Executor α} {stopsAgain : Nat} {crashed : Bool}
      (owner : executor.owner = .joining stopsAgain) (handle : executor.hasHandle = true)
      (ended : executor.thread = .ended crashed) :
      Step executor { executor with hasHandle := false, owner := .afterStop stopsAgain }
  /-- The owner has waited before and does not wait again. -/
  | pass {executor : Executor α} {stopsAgain : Nat}
      (owner : executor.owner = .joining stopsAgain) (noHandle : executor.hasHandle = false) :
      Step executor { executor with owner := .afterStop stopsAgain }
  /-- The thread takes the oldest job. -/
  | receive {executor : Executor α} {job : Job α} {rest : List (Job α)}
      (thread : executor.thread = .waiting) (queue : executor.queue = job :: rest) :
      Step executor { executor with thread := .running job, queue := rest }
  /-- The thread does what its job says. -/
  | act {executor : Executor α} {effect : α} (thread : executor.thread = .running (.act effect)) :
      Step executor
        { executor with
          thread := .waiting
          done := executor.done ++ [(effect, executor.threadName)] }
  /-- The job of the thread crashes. -/
  | crash {executor : Executor α} (thread : executor.thread = .running .crash) :
      Step executor { executor with thread := .unwinding }
  /-- The thread ends after a crash, and the jobs in the queue are dropped. -/
  | abandon {executor : Executor α} (thread : executor.thread = .unwinding) :
      Step executor { executor with thread := .ended true, queue := [] }
  /-- The thread ends because nothing is in the queue and nothing can be sent any more. -/
  | finish {executor : Executor α} (thread : executor.thread = .waiting)
      (empty : executor.queue = []) (noSender : executor.hasSender = false) :
      Step executor { executor with thread := .ended false }

/-- Some interleaving of the owner and the thread leads from one executor to the other. -/
def Reaches : Executor α → Executor α → Prop :=
  Relation.ReflTransGen Step

/-! ### The worker that an executor is -/

/-- The executor as a worker: the job that is being run has not been taken yet, and the jobs behind one that
has crashed are gone already. -/
def toWorker (executor : Executor α) : Worker α where
  name := executor.name
  done := executor.done.map Prod.fst
  waiting :=
    match executor.thread with
    | .waiting => executor.queue
    | .running job => job :: executor.queue
    | .unwinding | .ended _ => []
  alive :=
    match executor.thread with
    | .waiting | .running _ => true
    | .unwinding => false
    | .ended crashed => !crashed

/-- The owner has its end of the queue as long as it submits jobs. It lets go of it before it waits for the
thread, and it has waited when it has given the executor up. -/
def OwnerHolds (executor : Executor α) : Prop :=
  match executor.owner with
  | .submitting _ _ => executor.hasSender = true
  | .closing _ => True
  | .joining _ => executor.hasSender = false
  | .returned => executor.hasSender = false ∧ executor.hasHandle = false

/-- A thread that has ended has nothing in its queue, and without a crash nothing can be sent to it any
more. As long as it has not ended, nobody has waited for it. -/
def ThreadHolds (executor : Executor α) : Prop :=
  match executor.thread with
  | .ended crashed => executor.queue = [] ∧ (crashed = false → executor.hasSender = false)
  | .waiting | .running _ | .unwinding => executor.hasHandle = true

/-- What holds of an executor with this name at every moment, if these are all the jobs of its owner. -/
structure Sound (name : String) (jobs : List (Job α)) (executor : Executor α) : Prop where
  name_eq : executor.name = name
  threadName_eq : executor.threadName = name
  on_thread : ∀ entry ∈ executor.done, entry.2 = name
  jobs_eq : jobs = executor.submitted ++ executor.owner.ahead
  serves : executor.toWorker.Serves executor.submitted
  owner : executor.OwnerHolds
  thread : executor.ThreadHolds

variable {name : String} {jobs : List (Job α)} {ending : Ending} {executor next : Executor α}

theorem sound_start (name : String) (jobs : List (Job α)) (ending : Ending) :
    Sound name jobs (start name jobs ending) where
  name_eq := rfl
  threadName_eq := rfl
  on_thread := by simp [start]
  jobs_eq := rfl
  serves := Or.inl ⟨rfl, rfl⟩
  owner := rfl
  thread := rfl

/-- A job that is sent is submitted to the worker, as long as its thread has not ended in peace. -/
theorem toWorker_send (executor : Executor α) (job : Job α) (sender : executor.hasSender = true)
    (holds : executor.ThreadHolds) :
    (executor.send job).toWorker = executor.toWorker.submit job := by
  cases phase : executor.thread with
  | waiting => simp [send, delivers, toWorker, Worker.submit, phase, sender]
  | running running => simp [send, delivers, toWorker, Worker.submit, phase, sender]
  | unwinding => simp [send, toWorker, Worker.submit, phase]
  | ended crashed =>
      have crash : crashed = true := by
        rw [ThreadHolds, phase] at holds
        cases crashed with
        | true => rfl
        | false => exact absurd (holds.2 rfl) (by simp [sender])
      simp [send, toWorker, Worker.submit, phase, crash]

/-- Seen from afar, a step submits a job, or it is a step of the worker, or nothing happens. -/
theorem Step.refines_worker (sound : Sound name jobs executor) (step : Step executor next) :
    (∃ job, next.submitted = executor.submitted ++ [job] ∧
        next.toWorker = executor.toWorker.submit job) ∨
      next.submitted = executor.submitted ∧
        (executor.toWorker.step = some next.toWorker ∨ next.toWorker = executor.toWorker) := by
  cases step with
  | @submit job rest ending owner =>
      have sender : executor.hasSender = true := by
        have holds := sound.owner
        rwa [OwnerHolds, owner] at holds
      exact Or.inl ⟨job, rfl, toWorker_send executor job sender sound.thread⟩
  | giveUp owner => exact Or.inr ⟨rfl, Or.inr rfl⟩
  | close owner => exact Or.inr ⟨rfl, Or.inr rfl⟩
  | join owner handle ended => exact Or.inr ⟨rfl, Or.inr rfl⟩
  | pass owner noHandle => exact Or.inr ⟨rfl, Or.inr rfl⟩
  | receive thread queue => exact Or.inr ⟨rfl, Or.inr (by simp [toWorker, thread, queue])⟩
  | act thread => exact Or.inr ⟨rfl, Or.inl (by simp [toWorker, Worker.step, thread])⟩
  | crash thread => exact Or.inr ⟨rfl, Or.inl (by simp [toWorker, Worker.step, thread])⟩
  | abandon thread => exact Or.inr ⟨rfl, Or.inr (by simp [toWorker, thread])⟩
  | finish thread empty noSender => exact Or.inr ⟨rfl, Or.inr (by simp [toWorker, thread, empty])⟩

theorem Step.serves (sound : Sound name jobs executor) (step : Step executor next) :
    next.toWorker.Serves next.submitted := by
  rcases step.refines_worker sound with ⟨job, submitted, worker⟩ | ⟨submitted, taken | same⟩
  · rw [submitted, worker]
    exact sound.serves.submit job
  · rw [submitted]
    exact sound.serves.step taken
  · rw [submitted, same]
    exact sound.serves

theorem ownerHolds_afterStop (executor : Executor α) (stopsAgain : Nat)
    (noSender : executor.hasSender = false) (noHandle : executor.hasHandle = false) :
    OwnerHolds { executor with owner := .afterStop stopsAgain } := by
  cases stopsAgain with
  | zero => exact ⟨noSender, noHandle⟩
  | succ stopsAgain => trivial

theorem Step.ownerHolds (sound : Sound name jobs executor) (step : Step executor next) :
    next.OwnerHolds := by
  have holds := sound.owner
  cases step with
  | submit owner =>
      rw [OwnerHolds, owner] at holds
      exact holds
  | giveUp owner => trivial
  | close owner => rfl
  | join owner handle ended =>
      rw [OwnerHolds, owner] at holds
      exact ownerHolds_afterStop { executor with hasHandle := false } _ holds rfl
  | pass owner noHandle =>
      rw [OwnerHolds, owner] at holds
      exact ownerHolds_afterStop executor _ holds noHandle
  | receive thread queue => exact holds
  | act thread => exact holds
  | crash thread => exact holds
  | abandon thread => exact holds
  | finish thread empty noSender => exact holds

theorem Step.threadHolds (sound : Sound name jobs executor) (step : Step executor next) :
    next.ThreadHolds := by
  have holds := sound.thread
  cases step with
  | @submit job rest ending owner =>
      cases phase : executor.thread with
      | ended crashed =>
          rw [ThreadHolds, phase] at holds
          simpa [ThreadHolds, send, delivers, phase] using holds
      | waiting => simpa [ThreadHolds, send, phase] using holds
      | running job => simpa [ThreadHolds, send, phase] using holds
      | unwinding => simpa [ThreadHolds, send, phase] using holds
  | giveUp owner => exact holds
  | close owner =>
      cases phase : executor.thread with
      | ended crashed =>
          rw [ThreadHolds, phase] at holds
          simpa [ThreadHolds, phase] using holds.1
      | waiting => simpa [ThreadHolds, phase] using holds
      | running job => simpa [ThreadHolds, phase] using holds
      | unwinding => simpa [ThreadHolds, phase] using holds
  | join owner handle ended =>
      rw [ThreadHolds, ended] at holds
      simpa [ThreadHolds, ended] using holds
  | pass owner noHandle => exact holds
  | receive thread queue =>
      rw [ThreadHolds, thread] at holds
      exact holds
  | act thread =>
      rw [ThreadHolds, thread] at holds
      exact holds
  | crash thread =>
      rw [ThreadHolds, thread] at holds
      exact holds
  | abandon thread => exact ⟨rfl, nofun⟩
  | finish thread empty noSender => exact ⟨empty, fun _ => noSender⟩

/-- No step loses a job of the owner. -/
theorem Step.jobs_eq (step : Step executor next) :
    next.submitted ++ next.owner.ahead = executor.submitted ++ executor.owner.ahead := by
  cases step with
  | submit owner => simp [send, owner, OwnerPhase.ahead]
  | giveUp owner => simp [owner, OwnerPhase.ahead]
  | close owner => simp [owner, OwnerPhase.ahead]
  | join owner handle ended =>
      rw [owner]
      exact congrArg _ (OwnerPhase.ahead_afterStop _)
  | pass owner noHandle =>
      rw [owner]
      exact congrArg _ (OwnerPhase.ahead_afterStop _)
  | receive thread queue => rfl
  | act thread => rfl
  | crash thread => rfl
  | abandon thread => rfl
  | finish thread empty noSender => rfl

theorem Step.name_eq (step : Step executor next) :
    next.name = executor.name ∧ next.threadName = executor.threadName := by
  cases step <;> exact ⟨rfl, rfl⟩

/-- Only the thread adds to what has been done. -/
theorem Step.on_thread (step : Step executor next) :
    ∀ entry ∈ next.done, entry ∈ executor.done ∨ entry.2 = executor.threadName := by
  intro entry member
  cases step with
  | act thread =>
      rcases List.mem_append.mp member with before | now
      · exact Or.inl before
      · rw [List.mem_singleton.mp now]
        exact Or.inr rfl
  | submit owner => exact Or.inl member
  | giveUp owner => exact Or.inl member
  | close owner => exact Or.inl member
  | join owner handle ended => exact Or.inl member
  | pass owner noHandle => exact Or.inl member
  | receive thread queue => exact Or.inl member
  | crash thread => exact Or.inl member
  | abandon thread => exact Or.inl member
  | finish thread empty noSender => exact Or.inl member

theorem Sound.step (sound : Sound name jobs executor) (step : Step executor next) :
    Sound name jobs next where
  name_eq := step.name_eq.1.trans sound.name_eq
  threadName_eq := step.name_eq.2.trans sound.threadName_eq
  on_thread := by
    intro entry member
    rcases step.on_thread entry member with before | now
    · exact sound.on_thread entry before
    · exact now.trans sound.threadName_eq
  jobs_eq := sound.jobs_eq.trans step.jobs_eq.symm
  serves := step.serves sound
  owner := step.ownerHolds sound
  thread := step.threadHolds sound

theorem Sound.reaches (sound : Sound name jobs executor) (run : Reaches executor next) :
    Sound name jobs next := by
  induction run with
  | refl => exact sound
  | tail _ step ih => exact ih.step step

/-! ### The end of an executor -/

/-- A bound for the steps that an executor can still take. -/
def left (executor : Executor α) : Nat :=
  executor.owner.left + 3 * executor.queue.length + executor.thread.left

theorem length_queue_send (executor : Executor α) (job : Job α) :
    (executor.send job).queue.length ≤ executor.queue.length + 1 := by
  unfold send
  cases executor.delivers <;> simp

/-- Every step brings an executor nearer to its end. -/
theorem Step.left_lt (step : Step executor next) : next.left < executor.left := by
  cases step with
  | @submit job rest ending owner =>
      have queue := length_queue_send executor job
      have thread : (executor.send job).thread = executor.thread := rfl
      simp only [left, owner, OwnerPhase.left, List.length_cons, thread]
      omega
  | @giveUp ending owner =>
      simp only [left, owner, OwnerPhase.left, List.length_nil]
      omega
  | close owner =>
      simp only [left, owner, OwnerPhase.left]
      omega
  | @join stopsAgain _ owner handle ended =>
      have before : executor.owner.left = 2 * stopsAgain + 1 := by
        rw [owner]
        rfl
      have after := OwnerPhase.left_afterStop (α := α) stopsAgain
      simp only [left, before]
      omega
  | @pass stopsAgain owner noHandle =>
      have before : executor.owner.left = 2 * stopsAgain + 1 := by
        rw [owner]
        rfl
      have after := OwnerPhase.left_afterStop (α := α) stopsAgain
      simp only [left, before]
      omega
  | receive thread queue =>
      simp only [left, thread, queue, ThreadPhase.left, List.length_cons]
      omega
  | act thread =>
      simp only [left, thread, ThreadPhase.left]
      omega
  | crash thread =>
      simp only [left, thread, ThreadPhase.left]
      omega
  | abandon thread =>
      simp only [left, thread, ThreadPhase.left, List.length_nil]
      omega
  | finish thread empty noSender =>
      simp only [left, thread, ThreadPhase.left]
      omega

/-- The owner always gets to the end of waiting: the thread can take a step until it has ended. -/
theorem Sound.exists_step_of_joining (sound : Sound name jobs executor) {stopsAgain : Nat}
    (owner : executor.owner = .joining stopsAgain) : ∃ next, Step executor next := by
  have noSender : executor.hasSender = false := by
    have holds := sound.owner
    rwa [OwnerHolds, owner] at holds
  cases handle : executor.hasHandle with
  | false => exact ⟨_, .pass owner handle⟩
  | true =>
      cases thread : executor.thread with
      | ended crashed => exact ⟨_, .join owner handle thread⟩
      | unwinding => exact ⟨_, .abandon thread⟩
      | running job =>
          cases job with
          | act effect => exact ⟨_, .act thread⟩
          | crash => exact ⟨_, .crash thread⟩
      | waiting =>
          cases queue : executor.queue with
          | nil => exact ⟨_, .finish thread queue noSender⟩
          | cons job rest => exact ⟨_, .receive thread queue⟩

theorem Sound.exists_step (sound : Sound name jobs executor)
    (busy : executor.owner ≠ .returned) : ∃ next, Step executor next := by
  cases owner : executor.owner with
  | submitting ahead ending =>
      cases ahead with
      | nil => exact ⟨_, .giveUp owner⟩
      | cons job rest => exact ⟨_, .submit owner⟩
  | closing stopsAgain => exact ⟨_, .close owner⟩
  | joining stopsAgain => exact sound.exists_step_of_joining owner
  | returned => exact absurd owner busy

/-- An executor can always be given up. -/
theorem Sound.exists_returned (sound : Sound name jobs executor) :
    ∃ last, Reaches executor last ∧ last.owner = .returned :=
  exists_reaches_end left (fun step => Step.left_lt step) (fun sound step => Sound.step sound step)
    (fun sound busy => Sound.exists_step sound busy) sound

/-- What an executor is in the end: the thread has ended, by a crash if some job crashes, and what the worker
had to do has been done. -/
def finished (name : String) (jobs : List (Job α)) : Executor α where
  name := name
  threadName := name
  owner := .returned
  hasSender := false
  hasHandle := false
  thread := .ended (!jobs.all Job.isAct)
  submitted := jobs
  done := Worker.history name jobs

/-- All that has been done was done on the thread of the executor. -/
theorem Sound.done_eq (sound : Sound name jobs executor) :
    (executor.done.map Prod.fst).map (fun effect => (effect, name)) = executor.done := by
  rw [List.map_map]
  have same : ∀ entry ∈ executor.done,
      ((fun effect => (effect, name)) ∘ Prod.fst) entry = id entry := by
    intro entry member
    exact Prod.ext rfl (sound.on_thread entry member).symm
  rw [List.map_congr_left same, List.map_id]

/-- The owner has waited for the thread, so that the thread has ended and its worker has nothing left to
do. -/
theorem Sound.thread_eq_of_returned (sound : Sound name jobs executor)
    (returned : executor.owner = .returned) :
    executor.hasSender = false ∧ executor.hasHandle = false ∧ executor.queue = [] ∧
      ∃ crashed, executor.thread = .ended crashed := by
  have holds := sound.owner
  rw [OwnerHolds, returned] at holds
  have held := sound.thread
  unfold ThreadHolds at held
  cases thread : executor.thread with
  | waiting => simp [thread, holds.2] at held
  | running job => simp [thread, holds.2] at held
  | unwinding => simp [thread, holds.2] at held
  | ended crashed =>
      rw [thread] at held
      exact ⟨holds.1, holds.2, held.1, crashed, rfl⟩

/-- An executor that has been given up is what it had to become. -/
theorem Sound.eq_finished (sound : Sound name jobs executor) (returned : executor.owner = .returned) :
    executor = finished name jobs := by
  obtain ⟨noSender, noHandle, empty, crashed, thread⟩ := sound.thread_eq_of_returned returned
  have submitted : executor.submitted = jobs := by
    simpa [returned, OwnerPhase.ahead] using sound.jobs_eq.symm
  have serves := sound.serves
  rw [submitted] at serves
  have idle : executor.toWorker.step = none := by
    cases crashed <;> simp [Worker.step, toWorker, thread]
  have history : executor.done = Worker.history name jobs := by
    rw [← sound.done_eq, Worker.history, ← serves.done_of_step_eq_none idle]
    rfl
  have crash : crashed = !jobs.all Job.isAct := by
    rw [← serves.alive_eq (by simp [toWorker, thread])]
    simp [toWorker, thread]
  have ended : executor.thread = (finished name jobs).thread := by
    rw [thread, crash]
    rfl
  exact Executor.ext sound.name_eq sound.threadName_eq returned noSender noHandle ended empty
    submitted history

/-- However an owner and its thread take turns, at every moment what has been done is what the jobs submitted
so far say, from the first one on and each of them once, and it was done on the thread with the name of the
executor. The executor can always be shut down or dropped to the end, and then what has been done is what the
jobs before the first crash say, or all of them if none crashes. In which of the two ways it is given up makes
no difference to what it is then. -/
theorem done_of_reaches (run : Reaches (start name jobs ending) executor) :
    executor.done.map (fun entry => .act entry.1) <+: executor.submitted ∧
    executor.submitted <+: jobs ∧
    executor.name = name ∧ (∀ entry ∈ executor.done, entry.2 = executor.name) ∧
    (∃ last, Reaches executor last ∧ last.owner = .returned) ∧
    (executor.owner = .returned →
      executor.done.map (fun entry => .act entry.1) = jobs.takeWhile Job.isAct ∧
      executor.done = Worker.history name jobs ∧
      ∀ other last, Reaches (start name jobs other) last → last.owner = .returned →
        last = executor) := by
  have sound : Sound name jobs executor := (sound_start name jobs ending).reaches run
  refine ⟨?_, ⟨_, sound.jobs_eq.symm⟩, sound.name_eq, ?_, sound.exists_returned, ?_⟩
  · have account := sound.serves.done_prefix
    rwa [toWorker, List.map_map] at account
  · intro entry member
    exact (sound.on_thread entry member).trans sound.name_eq.symm
  · intro returned
    have history : executor.done = Worker.history name jobs := by
      rw [sound.eq_finished returned]
      rfl
    refine ⟨?_, history, ?_⟩
    · rw [history, ← Worker.map_act_effects, Worker.history, List.map_map]
      rfl
    · intro other last otherRun otherReturned
      have otherSound : Sound name jobs last := (sound_start name jobs other).reaches otherRun
      rw [otherSound.eq_finished otherReturned, sound.eq_finished returned]

/-- A job that is sent while the thread dies of the one before it still gets into the queue and is never
run. -/
theorem done_of_late_job :
    ∃ executor last : Executor Nat,
      Reaches (start "render" [.act 1, .crash, .act 2] .shutdown) executor ∧
      executor.thread = .unwinding ∧ executor.queue = [.act 2] ∧
      executor.done.map (fun entry => .act entry.1) <+: executor.submitted ∧
      Reaches executor last ∧ last.owner = .returned ∧ last.done = [(1, "render")] ∧
      ∀ dropped, Reaches (start "render" [.act 1, .crash, .act 2] .drop) dropped →
        dropped.owner = .returned → dropped = last := by
  let jobs : List (Job Nat) := [.act 1, .crash, .act 2]
  obtain ⟨executor, run, thread, queue⟩ : ∃ executor, Reaches (start "render" jobs .shutdown) executor ∧
      executor.thread = .unwinding ∧ executor.queue = [.act 2] :=
    ⟨_, .head (.submit rfl) <| .head (.receive rfl rfl) <| .head (.act rfl) <| .head (.submit rfl) <|
      .head (.receive rfl rfl) <| .head (.crash rfl) <| .head (.submit rfl) .refl, rfl, rfl⟩
  obtain ⟨begins, _, _, _, ⟨last, later, returned⟩, _⟩ := done_of_reaches run
  obtain ⟨_, _, _, _, _, ended⟩ := done_of_reaches (run.trans later)
  obtain ⟨_, history, same⟩ := ended returned
  exact ⟨executor, last, run, thread, queue, begins, later, returned, history, same .drop⟩

end Executor

end GameClient
