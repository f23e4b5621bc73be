/-!
A worker: a named thread that runs jobs one at a time, in the order in which they were submitted. A
job that crashes ends the thread, and the jobs behind it never run. Closing the worker ends the
submissions and waits until the thread has nothing left to do.
-/

namespace GameClient

/-- A job: it does something that shows, or it crashes. -/
inductive Job (α : Type) where
  | act (effect : α)
  | crash
deriving Repr, DecidableEq

/-- A worker at one moment: the jobs that wait, the oldest first, what has been done, the oldest
first, and whether the thread still runs. -/
structure Worker (α : Type) where
  name : String
  waiting : List (Job α) := []
  done : List α := []
  alive : Bool := true
deriving Repr, DecidableEq

namespace Worker

variable {α : Type}

/-- A job reaches the queue of a worker that is alive; otherwise it is dropped. -/
def submit (worker : Worker α) (job : Job α) : Worker α :=
  if worker.alive then { worker with waiting := worker.waiting ++ [job] } else worker

/-- The thread takes the oldest job, if there is one and it is alive. -/
def step (worker : Worker α) : Option (Worker α) :=
  match worker.alive, worker.waiting with
  | true, .act effect :: rest =>
    some { worker with waiting := rest, done := worker.done ++ [effect] }
  | true, .crash :: _ => some { worker with waiting := [], alive := false }
  | _, _ => none

/-- What jobs do when they run one after the other. -/
def effects : List (Job α) → List α
  | [] => []
  | .crash :: _ => []
  | .act effect :: rest => effect :: effects rest

/-- What a worker has done once it has been closed, if the jobs are all that was ever submitted:
each effect with the name of the thread on which it took place. -/
def history (name : String) (jobs : List (Job α)) : List (α × String) :=
  (effects jobs).map fun effect => (effect, name)

end Worker

end GameClient
