/-!
Starting something at most once. Whoever asks first for the start gets it: the mark is set before
the startup action runs, so that the action itself, and everyone after it, finds it set. A startup
action may in turn ask whether the start was made and ask for it again.
-/

namespace GameClient

/-- The mark, and how often a startup action has run. -/
structure Startup where
  begun : Bool := false
  count : Nat := 0
deriving Repr, DecidableEq

/-- A call: a question, or a request to start with an action that makes calls of its own. -/
inductive StartupCall where
  | isBegun
  | start (action : List StartupCall)

/-- The answer to a call. A request that wins is answered by what its action found. -/
inductive StartupAnswer where
  | isBegun (answer : Bool)
  | lost
  | won (inside : List StartupAnswer)
deriving Repr

namespace Startup

/-- Sets the mark and counts a run. -/
def begin (state : Startup) : Startup :=
  { begun := true, count := state.count + 1 }

mutual

/-- Answers one call. -/
def call (state : Startup) : StartupCall → StartupAnswer × Startup
  | .isBegun => (.isBegun state.begun, state)
  | .start action =>
    if state.begun then (.lost, state)
    else
      let inside := callAll state.begin action
      (.won inside.1, inside.2)

/-- Answers calls one after the other. -/
def callAll (state : Startup) : List StartupCall → List StartupAnswer × Startup
  | [] => ([], state)
  | first :: rest =>
    let one := call state first
    let others := callAll one.2 rest
    (one.1 :: others.1, others.2)

end

end Startup

end GameClient
