/-!
From what the user asks of the page to commands for the render thread. The controller keeps the zoom on its own
side: a change of zoom takes effect there at once, and the command carries the new value, whenever it may be
carried out.
-/

namespace GameClient

/-! ### The zoom

The zoom of the page is a factor. It changes by a tenth at a time, and only the way down ends.
-/

namespace Zoom

/-- The factor at which a page starts and to which it is reset. -/
def normal : Float := 1.0

/-- By how much the factor changes at a time. -/
def step : Float := 0.1

/-- The least factor. -/
def least : Float := 0.2

/-- The next factor up. -/
def increase (zoom : Float) : Float :=
  zoom + step

/-- The next factor down, `least` where that would be less. -/
def decrease (zoom : Float) : Float :=
  if zoom - step < least then least else zoom - step

end Zoom

/-! ### Requests and commands -/

/-- What is asked of the page. -/
inductive Request where
  | load (url : String)
  | reload
  | zoomIn
  | zoomOut
  | resetZoom
deriving Repr, DecidableEq

/-- What the render thread is told to do. -/
inductive Command where
  | load (url : String)
  | reload
  | setZoom (zoom : Float)
deriving Repr

namespace Request

/-- The zoom after a request. -/
def zoomAfter (zoom : Float) : Request → Float
  | .zoomIn => Zoom.increase zoom
  | .zoomOut => Zoom.decrease zoom
  | .resetZoom => Zoom.normal
  | .load _ | .reload => zoom

/-- The command for a request, given the zoom before it. -/
def command (zoom : Float) (request : Request) : Command :=
  match request with
  | .load url => .load url
  | .reload => .reload
  | .zoomIn | .zoomOut | .resetZoom => .setZoom (request.zoomAfter zoom)

end Request

/-- The zoom, and the commands sent to the render thread, the latest first. -/
structure Controller where
  zoom : Float := Zoom.normal
  sent : List Command := []
deriving Repr

namespace Controller

/-- Takes one request. -/
def take (controller : Controller) (request : Request) : Controller where
  zoom := request.zoomAfter controller.zoom
  sent := request.command controller.zoom :: controller.sent

/-- Takes requests, one after the other. -/
def takeAll (controller : Controller) (requests : List Request) : Controller :=
  requests.foldl take controller

end Controller

/-! ### Commands that wait

Requests add commands at the end of the queue, and a run takes them from its front.
-/

/-- The zoom, and the commands that have not run yet, the oldest first. -/
structure Deferred where
  zoom : Float := Zoom.normal
  pending : List Command := []
deriving Repr

namespace Deferred

/-- Takes requests, one after the other. -/
def submit (state : Deferred) (requests : List Request) : Deferred :=
  let controller := Controller.takeAll ⟨state.zoom, []⟩ requests
  ⟨controller.zoom, state.pending ++ controller.sent.reverse⟩

/-- Runs the first `n` commands: these are carried out now, and the others stay. -/
def run (state : Deferred) (n : Nat) : List Command × Deferred :=
  (state.pending.take n, { state with pending := state.pending.drop n })

/-- Runs all commands. -/
def runAll (state : Deferred) : List Command × Deferred :=
  (state.pending, { state with pending := [] })

end Deferred

end GameClient
