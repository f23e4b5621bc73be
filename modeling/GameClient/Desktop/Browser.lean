import GameClient.Render.Queue
/-!
The browser of the desktop. A desktop says whether it is one at all and whether it can browse; only
one that can do both is handed an address, and handing it over may fail.
-/

namespace GameClient

/-- Why an address was not opened. -/
inductive LaunchError where
  /-- The desktop cannot browse. -/
  | unsupported
  /-- The browser could not be started, for the reason that the system gives. -/
  | browse (url : String) (cause : String)
deriving Repr, DecidableEq

namespace LaunchError

/-- The text shown to the user. -/
def message : LaunchError → String
  | .unsupported => "Desktop browsing is not supported on this platform."
  | .browse url _ => "Unable to open browser for " ++ url

/-- The reason that the system gives, if it was asked at all. -/
def cause? : LaunchError → Option String
  | .unsupported => none
  | .browse _ cause => some cause

end LaunchError

/-- What a desktop can do, and with which reason it fails to hand over an address, if it does. -/
structure Desktop where
  supported : Bool := true
  canBrowse : Bool := true
  failure : String → Option String := fun _ => none

/-- An attempt to open an address, and the error if it failed. -/
structure Attempt where
  url : String
  error : Option LaunchError := none
deriving Repr, DecidableEq

namespace Desktop

/-- Tries to open an address. -/
def attempt (desktop : Desktop) (url : String) : Attempt where
  url := url
  error :=
    if desktop.supported && desktop.canBrowse then (desktop.failure url).map (.browse url)
    else some .unsupported

end Desktop

/-- The addresses that reached a browser. -/
def Attempt.browsed (attempts : List Attempt) : List String :=
  (attempts.filter fun attempt => attempt.error.isNone).map Attempt.url

/-! ### The page in the browser

Loading and reloading open the address in the browser of the desktop, which has a zoom of its own, so that a zoom
command changes nothing.
-/

/-- The address that was loaded last. -/
structure PageView where
  current : Option String := none
deriving Repr, DecidableEq

namespace PageView

/-- The view after a command. -/
def after (view : PageView) : Command → PageView
  | .load url => ⟨some url⟩
  | .reload | .setZoom _ => view

/-- The attempts to open an address that a command leads to. A page is loaded also if its address
cannot be opened, and a reload before any load does nothing. -/
def attempts (desktop : Desktop) (view : PageView) : Command → List Attempt
  | .load url => [desktop.attempt url]
  | .reload => view.current.toList.map desktop.attempt
  | .setZoom _ => []

/-- The attempts that commands lead to, carried out one after the other. -/
def attemptsOf (desktop : Desktop) : PageView → List Command → List Attempt
  | _, [] => []
  | view, command :: rest =>
    view.attempts desktop command ++ attemptsOf desktop (view.after command) rest

end PageView

/-- The zooms that commands set, in order. -/
def Command.zooms (commands : List Command) : List Float :=
  commands.filterMap fun
    | .setZoom zoom => some zoom
    | .load _ | .reload => none

end GameClient
