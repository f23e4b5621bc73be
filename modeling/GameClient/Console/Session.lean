import GameClient.Console.Talk
import GameClient.Desktop.Browser
import GameClient.Menu
import GameClient.Settings.Basic
/-!
The console window. It prints the settings, loads the page on the render thread, lists the menu and
talks to the user. Reloading and zooming go to the render thread; opening the page in a browser of
its own does not. When the window closes, everything that was sent to the render thread has been
carried out there, in the order in which it was sent.
-/

namespace GameClient

/-- What a session did until its window closed. -/
structure Session where
  /-- The text of the console. -/
  screen : String
  /-- The attempts to open an address that the render thread made. -/
  rendered : List Attempt := []
  /-- The attempts to open an address that the menu made itself. -/
  opened : List Attempt := []
  /-- The zooms that the render thread was given. -/
  zooms : List Float := []
deriving Repr

/-- What a menu action asks of the page; opening the page elsewhere asks nothing of it. -/
def MenuAction.request? : MenuAction → Option Request
  | .reload => some .reload
  | .zoomIn => some .zoomIn
  | .zoomOut => some .zoomOut
  | .resetZoom => some .resetZoom
  | .openExternal => none

namespace Session

/-- The menu of a window with these settings. -/
def menu (settings : Settings) : Option MenuBar :=
  if settings.showMenu then some MenuBar.standard else none

/-- What the window prints first. -/
def heading (settings : Settings) : String :=
  settings.summary ++ "\n\n"

/-- What the window prints before it reads anything: the menu and how to leave. -/
def invitation : Option MenuBar → String
  | some bar => bar.listing ++ "Type a menu item or its key, \x27quit\x27 to exit.\n"
  | none => "Type \x27quit\x27 to exit.\n"

/-- The requests of a session at an address: it is loaded, then the menu is obeyed. -/
def requests (url : String) (calls : List MenuAction) : List Request :=
  .load url :: calls.filterMap MenuAction.request?

/-- The commands that reach the render thread, in the order in which they were sent. -/
def commands (url : String) (calls : List MenuAction) : List Command :=
  (Controller.takeAll {} (requests url calls)).sent.reverse

/-- The attempts that the menu makes itself. -/
def directAttempts (desktop : Desktop) (url : String) (calls : List MenuAction) : List Attempt :=
  (calls.filter (· == .openExternal)).map fun _ => desktop.attempt url

/-- The session of a window that closes at once. -/
def closedAtOnce (settings : Settings) : Session where
  screen := heading settings

/-- The session of a window on a desktop, with an input. The window closes at once if there is no page to show or if
the system starts no render thread; it starts one unless said otherwise. -/
def run (desktop : Desktop) (settings : Settings) (input : List UInt8) (startsThread : Bool := true) :
    Session :=
  match settings.page with
  | .error _ => closedAtOnce settings
  | .ok address =>
    if startsThread then
      let url := address.toString
      let menu := menu settings
      let talk := Talk.ofInput menu none input
      let commands := commands url talk.calls
      { screen := heading settings ++ invitation menu ++ talk.written
        rendered := PageView.attemptsOf desktop {} commands
        opened := directAttempts desktop url talk.calls
        zooms := Command.zooms commands }
    else closedAtOnce settings

end Session

end GameClient
