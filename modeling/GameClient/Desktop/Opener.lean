import GameClient.Desktop.Browser
/-!
The desktop of a machine with a window system. It can browse when one of its two display protocols
is in use, and it hands an address over by starting a program with the address as its only argument.
-/

namespace GameClient

/-- A machine on which the client may run. -/
structure Machine where
  /-- The older display protocol is in use. -/
  display : Bool
  /-- The newer display protocol is in use. -/
  wayland : Bool
  /-- The program that opens addresses is installed. -/
  hasOpener : Bool
deriving Repr, DecidableEq

namespace Machine

/-- The program that opens addresses. -/
def opener : String := "xdg-open"

/-- The arguments with which it is started, its own name first. -/
def openerArguments (url : String) : List String :=
  [opener, url]

/-- Why the program cannot be started. No argument can hold the character NUL. -/
def startFailure (machine : Machine) (url : String) : Option String :=
  if url.toList.contains '\x00' then some "nul byte found in provided data"
  else if machine.hasOpener then none
  else some "No such file or directory (os error 2)"

/-- The machine as a desktop. -/
def desktop (machine : Machine) : Desktop where
  supported := true
  canBrowse := machine.display || machine.wayland
  failure := machine.startFailure

end Machine

end GameClient
