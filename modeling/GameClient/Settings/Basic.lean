import GameClient.Address.Resolve
/-!
The settings of one client window: which page it shows, how large it is and what it looks like. A
window has a positive width and a positive height; `create` is the only check that they are. Settings
are written as a summary and as a JSON object.
-/

namespace GameClient

/-- A size that no window can have. -/
inductive SizeError where
  | width
  | height
deriving Repr, DecidableEq

/-- The text shown to the user. -/
def SizeError.message : SizeError → String
  | .width => "width must be positive"
  | .height => "height must be positive"

/-- The settings of a window. The path is kept as it was given; `page` makes a reference of it. -/
structure Settings where
  server : String
  path : String
  width : Nat
  height : Nat
  title : String
  fullscreen : Bool
  showMenu : Bool
  width_pos : 0 < width
  height_pos : 0 < height
deriving Repr, DecidableEq

namespace Settings

/-- The server that is used if none is named. -/
def defaultServer : String := "http://localhost:3000"

/-- The path that is used if none is given, or a blank one. -/
def defaultPath : String := "/"

/-- The title that is used if none is given, or a blank one. -/
def defaultTitle : String := "FlappyBingus"

/-- The width in pixels that is used if none is given. -/
def defaultWidth : Nat := 1280

/-- The height in pixels that is used if none is given. -/
def defaultHeight : Nat := 720

/-- Checks the width and then the height. -/
def create (server path : String) (width height : Nat) (title : String)
    (fullscreen showMenu : Bool) : Except SizeError Settings :=
  if width_pos : 0 < width then
    if height_pos : 0 < height then
      .ok { server, path, width, height, title, fullscreen, showMenu, width_pos, height_pos }
    else .error .height
  else .error .width

/-- The settings of a window for which nothing was asked. -/
def standard : Settings where
  server := defaultServer
  path := defaultPath
  width := defaultWidth
  height := defaultHeight
  title := defaultTitle
  fullscreen := false
  showMenu := true
  width_pos := by decide
  height_pos := by decide

/-- The address of the page that the window shows. -/
def page (settings : Settings) : Except AddressError Address :=
  Address.page settings.server settings.path

end Settings

/-! ### Written forms

A summary for the eye, one line per setting under a banner, and a compact JSON object.
-/

namespace Settings

open Text

/-- The line of a box that its corners close. -/
def boxRule : String :=
  String.ofList (List.replicate 62 '═')

/-- A box around the name of the summary. -/
def banner : List String :=
  ["╔" ++ boxRule ++ "╗",
   "║              FlappyBingus Client Configuration               ║",
   "╚" ++ boxRule ++ "╝"]

/-- A number as it is written in a summary or an object. -/
def number (n : Nat) : String :=
  String.ofList (Numeral.write n)

/-- How the window starts. -/
def modeName (settings : Settings) : String :=
  if settings.fullscreen then "fullscreen" else "windowed"

/-- Whether the menu can be used. -/
def menuName (settings : Settings) : String :=
  if settings.showMenu then "visible" else "hidden"

/-- The lines of the summary. -/
def summaryLines (settings : Settings) : List String :=
  banner ++
  ["   Server:       " ++ settings.server,
   "   Path:         " ++ settings.path,
   "   Window:       " ++ number settings.width ++ "x" ++ number settings.height,
   "   Title:        " ++ settings.title,
   "   Mode:         " ++ settings.modeName,
   "   Menu:         " ++ settings.menuName]

/-- The summary, without an end of line after its last line. -/
def summary (settings : Settings) : String :=
  "\n".intercalate settings.summaryLines

/-- A truth value as JSON writes it. -/
def truth (b : Bool) : String :=
  if b then "true" else "false"

/-- The members of the object that holds the settings, each value already written. -/
def members (settings : Settings) : List (String × String) :=
  [("serverUrl", Quoted.quote settings.server),
   ("path", Quoted.quote settings.path),
   ("width", number settings.width),
   ("height", number settings.height),
   ("title", Quoted.quote settings.title),
   ("fullscreen", truth settings.fullscreen),
   ("showMenu", truth settings.showMenu)]

/-- A member as it is written: its name between quotes, a colon, its value. -/
def writeMember (entry : String × String) : String :=
  Quoted.quote entry.1 ++ ":" ++ entry.2

/-- The settings as one JSON object, without blanks. -/
def toJson (settings : Settings) : String :=
  "\x7b" ++ ",".intercalate (settings.members.map writeMember) ++ "\x7d"

end Settings

end GameClient
