import GameClient.Settings.Basic
/-!
Where settings come from. Five settings take a value: from an option of the command line, or else
from a variable of the environment. Four more options take none. The help text lists them all.
-/

namespace GameClient

/-- The values of the environment's variables, by name. -/
abbrev Environment := String → Option String

/-- A setting that takes a value. -/
inductive Setting where
  | server
  | path
  | width
  | height
  | title
deriving Repr, DecidableEq

namespace Setting

/-- All of them, in the order of the help text. -/
def all : List Setting :=
  [.server, .path, .width, .height, .title]

/-- The option that gives the setting its value. -/
def flag : Setting → String
  | .server => "--server"
  | .path => "--path"
  | .width => "--width"
  | .height => "--height"
  | .title => "--title"

/-- The variable that gives the setting its value. -/
def envName : Setting → String
  | .server => "FLAPPYBINGUS_SERVER_URL"
  | .path => "FLAPPYBINGUS_PATH"
  | .width => "FLAPPYBINGUS_CLIENT_WIDTH"
  | .height => "FLAPPYBINGUS_CLIENT_HEIGHT"
  | .title => "FLAPPYBINGUS_CLIENT_TITLE"

/-- The text that the setting has if it is given none. -/
def defaultText : Setting → String
  | .server => Settings.defaultServer
  | .path => Settings.defaultPath
  | .width => Settings.number Settings.defaultWidth
  | .height => Settings.number Settings.defaultHeight
  | .title => Settings.defaultTitle

/-- The setting with this option, if the token is one. -/
def ofFlag? (token : String) : Option Setting :=
  all.find? fun setting => setting.flag == token

end Setting

/-- An option that takes no value. -/
inductive Switch where
  | help
  | fullscreen
  | windowed
  | noMenu
deriving Repr, DecidableEq

namespace Switch

/-- All of them, in the order of the help text. -/
def all : List Switch :=
  [.fullscreen, .windowed, .noMenu, .help]

/-- The ways to write the option. -/
def names : Switch → List String
  | .help => ["-h", "--help"]
  | .fullscreen => ["--fullscreen"]
  | .windowed => ["--windowed"]
  | .noMenu => ["--no-menu"]

/-- The option written as the token, if it is one. -/
def ofToken? (token : String) : Option Switch :=
  all.find? fun switch => switch.names.contains token

end Switch

/-! ### The help text

The name of the client, how it is called, and its options in a column with what each of them does.
-/

namespace Help

open Text

/-- The name under which the client speaks of itself. -/
def clientName : String := "FlappyBingus Desktop Client"

/-- The name of the program. -/
def programName : String := "flappybingus-client"

/-- The kind of value that an option takes. -/
def placeholder : Setting → String
  | .server => "<url>"
  | .path => "<path>"
  | .width | .height => "<px>"
  | .title => "<text>"

/-- What a setting is for. -/
def purpose : Setting → String
  | .server => "Base server URL"
  | .path => "Path to load within the server"
  | .width => "Window width"
  | .height => "Window height"
  | .title => "Window title"

/-- What an option without a value does. -/
def effect : Switch → String
  | .help => "Print help"
  | .fullscreen => "Start in fullscreen mode"
  | .windowed => "Start in windowed mode"
  | .noMenu => "Hide the menu bar"

/-- The two columns of the line of a setting. -/
def settingRow (setting : Setting) : String × String :=
  (setting.flag ++ " " ++ placeholder setting,
   purpose setting ++ " [env: " ++ setting.envName ++ "] [default: " ++ setting.defaultText ++ "]")

/-- The two columns of the line of an option without a value. -/
def switchRow (switch : Switch) : String × String :=
  (", ".intercalate switch.names, effect switch)

/-- The rows of all options. -/
def rows : List (String × String) :=
  Setting.all.map settingRow ++ Switch.all.map switchRow

/-- The indent of an option: a short name stands in the place of a long one's indent. -/
def indent (option : String) : Nat :=
  if ['-', '-'].isPrefixOf option.toList then 6 else 2

/-- The first column of a row, indented. -/
def leftColumn (row : String × String) : String :=
  String.ofList (List.replicate (indent row.1) ' ') ++ row.1

/-- The width of the first column. -/
def columnWidth : Nat :=
  (rows.map fun row => (leftColumn row).length).foldl max 0

/-- A line of the list of options. -/
def rowLine (row : String × String) : String :=
  padRight columnWidth (leftColumn row) ++ "  " ++ row.2

/-- The lines of the help text. -/
def lines : List String :=
  [clientName, "", "Usage: " ++ programName ++ " [OPTIONS]", "", "Options:"] ++ rows.map rowLine

/-- The help text. -/
def text : String :=
  joinLines lines

end Help

end GameClient
