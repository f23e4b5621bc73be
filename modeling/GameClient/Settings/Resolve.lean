import GameClient.Settings.Options
/-!
From arguments and an environment to settings. A draft starts with the defaults and what the
environment says; the arguments, read from left to right, change it. An option that takes a value
takes the token after it, whatever that is; a token that starts with two hyphens is no value, and
then the value is missing. Problems are collected in the order in which they are found, and help, if
asked for anywhere, goes before all of them.
-/

namespace GameClient

open Text

/-! ### Problems

What can be wrong with the arguments and the environment. Problems are collected, not thrown: the user sees all
of them at once.
-/

/-- One thing that keeps a client from starting. -/
inductive Problem where
  /-- An option that takes a value has none. -/
  | missingValue (flag : String)
  /-- An argument that is no option. -/
  | unknownOption (token : String)
  /-- A width or a height that is no positive integer. The label is the name of the option or of the
  variable that gave it. -/
  | notPositive (label : String)
  /-- The address of the server is refused. -/
  | address (error : AddressError)
  /-- The size of the window is refused. -/
  | size (error : SizeError)
deriving Repr, DecidableEq

/-- The text shown to the user. -/
def Problem.message : Problem → String
  | .missingValue flag => "Missing value for " ++ flag
  | .unknownOption token => "Unknown option: " ++ token
  | .notPositive label => label ++ " must be a positive integer"
  | .address error => error.message
  | .size error => error.message

/-! ### The draft and its outcome -/

/-- What comes of arguments and an environment. -/
inductive Outcome where
  /-- Help was asked for. -/
  | help
  /-- The client cannot start, for these reasons. -/
  | rejected (problems : List Problem)
  /-- The client can start. -/
  | ready (settings : Settings)
deriving Repr, DecidableEq

/-- The greatest width or height, which has 31 bits. -/
def dimensionLimit : Nat :=
  0x7FFFFFFF

/-- The text without one plus sign that it may start with. -/
def dropPlus : List Char → List Char
  | '+' :: rest => rest
  | text => text

/-- The width or height that a text gives: a numeral, perhaps after a plus sign and between white
space, with a value from 1 to `dimensionLimit`. -/
def readDimension (given : String) : Option Nat :=
  (Numeral.read (dropPlus (trim given.toList))).filter fun n => 1 ≤ n && n ≤ dimensionLimit

/-- A token that cannot be the value of an option: it starts with two hyphens. -/
def isFlagLike (token : String) : Bool :=
  ['-', '-'].isPrefixOf token.toList

/-- The text, or another one in place of a blank one. -/
def orIfBlank (text other : String) : String :=
  if allBlank text then other else text

/-- The settings as far as they are known, and what was found on the way. -/
structure Draft where
  server : String
  path : String
  width : Nat
  height : Nat
  title : String
  fullscreen : Bool := false
  showMenu : Bool := true
  help : Bool := false
  problems : List Problem := []
deriving Repr, DecidableEq

namespace Draft

/-- Adds a problem after those found before. -/
def report (draft : Draft) (problem : Problem) : Draft :=
  { draft with problems := draft.problems ++ [problem] }

/-- What the variable of a width or a height says: the value to start with and the problem, if the
variable is set to something else than a positive integer. -/
def dimension (env : Environment) (setting : Setting) (default : Nat) : Nat × List Problem :=
  match env setting.envName with
  | none => (default, [])
  | some given =>
    match readDimension given with
    | some n => (n, [])
    | none => (default, [.notPositive setting.envName])

/-- The draft before any argument is read. -/
def ofEnvironment (env : Environment) : Draft :=
  let width := dimension env .width Settings.defaultWidth
  let height := dimension env .height Settings.defaultHeight
  { server := (env Setting.server.envName).getD Settings.defaultServer
    path := (env Setting.path.envName).getD Settings.defaultPath
    width := width.1
    height := height.1
    title := (env Setting.title.envName).getD Settings.defaultTitle
    problems := width.2 ++ height.2 }

/-- Gives a setting the value of its option. -/
def assign (draft : Draft) (setting : Setting) (value : String) : Draft :=
  match setting with
  | .server => { draft with server := value }
  | .path => { draft with path := value }
  | .title => { draft with title := value }
  | .width =>
    match readDimension value with
    | some n => { draft with width := n }
    | none => draft.report (.notPositive "Width")
  | .height =>
    match readDimension value with
    | some n => { draft with height := n }
    | none => draft.report (.notPositive "Height")

/-- Takes an option without a value. -/
def toggle (draft : Draft) : Switch → Draft
  | .help => { draft with help := true }
  | .fullscreen => { draft with fullscreen := true }
  | .windowed => { draft with fullscreen := false }
  | .noMenu => { draft with showMenu := false }

/-- Takes a token that belongs to no option before it and takes no value. -/
def takeSingle (draft : Draft) (token : String) : Draft :=
  match Switch.ofToken? token with
  | some switch => draft.toggle switch
  | none => draft.report (.unknownOption token)

/-- Takes an option and the token after it. -/
def takeValue (draft : Draft) (setting : Setting) (token : String) : Draft :=
  if isFlagLike token then draft.report (.missingValue setting.flag)
  else draft.assign setting token

/-- Takes the arguments from left to right. -/
def scan (draft : Draft) : List String → Draft
  | [] => draft
  | token :: rest =>
    match Setting.ofFlag? token with
    | none => scan (draft.takeSingle token) rest
    | some setting =>
      match rest with
      | [] => draft.report (.missingValue setting.flag)
      | value :: rest => scan (draft.takeValue setting value) rest

/-- The settings that a draft without problems stands for. The server address is checked last, and a
blank path or title gives way to the default. -/
def settle (draft : Draft) : Outcome :=
  match Address.normalize draft.server with
  | .error error => .rejected (draft.problems ++ [.address error])
  | .ok address =>
    if draft.problems = [] then
      match Settings.create address.toString (orIfBlank draft.path Settings.defaultPath)
        draft.width draft.height (orIfBlank draft.title Settings.defaultTitle)
        draft.fullscreen draft.showMenu with
      | .ok settings => .ready settings
      | .error error => .rejected [.size error]
    else .rejected draft.problems

end Draft

/-- What comes of the arguments and the environment of a client. -/
def resolve (args : List String) (env : Environment) : Outcome :=
  let draft := (Draft.ofEnvironment env).scan args
  if draft.help then .help else draft.settle

namespace Outcome

/-- The problems of a client that cannot start. -/
def problems : Outcome → List Problem
  | .rejected problems => problems
  | _ => []

/-- The problems as the user sees them. -/
def messages (outcome : Outcome) : List String :=
  outcome.problems.map Problem.message

end Outcome

end GameClient
