import GameClient.Console.Session
import GameClient.Settings.Options
import GameClient.Settings.Resolve
/-!
The program as a whole. Arguments and environment lead to the help text, to a report of what is
wrong, or to a window; what happens is a list of effects and an exit code.
-/

namespace GameClient

open Text

/-- One thing that the program does. -/
inductive Effect where
  /-- A text on the standard output, and an end of line. -/
  | out (text : String)
  /-- A text on the standard error output, and an end of line. -/
  | err (text : String)
  /-- A window is made. -/
  | createWindow (settings : Settings)
  /-- The window is shown until the user closes it. -/
  | showWindow
deriving Repr, DecidableEq

/-- A run of the program. -/
structure Run where
  effects : List Effect
  code : Nat
deriving Repr, DecidableEq

namespace Run

/-- The exit code after help or a window. -/
def success : Nat := 0

/-- The exit code after a report of problems. -/
def usageError : Nat := 2

/-- The texts on the standard output. -/
def outs (run : Run) : List String :=
  run.effects.filterMap fun
    | .out text => some text
    | _ => none

/-- The texts on the standard error output. -/
def errs (run : Run) : List String :=
  run.effects.filterMap fun
    | .err text => some text
    | _ => none

/-- The settings of the window, if one is made. -/
def window? (run : Run) : Option Settings :=
  run.effects.findSome? fun
    | .createWindow settings => some settings
    | _ => none

end Run

namespace Program

/-- The lines that say that the client does not start, and why. -/
def complaint (messages : List String) : List Effect :=
  .err (Help.clientName ++ " failed to start:") ::
    messages.map fun message => .err (" - " ++ message)

/-- The report of problems: the complaint, an empty line and the help text. -/
def report (problems : List Problem) : Run where
  effects := complaint (problems.map Problem.message) ++ [.err "", .err Help.text]
  code := Run.usageError

/-- Runs the program with arguments that are text. -/
def run (args : List String) (env : Environment) : Run :=
  match resolve args env with
  | .help => ⟨[.out Help.text], Run.success⟩
  | .rejected problems => report problems
  | .ready settings => ⟨[.createWindow settings, .showWindow], Run.success⟩

/-- The argument as text, or the problem that it is none. No option is written in such bytes. -/
def readArgument (bytes : List UInt8) : Except Problem String :=
  match Utf8.decode? bytes with
  | some text => .ok (String.ofList text)
  | none => .error (.unknownOption (String.ofList (Utf8.decodeLossy bytes)))

/-- The arguments that are no text, as problems. -/
def unreadable (args : List (List UInt8)) : List Problem :=
  args.filterMap fun bytes =>
    match readArgument bytes with
    | .ok _ => none
    | .error problem => some problem

/-- The arguments that are text. -/
def readable (args : List (List UInt8)) : List String :=
  args.filterMap fun bytes =>
    match readArgument bytes with
    | .ok text => some text
    | .error _ => none

/-- Runs the program with arguments as the system gives them. Only if all of them are text does it
look at what they say. -/
def runRaw (args : List (List UInt8)) (env : Environment) : Run :=
  match unreadable args with
  | [] => run (readable args) env
  | problems => report problems

/-- A run of the program, and the session of its window if it opens one. -/
structure Performance where
  run : Run
  session : Option Session
deriving Repr

/-- Runs the program on a desktop, with an input for the console. The system starts a render thread unless said
otherwise. -/
def perform (desktop : Desktop) (args : List (List UInt8)) (env : Environment)
    (input : List UInt8) (startsThread : Bool := true) : Performance :=
  let run := runRaw args env
  ⟨run, run.window?.map fun settings => Session.run desktop settings input startsThread⟩

namespace Performance

/-- The text of the console window, if one was opened. -/
def screen (performance : Performance) : String :=
  match performance.session with
  | some session => session.screen
  | none => ""

/-- All that was written to the standard output. -/
def stdout (performance : Performance) : String :=
  joinLines performance.run.outs ++ performance.screen

/-- All that was written to the standard error output. -/
def stderr (performance : Performance) : String :=
  joinLines performance.run.errs

end Performance

end Program

end GameClient
