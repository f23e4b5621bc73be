import GameClient.Menu
import GameClient.Text.Bytes
/-!
Talking to the user. The console reads lines; each of them ends the session, activates a menu item,
is answered with a line, or is passed over. A talk goes on until a line ends it, a line is no UTF-8,
the input ends, or the output takes no more lines.
-/

namespace GameClient

open Text

/-- The words that end a session, in any ASCII case. -/
def quitWords : List (List Char) :=
  [['q', 'u', 'i', 't'], ['e', 'x', 'i', 't'], ['q']]

/-- How the console reacts to a line. -/
inductive Reaction where
  | ignore
  | quit
  | activate (action : MenuAction)
  | answer (line : String)
deriving Repr, DecidableEq

/-- The answer to a command that no menu item answers to. -/
def unknownCommand (command : List Char) : String :=
  "Unknown command: " ++ String.ofList command ++ "\n"

/-- The answer to any command when there is no menu. -/
def menuDisabled : String :=
  "Menu is disabled; type \x27quit\x27 to exit\n"

/-- The reaction to a line. -/
def react (menu : Option MenuBar) (line : List Char) : Reaction :=
  let command := trim line
  if command = [] then .ignore
  else if quitWords.any (equalFold command) then .quit
  else
    match menu with
    | none => .answer menuDisabled
    | some bar =>
      match bar.find? command with
      | some item => .activate item.action
      | none => .answer (unknownCommand command)

/-- What shows of a talk. -/
inductive TalkEvent where
  /-- A menu item was activated. -/
  | call (action : MenuAction)
  /-- A line was written, its end included. -/
  | out (line : String)
deriving Repr, DecidableEq

/-- How a talk ended. -/
inductive TalkEnd where
  /-- The user left with a quit word. -/
  | left
  /-- There was no more input. -/
  | exhausted
  /-- A line was not UTF-8. -/
  | invalidText
  /-- The output refused a line. -/
  | outputClosed
deriving Repr, DecidableEq

/-- A talk from its beginning to its end. -/
structure Talk where
  events : List TalkEvent := []
  ending : TalkEnd
deriving Repr, DecidableEq

namespace Talk

/-- The talk with one event more at its beginning. -/
def precede (event : TalkEvent) (talk : Talk) : Talk :=
  { talk with events := event :: talk.events }

/-- How many lines the output still takes; `none` stands for any number. -/
abbrev Room := Option Nat

/-- The room after one line more, if there is room for it. -/
def Room.take : Room → Option Room
  | none => some none
  | some 0 => none
  | some (n + 1) => some (some n)

/-- The talk about lines of input. -/
def ofLines (menu : Option MenuBar) : Room → List (List UInt8) → Talk
  | _, [] => { ending := .exhausted }
  | room, bytes :: rest =>
    match Utf8.decode? bytes with
    | none => { ending := .invalidText }
    | some line =>
      match react menu line with
      | .ignore => ofLines menu room rest
      | .quit => { ending := .left }
      | .activate action => precede (.call action) (ofLines menu room rest)
      | .answer line =>
        match Room.take room with
        | none => { ending := .outputClosed }
        | some room => precede (.out line) (ofLines menu room rest)

/-- The talk about an input. -/
def ofInput (menu : Option MenuBar) (room : Room) (input : List UInt8) : Talk :=
  ofLines menu room (Lines.split input)

/-- The actions that were called, in order. -/
def calls (talk : Talk) : List MenuAction :=
  talk.events.filterMap fun
    | .call action => some action
    | .out _ => none

/-- The text that was written. -/
def written (talk : Talk) : String :=
  String.join <| talk.events.filterMap fun
    | .call _ => none
    | .out line => some line

end Talk

end GameClient
