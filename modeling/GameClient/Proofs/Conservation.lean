import GameClient.Proofs.Delivery
import Mathlib.Data.List.Induction
/-!
Commands that wait, and are run a few at a time. Requests are made and commands are run in turns, in any order and
in portions of any size. No command is lost, doubled or overtaken, and each carries the zoom from the moment at
which it was sent, however long it waits.
-/

namespace GameClient

theorem Command.zooms_append (before later : List Command) :
    zooms (before ++ later) = zooms before ++ zooms later :=
  List.filterMap_append

/-- The zoom after a request is the one that its command carries, or else the zoom before. -/
theorem Request.zoomAfter_eq (zoom : Float) (request : Request) :
    request.zoomAfter zoom = (Command.zooms [request.command zoom]).getLast?.getD zoom := by
  cases request <;> rfl

namespace Deferred

/-- A request changes the zoom and sends one command, which carries the zoom after it. -/
theorem submit_singleton (state : Deferred) (request : Request) :
    state.submit [request] =
      ⟨request.zoomAfter state.zoom, state.pending ++ [request.command state.zoom]⟩ :=
  submit_eq state [request]

/-- To run all commands is to run as many as there are. -/
theorem runAll_eq_run (state : Deferred) : state.runAll = state.run state.pending.length := by
  simp [runAll, run]

end Deferred

/-- What happens to a queue: a request is made, or the first commands in it are run. -/
inductive Turn where
  | ask (request : Request)
  | run (limit : Nat)
deriving Repr, DecidableEq

/-- The request that a turn makes, if it makes one. -/
def Turn.request? : Turn → Option Request
  | .ask request => some request
  | .run _ => none

/-- A queue, and what has come of it so far. -/
structure Ledger where
  queue : Deferred := {}
  /-- What the page has been told. -/
  told : List Command := []
  /-- The zoom that was shown after each request. -/
  shown : List Float := []
deriving Repr

namespace Ledger

/-- Makes a request. -/
def ask (ledger : Ledger) (request : Request) : Ledger :=
  let queue := ledger.queue.submit [request]
  { ledger with queue := queue, shown := ledger.shown ++ [queue.zoom] }

/-- Runs the first commands. -/
def run (ledger : Ledger) (limit : Nat) : Ledger :=
  let ran := ledger.queue.run limit
  { ledger with queue := ran.2, told := ledger.told ++ ran.1 }

/-- Takes a turn. -/
def take (ledger : Ledger) : Turn → Ledger
  | .ask request => ledger.ask request
  | .run limit => ledger.run limit

/-- The ledger after turns, from an empty queue on. -/
def after (turns : List Turn) : Ledger :=
  turns.foldl take {}

/-- All commands so far: what the page has been told, then what waits. -/
def commands (ledger : Ledger) : List Command :=
  ledger.told ++ ledger.queue.pending

/-- The requests of turns. -/
def requests (turns : List Turn) : List Request :=
  turns.filterMap Turn.request?

theorem after_concat (turns : List Turn) (turn : Turn) :
    after (turns ++ [turn]) = (after turns).take turn :=
  List.foldl_append

theorem requests_concat (turns : List Turn) (turn : Turn) :
    requests (turns ++ [turn]) = requests turns ++ turn.request?.toList := by
  cases turn <;> simp [requests, Turn.request?]

/-! ### One turn -/

theorem commands_ask (ledger : Ledger) (request : Request) :
    (ledger.ask request).commands = ledger.commands ++ [request.command ledger.queue.zoom] := by
  simp only [commands, ask, Deferred.submit_singleton, List.append_assoc]

theorem zoom_ask (ledger : Ledger) (request : Request) :
    (ledger.ask request).queue.zoom = request.zoomAfter ledger.queue.zoom := by
  simp only [ask, Deferred.submit_singleton]

theorem shown_ask (ledger : Ledger) (request : Request) :
    (ledger.ask request).shown = ledger.shown ++ [request.zoomAfter ledger.queue.zoom] := by
  simp only [ask, Deferred.submit_singleton]

/-- What is run passes from those that wait to those that the page has been told. -/
theorem commands_run (ledger : Ledger) (limit : Nat) :
    (ledger.run limit).commands = ledger.commands := by
  simp only [commands, run, Deferred.run, List.append_assoc, List.take_append_drop]

/-- What holds after turns that made these requests. -/
structure Sound (asked : List Request) (ledger : Ledger) : Prop where
  length_shown : asked.length = ledger.shown.length
  commands_eq : ledger.commands = List.zipWith Request.event asked ledger.shown
  zoom_eq : ledger.queue.zoom = (Command.zooms ledger.commands).getLast?.getD 1.0

variable {asked : List Request} {ledger : Ledger}

theorem sound_empty : Sound [] {} where
  length_shown := rfl
  commands_eq := rfl
  zoom_eq := rfl

theorem Sound.ask (sound : Sound asked ledger) (request : Request) :
    Sound (asked ++ [request]) (ledger.ask request) where
  length_shown := by
    rw [shown_ask, List.length_append, List.length_append, sound.length_shown]
    rfl
  commands_eq := by
    rw [commands_ask, shown_ask, List.zipWith_append sound.length_shown, ← sound.commands_eq,
      Request.command_eq_event]
    rfl
  zoom_eq := by
    rw [zoom_ask, commands_ask, Request.zoomAfter_eq, Command.zooms_append, List.getLast?_append,
      Option.getD_or, ← sound.zoom_eq]

/-- Running commands takes no notice of the zoom, and the zoom none of them. -/
theorem Sound.run (sound : Sound asked ledger) (limit : Nat) : Sound asked (ledger.run limit) where
  length_shown := sound.length_shown
  commands_eq := by
    rw [commands_run]
    exact sound.commands_eq
  zoom_eq := by
    rw [commands_run]
    exact sound.zoom_eq

theorem Sound.take (sound : Sound asked ledger) (turn : Turn) :
    Sound (asked ++ turn.request?.toList) (ledger.take turn) := by
  cases turn with
  | ask request => exact sound.ask request
  | run limit =>
      have same := sound.run limit
      rwa [← List.append_nil asked] at same

theorem sound_after (turns : List Turn) : Sound (requests turns) (after turns) := by
  induction turns using List.reverseRecOn with
  | nil => exact sound_empty
  | append_singleton turns turn ih =>
      rw [after_concat, requests_concat]
      exact ih.take turn

/-- After any turns, what the page has been told and then what waits are one command for each request, in the order
of the requests, a change of zoom with the zoom that was shown right after it; and the zoom is the one that was
sent last, though it may still wait, or 1 if none was sent. Making a request tells the page nothing, and only a
request to change it changes the zoom; a run tells the page just the first commands that wait. -/
theorem conserved_of_turns (turns : List Turn) :
    (after turns).told ++ (after turns).queue.pending =
      List.zipWith Request.event (requests turns) (after turns).shown ∧
    (requests turns).length = (after turns).shown.length ∧
    (after turns).queue.zoom =
      (Command.zooms ((after turns).told ++ (after turns).queue.pending)).getLast?.getD 1.0 ∧
    (∀ request, (after (turns ++ [.ask request])).told = (after turns).told) ∧
    (∀ url, (after (turns ++ [.ask (.load url)])).queue.zoom = (after turns).queue.zoom) ∧
    (after (turns ++ [.ask .reload])).queue.zoom = (after turns).queue.zoom ∧
    ∀ limit,
      (after (turns ++ [.run limit])).told =
        (after turns).told ++ (after turns).queue.pending.take limit ∧
      (after (turns ++ [.run limit])).queue.pending = (after turns).queue.pending.drop limit ∧
      (after (turns ++ [.run limit])).queue.zoom = (after turns).queue.zoom := by
  have sound := sound_after turns
  refine ⟨sound.commands_eq, sound.length_shown, sound.zoom_eq, ?_, ?_, ?_, ?_⟩
  · intro request
    rw [after_concat]
    rfl
  · intro url
    rw [after_concat]
    exact zoom_ask _ _
  · rw [after_concat]
    exact zoom_ask _ _
  · intro limit
    rw [after_concat]
    exact ⟨rfl, rfl, rfl⟩

/-- The first change of zoom is run after the second one was made, with the zoom of its own. -/
example :
    let ledger := after [.ask .zoomIn, .ask (.load "http://a"), .ask .resetZoom, .run 2, .ask .reload]
    ledger.told = [.setZoom (Zoom.increase Zoom.normal), .load "http://a"] ∧
      ledger.queue.pending = [.setZoom Zoom.normal, .reload] ∧ ledger.queue.zoom = Zoom.normal :=
  ⟨rfl, rfl, rfl⟩

end Ledger

end GameClient
