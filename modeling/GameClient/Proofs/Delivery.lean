import Mathlib.Data.List.Basic
import Mathlib.Logic.Relation
import GameClient.Proofs.Executor
import GameClient.Proofs.Session
import GameClient.Render.Queue
/-!
A controller whose commands go to an executor, and are carried out while further requests are made. The executor
may be anywhere behind the controller, but a command says all that it needs, so that in the end the same has been
done as if the commands had waited in a queue until someone ran them.
-/

namespace GameClient

namespace Request

/-- What the page is told for a request, given the zoom after it. -/
def event (request : Request) (zoom : Float) : Command :=
  match request with
  | .load url => .load url
  | .reload => .reload
  | .zoomIn | .zoomOut | .resetZoom => .setZoom zoom

/-- The zoom after each of the requests, given the zoom before them. -/
def zooms (zoom : Float) (requests : List Request) : List Float :=
  (requests.scanl zoomAfter zoom).tail

theorem zooms_cons (zoom : Float) (request : Request) (rest : List Request) :
    zooms zoom (request :: rest) = request.zoomAfter zoom :: zooms (request.zoomAfter zoom) rest := by
  rw [zooms, List.scanl_cons, List.tail_cons, scanl_eq_cons_tail]
  rfl

theorem zooms_append (zoom : Float) (before after : List Request) :
    zooms zoom (before ++ after) = zooms zoom before ++ zooms (before.foldl zoomAfter zoom) after := by
  induction before generalizing zoom with
  | nil => rfl
  | cons request rest ih => rw [List.cons_append, zooms_cons, ih, zooms_cons, List.foldl_cons, List.cons_append]

theorem commands_append (zoom : Float) (before after : List Request) :
    commands zoom (before ++ after) =
      commands zoom before ++ commands (before.foldl zoomAfter zoom) after := by
  induction before generalizing zoom with
  | nil => rfl
  | cons request rest ih => rw [List.cons_append, commands, ih, commands, List.foldl_cons, List.cons_append]

/-- The command of a request carries the zoom after it. -/
theorem command_eq_event (zoom : Float) (request : Request) :
    request.command zoom = request.event (request.zoomAfter zoom) := by
  cases request <;> rfl

theorem commands_eq_zipWith (zoom : Float) (requests : List Request) :
    commands zoom requests = List.zipWith event requests (zooms zoom requests) := by
  induction requests generalizing zoom with
  | nil => rfl
  | cons request rest ih =>
      rw [commands, zooms_cons, List.zipWith_cons_cons, ih, command_eq_event]

end Request

theorem Controller.takeAll_eq (controller : Controller) (requests : List Request) :
    controller.takeAll requests =
      ⟨requests.foldl Request.zoomAfter controller.zoom,
        (Request.commands controller.zoom requests).reverse ++ controller.sent⟩ := by
  have zoom : (controller.takeAll requests).zoom = requests.foldl Request.zoomAfter controller.zoom := by
    unfold takeAll
    induction requests generalizing controller with
    | nil => rfl
    | cons request rest ih => exact ih (controller.take request)
  have sent : (controller.takeAll requests).sent =
      (Request.commands controller.zoom requests).reverse ++ controller.sent := by
    simpa using congrArg List.reverse (controller.sent_takeAll requests)
  rw [← zoom, ← sent]

namespace Deferred

/-- Takes requests one at a time: the zoom after each of them, and what waits after the last one. -/
def submitEach (state : Deferred) : List Request → List Float × Deferred
  | [] => ([], state)
  | request :: rest =>
    let next := state.submit [request]
    let others := next.submitEach rest
    (next.zoom :: others.1, others.2)

theorem submit_eq (state : Deferred) (requests : List Request) :
    state.submit requests =
      ⟨requests.foldl Request.zoomAfter state.zoom,
        state.pending ++ Request.commands state.zoom requests⟩ := by
  simp [submit, Controller.takeAll_eq]

/-- It makes no difference to what waits whether requests are made one at a time. -/
theorem submitEach_eq (state : Deferred) (requests : List Request) :
    state.submitEach requests = (Request.zooms state.zoom requests, state.submit requests) := by
  induction requests generalizing state with
  | nil => simp [submitEach, submit_eq, Request.zooms, Request.commands]
  | cons request rest ih =>
      rw [submitEach, ih, Request.zooms_cons]
      simp [submit_eq, Request.commands]

/-- All that runs are the commands of the requests. -/
theorem runAll_submitEach (requests : List Request) :
    ((submitEach {} requests).2.runAll).1 = Request.commands Zoom.normal requests := by
  rw [submitEach_eq, submit_eq]
  exact List.nil_append _

end Deferred

namespace Executor

variable {α : Type} {name : String} {jobs : List (Job α)} {executor next : Executor α}

/-- An owner with nothing ahead may still send a job. -/
theorem Sound.send (sound : Sound name jobs executor) {ending : Ending}
    (owner : executor.owner = .submitting [] ending) (job : Job α) :
    Sound name (jobs ++ [job]) (executor.send job) := by
  -- To have had the job ahead makes no difference to what holds.
  have planned : Sound name (jobs ++ [job]) { executor with owner := .submitting [job] ending } :=
    { name_eq := sound.name_eq
      threadName_eq := sound.threadName_eq
      on_thread := sound.on_thread
      jobs_eq := by
        rw [sound.jobs_eq, owner]
        simp [OwnerPhase.ahead]
      serves := sound.serves
      owner := by
        have holds := sound.owner
        rwa [OwnerHolds, owner] at holds
      thread := sound.thread }
  have sent := planned.step (.submit rfl)
  have same : executor.send job = { executor.send job with owner := .submitting [] ending } := by
    rw [← owner]
    rfl
  rw [same]
  exact sent

/-- Without a job ahead none is submitted. -/
theorem Step.submitted_eq (step : Step executor next) (nothing : executor.owner.ahead = []) :
    next.submitted = executor.submitted := by
  cases step with
  | submit owner =>
      rw [owner] at nothing
      simp [OwnerPhase.ahead] at nothing
  | giveUp owner => rfl
  | close owner => rfl
  | join owner handle ended => rfl
  | pass owner noHandle => rfl
  | receive thread queue => rfl
  | act thread => rfl
  | crash thread => rfl
  | abandon thread => rfl
  | finish thread empty noSender => rfl

end Executor

/-- A controller with its executor at one moment. -/
structure Delivery where
  /-- The requests that are yet to be made. -/
  ahead : List Request
  controller : Controller := {}
  /-- The zoom that the controller showed after each request. -/
  shown : List Float := []
  executor : Executor Command
deriving Repr

namespace Delivery

/-- A new controller with a new executor of this name. -/
def start (name : String) (requests : List Request) : Delivery where
  ahead := requests
  executor := .start name [] .drop

/-- A request is made: the controller takes it and sends its command. -/
def make (delivery : Delivery) (request : Request) : Delivery :=
  { delivery with
    controller := delivery.controller.take request
    shown := delivery.shown ++ [(delivery.controller.take request).zoom]
    executor := delivery.executor.send (.act (request.command delivery.controller.zoom)) }

/-- A step of the controller or of its executor. -/
inductive Step : Delivery → Delivery → Prop where
  /-- The next request is made. -/
  | make {delivery : Delivery} {request : Request} {rest : List Request}
      (ahead : delivery.ahead = request :: rest) :
      Step delivery { delivery.make request with ahead := rest }
  /-- The thread takes a step. -/
  | work {delivery : Delivery} {next : Executor Command} (moves : delivery.executor.Step next)
      (owner : next.owner = delivery.executor.owner) : Step delivery { delivery with executor := next }
  /-- After the last request the controller is dropped, and its executor with it. -/
  | drop {delivery : Delivery} {next : Executor Command} (ahead : delivery.ahead = [])
      (moves : delivery.executor.Step next) : Step delivery { delivery with executor := next }

/-- Some interleaving of the controller and the thread leads from one delivery to the other. -/
def Reaches : Delivery → Delivery → Prop :=
  Relation.ReflTransGen Step

/-- The controller has been dropped. -/
def IsDropped (delivery : Delivery) : Prop :=
  delivery.executor.owner = .returned

/-- What holds at every moment: the requests made so far have led to the zooms shown and to the commands sent, and
the executor is not given up before the last one. -/
structure Sound (name : String) (requests : List Request) (delivery : Delivery) : Prop where
  made : ∃ made, requests = made ++ delivery.ahead ∧
    delivery.controller.zoom = made.foldl Request.zoomAfter Zoom.normal ∧
    delivery.shown = Request.zooms Zoom.normal made ∧
    delivery.executor.submitted = (Request.commands Zoom.normal made).map .act
  executor : Executor.Sound name delivery.executor.submitted delivery.executor
  owner : delivery.ahead ≠ [] → delivery.executor.owner = .submitting [] .drop

variable {name : String} {requests : List Request} {delivery next : Delivery}

theorem sound_start (name : String) (requests : List Request) :
    Sound name requests (start name requests) where
  made := ⟨[], rfl, rfl, rfl, rfl⟩
  executor := Executor.sound_start name [] .drop
  owner _ := rfl

theorem Sound.nothing_ahead (sound : Sound name requests delivery) :
    delivery.executor.owner.ahead = [] := by
  simpa using sound.executor.jobs_eq.symm

theorem Sound.make (sound : Sound name requests delivery) {request : Request} {rest : List Request}
    (ahead : delivery.ahead = request :: rest) :
    Sound name requests { delivery.make request with ahead := rest } := by
  have owner := sound.owner (by simp [ahead])
  obtain ⟨made, split, zoom, shown, submitted⟩ := sound.made
  refine ⟨⟨made ++ [request], ?_, ?_, ?_, ?_⟩, sound.executor.send owner _, fun _ => owner⟩
  · rw [split, ahead, List.append_assoc]
    rfl
  · rw [List.foldl_append, ← zoom]
    rfl
  · rw [Request.zooms_append, ← zoom, ← shown]
    rfl
  · rw [Request.commands_append, ← zoom, List.map_append, ← submitted]
    rfl

/-- What the executor does changes nothing on the side of the controller. -/
theorem Sound.move (sound : Sound name requests delivery) {moved : Executor Command}
    (moves : delivery.executor.Step moved)
    (owner : delivery.ahead ≠ [] → moved.owner = delivery.executor.owner) :
    Sound name requests { delivery with executor := moved } := by
  have submitted := moves.submitted_eq sound.nothing_ahead
  refine ⟨?_, ?_, fun ahead => (owner ahead).trans (sound.owner ahead)⟩
  · rw [submitted]
    exact sound.made
  · rw [submitted]
    exact sound.executor.step moves

theorem Sound.step (sound : Sound name requests delivery) (step : Step delivery next) :
    Sound name requests next := by
  cases step with
  | make ahead => exact sound.make ahead
  | work moves owner => exact sound.move moves fun _ => owner
  | drop ahead moves => exact sound.move moves fun more => absurd ahead more

theorem Sound.reaches (sound : Sound name requests delivery) (run : Reaches delivery next) :
    Sound name requests next := by
  induction run with
  | refl => exact sound
  | tail _ step ih => exact ih.step step

/-- A bound for the steps that a delivery can still take. -/
def left (delivery : Delivery) : Nat :=
  4 * delivery.ahead.length + delivery.executor.left

theorem Step.left_lt (step : Step delivery next) : next.left < delivery.left := by
  cases step with
  | @make request rest ahead =>
      have queue := Executor.length_queue_send delivery.executor
        (.act (request.command delivery.controller.zoom))
      simp only [left, ahead, List.length_cons, Delivery.make, Executor.left, Executor.send] at queue ⊢
      omega
  | work moves owner =>
      have executor := moves.left_lt
      simp only [left]
      omega
  | drop ahead moves =>
      have executor := moves.left_lt
      simp only [left]
      omega

theorem Sound.exists_step (sound : Sound name requests delivery) (busy : ¬ delivery.IsDropped) :
    ∃ next, Step delivery next := by
  cases ahead : delivery.ahead with
  | cons request rest => exact ⟨_, .make ahead⟩
  | nil =>
      obtain ⟨moved, moves⟩ := sound.executor.exists_step busy
      exact ⟨_, .drop ahead moves⟩

theorem Sound.exists_dropped (sound : Sound name requests delivery) :
    ∃ last, Reaches delivery last ∧ last.IsDropped :=
  exists_reaches_end left (fun step => step.left_lt) (fun sound step => Sound.step sound step)
    (fun sound busy => Sound.exists_step sound busy) sound

/-- When the controller has been dropped, every request has been made. -/
theorem Sound.ahead_eq_nil (sound : Sound name requests delivery) (dropped : delivery.IsDropped) :
    delivery.ahead = [] := by
  cases ahead : delivery.ahead with
  | nil => rfl
  | cons request rest =>
      have submitting := sound.owner (by simp [ahead])
      rw [dropped] at submitting
      exact nomatch submitting

/-- What has been done so far is where the commands of the requests begin. -/
theorem Sound.done_prefix (sound : Sound name requests delivery) :
    delivery.executor.done.map Prod.fst <+: Request.commands Zoom.normal requests := by
  obtain ⟨made, split, _, _, submitted⟩ := sound.made
  have account := sound.executor.serves.done_prefix
  rw [submitted] at account
  have begun : delivery.executor.done.map Prod.fst <+: Request.commands Zoom.normal made :=
    (List.prefix_map_iff_of_injective fun _ _ same => Job.act.inj same).mp account
  refine begun.trans ?_
  rw [split, Request.commands_append]
  exact List.prefix_append _ _

/-- The commands of all requests have been carried out when the controller has been dropped. -/
theorem Sound.done_eq_of_isDropped (sound : Sound name requests delivery) (dropped : delivery.IsDropped) :
    delivery.shown = Request.zooms Zoom.normal requests ∧
      delivery.executor.done.map Prod.fst = Request.commands Zoom.normal requests := by
  obtain ⟨made, split, _, shown, submitted⟩ := sound.made
  have all : requests = made := by
    rw [split, sound.ahead_eq_nil dropped, List.append_nil]
  have finished := sound.executor.eq_finished dropped
  rw [submitted, ← all] at finished
  refine ⟨by rw [shown, all], ?_⟩
  calc delivery.executor.done.map Prod.fst
      = (Worker.history name ((Request.commands Zoom.normal requests).map .act)).map Prod.fst :=
        congrArg (fun executor => executor.done.map Prod.fst) finished
    _ = (Request.commands Zoom.normal requests).map id := by
        rw [Worker.history, Worker.effects_map_act, List.map_map]
        rfl
    _ = Request.commands Zoom.normal requests := List.map_id _

/-- However requests and the thread take turns, the zooms that the controller shows are those that it shows
where commands wait until someone runs them, and what has been done is the beginning of what is then run. The
controller can always be dropped, and by then the same has been done: one event for each request, in the order
of the requests, a change of zoom with the zoom that was shown right after it. -/
theorem delivered_of_reaches (run : Reaches (start name requests) delivery) :
    delivery.shown <+: (Deferred.submitEach {} requests).1 ∧
    delivery.executor.done.map Prod.fst <+: ((Deferred.submitEach {} requests).2.runAll).1 ∧
    (Deferred.submitEach {} requests).1.length = requests.length ∧
    ((Deferred.submitEach {} requests).2.runAll).1 =
      List.zipWith Request.event requests (Deferred.submitEach {} requests).1 ∧
    (∃ last, Reaches delivery last ∧ last.IsDropped) ∧
    (delivery.IsDropped →
      delivery.shown = (Deferred.submitEach {} requests).1 ∧
      delivery.executor.done.map Prod.fst = ((Deferred.submitEach {} requests).2.runAll).1) := by
  have sound : Sound name requests delivery := (sound_start name requests).reaches run
  have zooms : (Deferred.submitEach {} requests).1 = Request.zooms Zoom.normal requests := by
    rw [Deferred.submitEach_eq]
  rw [zooms, Deferred.runAll_submitEach]
  refine ⟨?_, sound.done_prefix, ?_, Request.commands_eq_zipWith _ _, sound.exists_dropped,
    sound.done_eq_of_isDropped⟩
  · obtain ⟨made, split, _, shown, _⟩ := sound.made
    rw [shown, split, Request.zooms_append]
    exact List.prefix_append _ _
  · simp [Request.zooms]

/-- A thread that has done nothing when the zoom changes for the second time still carries out both changes,
each with its own zoom. -/
theorem delivered_of_late_thread :
    ∃ delivery last : Delivery,
      Reaches (start "render" [.zoomIn, .load "http://a", .zoomIn]) delivery ∧
      delivery.executor.thread = .running (.act (.setZoom (Zoom.increase Zoom.normal))) ∧
      delivery.controller.zoom = Zoom.increase (Zoom.increase Zoom.normal) ∧
      Reaches delivery last ∧ last.IsDropped ∧
      last.executor.done.map Prod.fst =
        [.setZoom (Zoom.increase Zoom.normal), .load "http://a",
          .setZoom (Zoom.increase (Zoom.increase Zoom.normal))] := by
  obtain ⟨delivery, run, thread, zoom⟩ : ∃ delivery,
      Reaches (start "render" [.zoomIn, .load "http://a", .zoomIn]) delivery ∧
      delivery.executor.thread = .running (.act (.setZoom (Zoom.increase Zoom.normal))) ∧
      delivery.controller.zoom = Zoom.increase (Zoom.increase Zoom.normal) :=
    ⟨_, .head (.make rfl) <| .head (.work (.receive rfl rfl) rfl) <| .head (.make rfl) <|
      .head (.make rfl) .refl, rfl, rfl⟩
  obtain ⟨_, _, _, _, ⟨last, later, dropped⟩, _⟩ := delivered_of_reaches run
  obtain ⟨_, _, _, _, _, ended⟩ := delivered_of_reaches (run.trans later)
  obtain ⟨_, done⟩ := ended dropped
  exact ⟨delivery, last, run, thread, zoom, later, dropped, done⟩

end Delivery

end GameClient
