import Mathlib.Data.List.Basic
import Mathlib.Logic.Relation
import GameClient.Proofs.Session
import GameClient.Proofs.Talk
import GameClient.Proofs.Worker
/-!
The two threads of a window. The console thread reads one line after the other and sends commands or opens
the page itself; meanwhile the render thread carries out the commands that have reached it, one at a time.
A step of a window is a step of either thread, up to the next moment at which the other thread could notice
it, and an interleaving is any sequence of steps. At every moment what has been done is accounted for by the
actions called so far, so that a closed window has done the same in every interleaving.
-/

namespace GameClient

open Text

/-- What the console thread of a window is doing. -/
inductive ConsolePhase where
  /-- It talks to the user about the page at an address. -/
  | talking (url : String) (menu : Option MenuBar) (place : Talk.Place)
  /-- It sends no more commands and waits for the render thread to end. -/
  | closing
  /-- The window is closed. -/
  | closed
deriving Repr, DecidableEq

namespace ConsolePhase

/-- The console thread talks about the address if it talks at all, and these actions are yet to be
called. -/
def Owes (url : String) (actions : List MenuAction) : ConsolePhase → Prop
  | .talking shown menu place => shown = url ∧ actions = place.calls menu
  | .closing | .closed => actions = []

/-- A bound for what the console thread can still do, each line counted for itself and for a command. -/
def left : ConsolePhase → Nat
  | .talking _ _ place => 2 * place.lines.length + 2
  | .closing => 1
  | .closed => 0

end ConsolePhase

/-- A window at one moment: what its two threads are about to do, and what they have done. -/
structure Window where
  console : ConsolePhase
  controller : Controller := {}
  worker : Worker Command := { name := "render" }
  view : PageView := {}
  /-- The attempts to open an address that the render thread has made. -/
  rendered : List Attempt := []
  /-- The attempts to open an address that the menu has made itself. -/
  opened : List Attempt := []
  /-- The zooms that the render thread has been given. -/
  zooms : List Float := []
deriving Repr

namespace Window

/-- How many addresses both threads have handed to the desktop. -/
def asked (window : Window) : Nat :=
  window.rendered.length + window.opened.length

/-- The console thread sends the command of a request. -/
def request (window : Window) (request : Request) : Window :=
  { window with
    controller := window.controller.take request
    worker := window.worker.submit (.act (request.command window.controller.zoom)) }

/-- The window when the console begins to read: the address of the page has been sent. Without a page the
window is closed at once. -/
def start (settings : Settings) (room : Talk.Room) (input : List UInt8) : Window :=
  match settings.page with
  | .error _ => { console := .closed }
  | .ok address =>
    let url := address.toString
    let window : Window :=
      { console := .talking url (Session.menu settings) (Talk.Place.ofInput room input) }
    window.request (.load url)

section Steps

-- The desktop as it answers to each address handed over to it, the first one first.
variable (desktops : Nat → Desktop)

/-- The console thread calls a menu action. -/
def obey (window : Window) (url : String) (action : MenuAction) : Window :=
  match action.request? with
  | some request => window.request request
  | none =>
    { window with opened := window.opened ++ [(desktops window.asked).attempt url] }

/-- The console thread takes what shows of a line. -/
def hear (window : Window) (url : String) (event : Option TalkEvent) : Window :=
  match event.bind TalkEvent.call? with
  | some action => window.obey desktops url action
  | none => window

/-- The render thread carries out a command and is left as `worker`. -/
def carryOut (window : Window) (command : Command) (worker : Worker Command) : Window :=
  { window with
    worker := worker
    view := window.view.after command
    rendered := window.rendered ++ window.view.attempts (desktops window.asked) command
    zooms := window.zooms ++ Command.zooms [command] }

/-- A step of one of the two threads. -/
inductive Step : Window → Window → Prop where
  /-- The console thread reads a line and goes on. -/
  | turn {window : Window} {url : String} {menu : Option MenuBar} {place next : Talk.Place}
      {event : Option TalkEvent} (talking : window.console = .talking url menu place)
      (move : place.move menu = .go event next) :
      Step window { window.hear desktops url event with console := .talking url menu next }
  /-- The talk is over, and the console thread sends no more commands. -/
  | leave {window : Window} {url : String} {menu : Option MenuBar} {place : Talk.Place}
      {ending : TalkEnd} (talking : window.console = .talking url menu place)
      (move : place.move menu = .stop ending) :
      Step window { window with console := .closing }
  /-- The render thread carries out the oldest command. -/
  | render {window : Window} {command : Command} {worker : Worker Command}
      (taken : window.worker.step = some worker)
      (carried : worker.done = window.worker.done ++ [command]) :
      Step window (window.carryOut desktops command worker)
  /-- The render thread has nothing left to do, and the window is closed. -/
  | join {window : Window} (closing : window.console = .closing)
      (ended : window.worker.step = none) :
      Step window { window with console := .closed }

/-- Some interleaving of the two threads leads from one window to the other. -/
def Reaches : Window → Window → Prop :=
  Relation.ReflTransGen (Step desktops)

end Steps

section Account

variable {β : Type} (look : Attempt → β) (desktop : Desktop)

/-- As far as `look` tells attempts apart, the answers are always those of this desktop. -/
def Alike (desktops : Nat → Desktop) : Prop :=
  ∀ n address, look ((desktops n).attempt address) = look (desktop.attempt address)

/-- The account of a window given the actions that have been called: its commands are those of these
actions, and what it has done is what a desktop shows of the commands carried out, as far as `look` tells
attempts apart. -/
structure Account (url : String) (called : List MenuAction) (window : Window) : Prop where
  controller : window.controller = Controller.takeAll {} (Session.requests url called)
  serves : window.worker.Serves (window.controller.sent.reverse.map .act)
  view : window.view = PageView.afterAll {} window.worker.done
  rendered : window.rendered.map look =
    (PageView.attemptsOf desktop {} window.worker.done).map look
  zooms : window.zooms = Command.zooms window.worker.done
  opened : window.opened.map look = (Session.directAttempts desktop url called).map look

variable {look desktop} {desktops : Nat → Desktop} {url : String} {called : List MenuAction}
  {window : Window}

theorem Account.withConsole (h : Account look desktop url called window) (phase : ConsolePhase) :
    Account look desktop url called { window with console := phase } :=
  ⟨h.controller, h.serves, h.view, h.rendered, h.zooms, h.opened⟩

theorem Account.obey (same : Alike look desktop desktops)
    (h : Account look desktop url called window) (action : MenuAction) :
    Account look desktop url (called ++ [action]) (window.obey desktops url action) := by
  have direct := Session.directAttempts_concat desktop url called action
  have requests := Session.requests_concat url called action
  unfold Window.obey
  cases asked : action.request? with
  | none =>
      rw [asked, if_pos rfl] at direct
      rw [asked, Option.toList_none, List.append_nil] at requests
      -- Only the desktop is asked, so the commands and the render thread stay as they are.
      refine ⟨?_, h.serves, h.view, h.rendered, h.zooms, ?_⟩
      · rw [requests]
        exact h.controller
      · simp [direct, h.opened, same window.asked url]
  | some request =>
      rw [asked, if_neg (by simp), List.append_nil] at direct
      rw [asked, Option.toList_some] at requests
      -- The command waits behind the others, and nothing has been done about it yet.
      have done : (window.request request).worker.done = window.worker.done :=
        Worker.done_submit _ _
      refine ⟨?_, ?_, ?_, ?_, ?_, ?_⟩
      · rw [requests, Controller.takeAll_append, ← h.controller]
        rfl
      · simpa [Window.request, Controller.take] using h.serves.submit _
      · rw [done]
        exact h.view
      · rw [done]
        exact h.rendered
      · rw [done]
        exact h.zooms
      · rw [direct]
        exact h.opened

theorem Account.hear (same : Alike look desktop desktops)
    (h : Account look desktop url called window) (event : Option TalkEvent) :
    Account look desktop url (called ++ (event.bind TalkEvent.call?).toList)
      (window.hear desktops url event) := by
  unfold Window.hear
  cases event.bind TalkEvent.call? with
  | none =>
      rw [Option.toList_none, List.append_nil]
      exact h
  | some action => exact h.obey same action

theorem Account.carryOut (same : Alike look desktop desktops)
    (h : Account look desktop url called window) {command : Command} {worker : Worker Command}
    (taken : window.worker.step = some worker)
    (carried : worker.done = window.worker.done ++ [command]) :
    Account look desktop url called (window.carryOut desktops command worker) := by
  unfold Window.carryOut
  refine ⟨h.controller, h.serves.step taken, ?_, ?_, ?_, h.opened⟩
  · simp [carried, h.view, PageView.afterAll]
  · have attempts := PageView.map_attempts_congr (same window.asked) window.view command
    rw [carried, PageView.attemptsOf_append, List.map_append, List.map_append, h.rendered, attempts,
      h.view]
    simp [PageView.attemptsOf]
  · rw [carried, h.zooms]
    exact List.filterMap_append.symm

end Account

section Follows

variable {β : Type} (look : Attempt → β) (desktop : Desktop)

/-- The window is on its way through these actions: some have been called and account for it, the others
are yet to be called, and it is closed only when the render thread has nothing left to do. -/
def Follows (url : String) (actions : List MenuAction) (window : Window) : Prop :=
  ∃ called ahead, actions = called ++ ahead ∧ Account look desktop url called window ∧
    window.console.Owes url ahead ∧ (window.console = .closed → window.worker.step = none)

variable {look desktop} {desktops : Nat → Desktop} {url : String} {actions : List MenuAction}
  {window next : Window}

/-- A window with a page begins on its way through all that the input calls. -/
theorem follows_start {settings : Settings} {address : Address}
    (page : settings.page = .ok address) (room : Talk.Room) (input : List UInt8) :
    Follows look desktop address.toString (Session.calls settings room input)
      (start settings room input) := by
  unfold start
  rw [page]
  exact ⟨[], _, rfl, ⟨rfl, Or.inl ⟨rfl, rfl⟩, rfl, rfl, rfl, rfl⟩, ⟨rfl, rfl⟩, nofun⟩

/-- No step of either thread leaves the way. -/
theorem Follows.step (same : Alike look desktop desktops)
    (h : Follows look desktop url actions window) (step : Step desktops window next) :
    Follows look desktop url actions next := by
  obtain ⟨called, ahead, rfl, account, owes, idle⟩ := h
  cases step with
  | @turn shown menu place later event talking move =>
      rw [talking] at owes
      obtain ⟨rfl, rfl⟩ := owes
      -- The action that the line calls, if any, passes from those ahead to those called.
      refine ⟨_, later.calls menu, ?_, (account.hear same event).withConsole _, ⟨rfl, rfl⟩, nofun⟩
      rw [Talk.Place.calls_of_go move, List.append_assoc]
  | leave talking move =>
      rw [talking] at owes
      have nothing := Talk.Place.calls_of_stop move
      exact ⟨called, ahead, rfl, account.withConsole _, owes.2.trans nothing, nofun⟩
  | render taken carried =>
      refine ⟨called, ahead, rfl, account.carryOut same taken carried, owes, fun closed => ?_⟩
      rw [idle closed] at taken
      exact absurd taken (by simp)
  | join closing ended =>
      rw [closing] at owes
      exact ⟨called, ahead, rfl, account.withConsole _, owes, fun _ => ended⟩

theorem Follows.reaches (same : Alike look desktop desktops)
    (h : Follows look desktop url actions window) (run : Reaches desktops window next) :
    Follows look desktop url actions next := by
  induction run with
  | refl => exact h
  | tail _ step ih => exact ih.step same step

/-- At the end of the way all commands have been carried out. -/
theorem Follows.done_of_closed (h : Follows look desktop url actions window)
    (closed : window.console = .closed) :
    window.rendered.map look =
        (PageView.attemptsOf desktop {} (Session.commands url actions)).map look ∧
      window.opened.map look = (Session.directAttempts desktop url actions).map look ∧
      window.zooms = Command.zooms (Session.commands url actions) := by
  obtain ⟨called, ahead, rfl, account, owes, idle⟩ := h
  rw [closed] at owes
  have all : called ++ ahead = called := by rw [show ahead = [] from owes, List.append_nil]
  have done : window.worker.done = Session.commands url called := by
    rw [account.serves.done_of_step_eq_none (idle closed), Worker.effects_map_act, account.controller]
    rfl
  rw [all, ← done]
  exact ⟨account.rendered, account.opened, account.zooms⟩

end Follows

section Progress

/-- A bound for the steps that a window can still take. -/
def left (window : Window) : Nat :=
  window.console.left + window.worker.waiting.length

variable {desktops : Nat → Desktop} {window next : Window}

theorem length_waiting_hear (desktops : Nat → Desktop) (window : Window) (url : String)
    (event : Option TalkEvent) :
    (window.hear desktops url event).worker.waiting.length ≤ window.worker.waiting.length + 1 := by
  unfold hear obey
  cases event.bind TalkEvent.call? with
  | none => exact Nat.le_succ _
  | some action =>
      cases asked : action.request? with
      | none => simp [asked]
      | some request =>
          simp only [asked, Window.request]
          exact Worker.length_waiting_submit _ _

/-- Every step brings a window nearer to its end. -/
theorem Step.left_lt (step : Step desktops window next) : next.left < window.left := by
  cases step with
  | @turn url menu place later event talking move =>
      have lines := Talk.Place.length_lines_of_go move
      have waiting := length_waiting_hear desktops window url event
      simp only [left, talking, ConsolePhase.left]
      omega
  | leave talking move =>
      simp only [left, talking, ConsolePhase.left]
      omega
  | render taken carried =>
      have waiting := Worker.length_waiting_of_step taken
      simp only [left, carryOut]
      omega
  | join closing ended =>
      simp only [left, closing, ConsolePhase.left]
      omega

variable {β : Type} {look : Attempt → β} {desktop : Desktop} {url : String}
  {actions : List MenuAction}

/-- A window that is on its way can take a step until it is closed. -/
theorem Follows.exists_step (h : Follows look desktop url actions window)
    (unclosed : window.console ≠ .closed) : ∃ next, Step desktops window next := by
  obtain ⟨called, ahead, rfl, account, owes, idle⟩ := h
  cases phase : window.console with
  | talking url menu place =>
      cases move : place.move menu with
      | stop ending => exact ⟨_, .leave phase move⟩
      | go event later => exact ⟨_, .turn phase move⟩
  | closing =>
      cases taken : window.worker.step with
      | none => exact ⟨_, .join phase taken⟩
      | some worker =>
          obtain ⟨command, rest, _, rfl⟩ := account.serves.step_act taken
          exact ⟨_, .render taken rfl⟩
  | closed => exact absurd phase unclosed

/-- A window that is on its way can always be closed. -/
theorem Follows.exists_closed (same : Alike look desktop desktops)
    (h : Follows look desktop url actions window) :
    ∃ last, Reaches desktops window last ∧ last.console = .closed :=
  exists_reaches_end left (fun step => Step.left_lt step)
    (fun follows step => Follows.step same follows step)
    (fun follows unclosed => Follows.exists_step follows unclosed) h

end Progress

section Runs

variable {desktops : Nat → Desktop} {settings : Settings} {room : Talk.Room} {input : List UInt8}
  {window : Window}

/-- Without a page neither thread takes a step. -/
theorem eq_of_reaches_of_error {error : AddressError} (page : settings.page = .error error)
    (run : Reaches desktops (start settings room input) window) :
    window = { console := .closed } := by
  have first : start settings room input = { console := .closed } := by
    unfold start
    rw [page]
  induction run with
  | refl => exact first
  | tail _ step ih =>
      rw [ih] at step
      cases step with
      | turn talking move => simp at talking
      | leave talking move => simp at talking
      | render taken carried => simp [Worker.step] at taken
      | join closing ended => simp at closing

/-- A window can take a step until it is closed. -/
theorem exists_step_of_reaches (run : Reaches desktops (start settings room input) window)
    (unclosed : window.console ≠ .closed) : ∃ next, Step desktops window next := by
  cases page : settings.page with
  | error error =>
      rw [eq_of_reaches_of_error page run] at unclosed
      exact absurd rfl unclosed
  | ok address =>
      have same : Alike Attempt.url (desktops 0) desktops := fun _ _ => rfl
      exact ((follows_start page room input).reaches same run).exists_step unclosed

/-- Whatever the desktop does and however the two threads take turns, a window with a page can always be
closed, and then the render thread has opened the page once to load it and once for every reload, the menu has
opened it once for every call that asks for that, and the engine has been given one zoom for every change of
it. Without a page nothing is done, whatever the input. What a session is said to do is what has been done
in every closed window. -/
theorem opens_and_zooms_of_reaches (run : Reaches desktops (start settings room input) window) :
    (∀ address, settings.page = .ok address →
      (∃ last, Reaches desktops window last ∧ last.console = .closed) ∧
      (window.console = .closed →
        window.rendered.map Attempt.url =
            List.replicate (1 + (Session.calls settings room input).count .reload)
              address.toString ∧
          window.opened.map Attempt.url =
            List.replicate ((Session.calls settings room input).count .openExternal)
              address.toString ∧
          window.zooms = MenuAction.zooms (Session.calls settings room input))) ∧
    (∀ error, settings.page = .error error → window = { console := .closed }) ∧
    ∀ desktop, desktops = (fun _ => desktop) → room = none → window.console = .closed →
      (Session.run desktop settings input).rendered = window.rendered ∧
        (Session.run desktop settings input).opened = window.opened ∧
        (Session.run desktop settings input).zooms = window.zooms := by
  refine ⟨?page, fun error page => eq_of_reaches_of_error page run, ?session⟩
  case page =>
    intro address page
    have same : Alike Attempt.url (desktops 0) desktops := fun _ _ => rfl
    have follows := (follows_start page room input).reaches same run
    refine ⟨follows.exists_closed same, fun closed => ?_⟩
    obtain ⟨rendered, opened, zooms⟩ := follows.done_of_closed closed
    rw [Session.urls_attemptsOf] at rendered
    rw [Session.urls_directAttempts] at opened
    rw [Session.zooms_commands] at zooms
    exact ⟨rendered, opened, zooms⟩
  case session =>
    rintro desktop rfl rfl closed
    unfold Session.run
    cases page : settings.page with
    | error error =>
        rw [eq_of_reaches_of_error page run]
        exact ⟨rfl, rfl, rfl⟩
    | ok address =>
        have same : Alike id desktop fun _ => desktop := fun _ _ => rfl
        have follows := (follows_start page none input).reaches same run
        obtain ⟨rendered, opened, zooms⟩ := follows.done_of_closed closed
        simp only [List.map_id] at rendered opened
        exact ⟨rendered.symm, opened.symm, zooms.symm⟩

/-- A desktop that fails at first loses no attempt to open the page: all of them are made, one after the
other. A path that makes no page leaves nothing to do. -/
theorem opens_and_zooms_of_failing_desktop :
    ∃ (desktops : Nat → Desktop) (input : List UInt8) (window nowhere : Window),
      Reaches desktops (start .standard (some 0) input) window ∧ window.console = .closed ∧
      window.rendered.map Attempt.url = ["http://localhost:3000/", "http://localhost:3000/"] ∧
      window.opened.map Attempt.url = ["http://localhost:3000/"] ∧
      window.zooms = [Zoom.increase Zoom.normal, Zoom.normal] ∧
      Reaches desktops (start { Settings.standard with path := "%" } none input) nowhere ∧
      nowhere.rendered = [] := by
  let desktops : Nat → Desktop := fun n => { supported := decide (1 < n) }
  let input : List UInt8 := Utf8.encode "r\nopen in browser\n=\n0\nbogus\nr\n".toList
  let address : Address := ⟨.http, ⟨none, "localhost".toList, some 3000⟩, ⟨['/'], none, none⟩⟩
  let pageless : Settings := { Settings.standard with path := "%" }
  have page : Settings.standard.page = .ok address := rfl
  have noPage : pageless.page = .error (.malformed "%") := by decide
  have calls : Session.calls .standard (some 0) input =
      [.reload, .openExternal, .zoomIn, .resetZoom] := by decide
  have first : Reaches desktops (start .standard (some 0) input) (start .standard (some 0) input) :=
    .refl
  obtain ⟨window, run, closed⟩ := ((opens_and_zooms_of_reaches first).1 address page).1
  obtain ⟨rendered, opened, zooms⟩ := ((opens_and_zooms_of_reaches run).1 address page).2 closed
  rw [calls] at rendered opened zooms
  have idle : Reaches desktops (start pageless none input) (start pageless none input) := .refl
  have nothing := (opens_and_zooms_of_reaches idle).2.1 _ noPage
  refine ⟨desktops, input, window, _, run, closed, rendered, opened, zooms, .refl, ?_⟩
  rw [nothing]

end Runs

end Window

end GameClient
