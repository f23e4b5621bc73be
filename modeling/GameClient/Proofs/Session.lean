import GameClient.Console.Session
/-!
What a session does, counted. The requests of a session become one command each, and the attempts to open
an address and the zooms that these commands lead to are counted by the menu actions that were called.
-/

namespace GameClient

/-- How a menu action changes the zoom, if it does. -/
def MenuAction.zoomChange? : MenuAction → Option (Float → Float)
  | .zoomIn => some Zoom.increase
  | .zoomOut => some Zoom.decrease
  | .resetZoom => some fun _ => Zoom.normal
  | .reload | .openExternal => none

/-- The zooms that the calls of menu actions lead to, one for each change of the zoom. -/
def MenuAction.zooms (calls : List MenuAction) : List Float :=
  ((calls.filterMap zoomChange?).scanl (fun zoom change => change zoom) Zoom.normal).tail

namespace Request

/-- The commands for requests, given the zoom before them. -/
def commands (zoom : Float) : List Request → List Command
  | [] => []
  | request :: rest => request.command zoom :: commands (request.zoomAfter zoom) rest

end Request

namespace Controller

/-- A controller sends the command of each request, in order. -/
theorem sent_takeAll (controller : Controller) (requests : List Request) :
    (controller.takeAll requests).sent.reverse =
      controller.sent.reverse ++ Request.commands controller.zoom requests := by
  unfold takeAll
  induction requests generalizing controller with
  | nil => simp [Request.commands]
  | cons request rest ih =>
      rw [List.foldl_cons, ih]
      simp [take, Request.commands]

theorem takeAll_append (controller : Controller) (before after : List Request) :
    controller.takeAll (before ++ after) = (controller.takeAll before).takeAll after :=
  List.foldl_append

end Controller

namespace PageView

/-- The view after commands. -/
def afterAll (view : PageView) (commands : List Command) : PageView :=
  commands.foldl after view

/-- Desktops whose attempts look the same lead to attempts that look the same. -/
theorem map_attempts_congr {β : Type} {look : Attempt → β} {desktop other : Desktop}
    (same : ∀ address, look (desktop.attempt address) = look (other.attempt address))
    (view : PageView) (command : Command) :
    (view.attempts desktop command).map look = (view.attempts other command).map look := by
  cases command with
  | load url => simp [attempts, same]
  | reload => simp [attempts, same]
  | setZoom zoom => rfl

theorem attemptsOf_append (desktop : Desktop) (view : PageView) (before later : List Command) :
    attemptsOf desktop view (before ++ later) =
      attemptsOf desktop view before ++ attemptsOf desktop (view.afterAll before) later := by
  induction before generalizing view with
  | nil => rfl
  | cons command rest ih => simp [attemptsOf, ih, afterAll]

end PageView

/-- The running results start with the value that they start from. -/
theorem scanl_eq_cons_tail {α β : Type} (f : β → α → β) (start : β) (steps : List α) :
    steps.scanl f start = start :: (steps.scanl f start).tail := by
  cases steps <;> simp

namespace Request

/-- The page is opened again once for every reload. -/
theorem urls_attemptsOf_commands (desktop : Desktop) (url : String) (zoom : Float)
    (calls : List MenuAction) :
    (PageView.attemptsOf desktop ⟨some url⟩
        (commands zoom (calls.filterMap MenuAction.request?))).map Attempt.url =
      List.replicate (calls.count .reload) url := by
  induction calls generalizing zoom with
  | nil => rfl
  | cons call rest ih =>
      cases call <;>
        simp [List.filterMap_cons, MenuAction.request?, commands, command,
          PageView.attemptsOf, PageView.attempts, PageView.after, Desktop.attempt,
          List.replicate_succ, ih]

/-- Every change of the zoom is given on with its value. -/
theorem zooms_commands (zoom : Float) (calls : List MenuAction) :
    Command.zooms (commands zoom (calls.filterMap MenuAction.request?)) =
      ((calls.filterMap MenuAction.zoomChange?).scanl (fun zoom change => change zoom) zoom).tail := by
  induction calls generalizing zoom with
  | nil => rfl
  | cons call rest ih =>
      cases call <;>
        simp only [List.filterMap_cons, MenuAction.request?, MenuAction.zoomChange?, List.scanl_cons,
          List.tail_cons]
      case reload => exact ih zoom
      case openExternal => exact ih zoom
      all_goals
        rw [scanl_eq_cons_tail, ← ih]
        rfl

end Request

namespace Session

/-- The actions that a session calls, if the output of the console has so much room. -/
def calls (settings : Settings) (room : Talk.Room) (input : List UInt8) : List MenuAction :=
  (Talk.ofInput (menu settings) room input).calls

theorem requests_concat (url : String) (calls : List MenuAction) (action : MenuAction) :
    requests url (calls ++ [action]) = requests url calls ++ action.request?.toList := by
  cases action <;> simp [requests, MenuAction.request?]

theorem directAttempts_concat (desktop : Desktop) (url : String) (calls : List MenuAction)
    (action : MenuAction) :
    directAttempts desktop url (calls ++ [action]) = directAttempts desktop url calls ++
      if action.request? = none then [desktop.attempt url] else [] := by
  cases action <;> simp [directAttempts, MenuAction.request?]

/-- The first command of a session loads the page. -/
theorem commands_eq_cons (url : String) (calls : List MenuAction) :
    commands url calls =
      .load url :: Request.commands Zoom.normal (calls.filterMap MenuAction.request?) := by
  rw [commands, Controller.sent_takeAll]
  rfl

/-- The render thread opens the page once to load it and once for every reload. -/
theorem urls_attemptsOf (desktop : Desktop) (url : String) (calls : List MenuAction) :
    (PageView.attemptsOf desktop {} (commands url calls)).map Attempt.url =
      List.replicate (1 + calls.count .reload) url := by
  rw [commands_eq_cons, Nat.add_comm, List.replicate_succ,
    ← Request.urls_attemptsOf_commands desktop url Zoom.normal calls]
  rfl

/-- The menu opens the page itself once for every call that asks for that. -/
theorem urls_directAttempts (desktop : Desktop) (url : String) (calls : List MenuAction) :
    (directAttempts desktop url calls).map Attempt.url =
      List.replicate (calls.count .openExternal) url := by
  rw [directAttempts, List.map_map, List.count, List.countP_eq_length_filter]
  exact List.map_const'

/-- The render thread is given one zoom for every change, with the value of that change. -/
theorem zooms_commands (url : String) (calls : List MenuAction) :
    Command.zooms (commands url calls) = MenuAction.zooms calls := by
  rw [commands_eq_cons, MenuAction.zooms, ← Request.zooms_commands]
  rfl

/-- The zoom given for a call is the one that the controller has after that call. -/
theorem zooms_concat (url : String) (calls : List MenuAction) (action : MenuAction) :
    MenuAction.zooms (calls ++ [action]) = MenuAction.zooms calls ++
      if action.zoomChange?.isSome then
        [(Controller.takeAll {} (requests url (calls ++ [action]))).zoom] else [] := by
  simp only [← zooms_commands url, commands, requests_concat, Controller.takeAll_append]
  cases action <;>
    simp [MenuAction.request?, MenuAction.zoomChange?, Controller.takeAll, Controller.take,
      Request.command, Command.zooms]

/-- Without a render thread a window closes as it does without a page. -/
theorem run_without_thread (desktop : Desktop) (settings : Settings) (input : List UInt8) :
    run desktop settings input false = closedAtOnce settings := by
  unfold run
  cases settings.page <;> rfl

end Session

end GameClient
