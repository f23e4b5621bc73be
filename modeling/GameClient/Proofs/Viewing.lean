import GameClient.Desktop.Browser
import Mathlib.Data.List.Induction
/-!
A page view on a desktop that comes and goes. Commands and changes of the desktop take turns in any order. What
the view remembers is the page that was loaded last, whatever became of it; a load and a reload try to open one
page each, and what comes of that depends on the desktop at that moment only.
-/

namespace GameClient

/-- An address handed to the browser of a desktop, and why it could not be opened there, if so. -/
structure Handover where
  url : String
  failure : Option String := none
deriving Repr, DecidableEq

/-- The addresses that the browser opened. -/
def Handover.browsed (handovers : List Handover) : List String :=
  (handovers.filter fun handover => handover.failure.isNone).map Handover.url

theorem Handover.browsed_append (before later : List Handover) :
    browsed (before ++ later) = browsed before ++ browsed later := by
  simp [browsed]

theorem Attempt.browsed_append (before later : List Attempt) :
    browsed (before ++ later) = browsed before ++ browsed later := by
  simp [browsed]

namespace Desktop

/-- Hands an address to the browser. -/
def browse (desktop : Desktop) (url : String) : Handover :=
  ⟨url, desktop.failure url⟩

/-- Tries to open an address: the error, if any, and what the browser is handed. A desktop that lacks one of
its two abilities is left alone. -/
def launch (desktop : Desktop) (url : String) : Option LaunchError × List Handover :=
  if !desktop.supported || !desktop.canBrowse then (some .unsupported, [])
  else
    let handover := desktop.browse url
    (handover.failure.map (.browse url), [handover])

/-- The desktop has both abilities that opening an address takes. -/
def IsAble (desktop : Desktop) : Prop :=
  desktop.supported = true ∧ desktop.canBrowse = true

theorem not_isAble_iff {desktop : Desktop} :
    ¬ desktop.IsAble ↔ desktop.supported = false ∨ desktop.canBrowse = false := by
  rw [IsAble, not_and_or, Bool.not_eq_true, Bool.not_eq_true]

theorem launch_of_not_isAble {desktop : Desktop} (unable : ¬ desktop.IsAble) (url : String) :
    desktop.launch url = (some .unsupported, []) := by
  rcases not_isAble_iff.mp unable with noDesktop | noBrowser
  · simp [launch, noDesktop]
  · simp [launch, noBrowser]

theorem launch_of_isAble {desktop : Desktop} (able : desktop.IsAble) (url : String) :
    desktop.launch url =
      ((desktop.failure url).map (.browse url), [⟨url, desktop.failure url⟩]) := by
  simp [launch, browse, able.1, able.2]

/-- An attempt ends as the launch does. -/
theorem attempt_eq (desktop : Desktop) (url : String) :
    desktop.attempt url = ⟨url, (desktop.launch url).1⟩ := by
  by_cases able : desktop.IsAble
  · simp [attempt, launch_of_isAble able, able.1, able.2]
  · rw [launch_of_not_isAble able]
    rcases not_isAble_iff.mp able with noDesktop | noBrowser
    · simp [attempt, noDesktop]
    · simp [attempt, noBrowser]

/-- How an address is opened on a desktop: the error, if any, and what the browser is handed. -/
structure Opens (desktop : Desktop) (url : String) (error : Option LaunchError)
    (handed : List Handover) : Prop where
  unsupported_iff : error = some .unsupported ↔
    desktop.supported = false ∨ desktop.canBrowse = false
  browse_iff : ∀ shown cause, error = some (.browse shown cause) ↔
    desktop.IsAble ∧ desktop.failure url = some cause ∧ shown = url
  opened_iff : error = none ↔ desktop.IsAble ∧ desktop.failure url = none
  left_alone : error = some .unsupported → handed = []
  handed_once : error ≠ some .unsupported → handed = [⟨url, desktop.failure url⟩]

theorem opens_launch (desktop : Desktop) (url : String) :
    desktop.Opens url (desktop.launch url).1 (desktop.launch url).2 := by
  by_cases able : desktop.IsAble
  · have abilities : ¬ (desktop.supported = false ∨ desktop.canBrowse = false) :=
      fun lacks => not_isAble_iff.mpr lacks able
    rw [launch_of_isAble able]
    cases failure : desktop.failure url with
    | none =>
        exact
          { unsupported_iff := by simp [abilities]
            browse_iff := by simp [failure]
            opened_iff := by simp [able, failure]
            left_alone := by simp
            handed_once := fun _ => by rw [failure] }
    | some cause =>
        exact
          { unsupported_iff := by simp [abilities]
            browse_iff := by simp [able, failure, and_comm, eq_comm]
            opened_iff := by simp [failure]
            left_alone := by simp
            handed_once := fun _ => by rw [failure] }
  · rw [launch_of_not_isAble able]
    exact
      { unsupported_iff := by simp [not_isAble_iff.mp able]
        browse_iff := by simp [able]
        opened_iff := by simp [able]
        left_alone := fun _ => rfl
        handed_once := fun other => absurd rfl other }

/-- The browser opened what the launch did not fail for. -/
theorem browsed_launch (desktop : Desktop) (url : String) :
    Handover.browsed (desktop.launch url).2 = Attempt.browsed [desktop.attempt url] := by
  rw [attempt_eq]
  by_cases able : desktop.IsAble
  · rw [launch_of_isAble able]
    cases desktop.failure url <;> rfl
  · rw [launch_of_not_isAble able]
    rfl

end Desktop

/-- The page that a command asks to open, if any. -/
def PageView.wanted (view : PageView) : Command → Option String
  | .load url => some url
  | .reload => view.current
  | .setZoom _ => none

theorem PageView.attempts_eq (desktop : Desktop) (view : PageView) (command : Command) :
    view.attempts desktop command = (view.wanted command).toList.map desktop.attempt := by
  cases command <;> rfl

/-- A page view with its desktop at one moment. -/
structure Viewing where
  desktop : Desktop
  view : PageView := {}
  /-- The attempts to open an address so far. -/
  attempts : List Attempt := []
  /-- What the browser has been handed so far. -/
  handovers : List Handover := []

namespace Viewing

/-- What can happen to a page view: it is given a command, or the desktop is another one from now on. -/
inductive Event where
  | command (command : Command)
  | change (desktop : Desktop)

/-- A command is carried out on the desktop as it is. -/
def obey (viewing : Viewing) (command : Command) : Viewing :=
  let attempts := viewing.view.attempts viewing.desktop command
  { viewing with
    view := viewing.view.after command
    attempts := viewing.attempts ++ attempts
    handovers := viewing.handovers ++
      attempts.flatMap fun attempt => (viewing.desktop.launch attempt.url).2 }

/-- What an event makes of a viewing. -/
def take (viewing : Viewing) : Event → Viewing
  | .command command => viewing.obey command
  | .change desktop => { viewing with desktop := desktop }

/-- What events make of a viewing, one after the other. -/
def run (viewing : Viewing) (events : List Event) : Viewing :=
  events.foldl take viewing

/-- A new page view on a desktop, with nothing loaded. -/
def start (desktop : Desktop) : Viewing where
  desktop := desktop

/-! ### What is said by the events alone -/

/-- The page that an event loads, if any. -/
def Event.loaded? : Event → Option String
  | .command (.load url) => some url
  | .command .reload | .command (.setZoom _) | .change _ => none

/-- The desktop that an event brings, if any. -/
def Event.desktop? : Event → Option Desktop
  | .command _ => none
  | .change desktop => some desktop

/-- The page that was loaded last. -/
def lastLoaded (events : List Event) : Option String :=
  (events.filterMap Event.loaded?).getLast?

/-- The desktop after events, given the one before them. -/
def lastDesktop (desktop : Desktop) (events : List Event) : Desktop :=
  (events.filterMap Event.desktop?).getLast?.getD desktop

/-- The page that an event tries to open, given the events before it: a load its own, a reload the one that
was loaded last, anything else none. -/
def openedBy (events : List Event) : Event → Option String
  | .command (.load url) => some url
  | .command .reload => lastLoaded events
  | .command (.setZoom _) | .change _ => none

/-- What an event adds: nothing, or one attempt to open the page that it tries to open, which the desktop answers
to. -/
inductive Adds (desktop : Desktop) (before after : Viewing) : Option String → Prop where
  | nothing (attempts : after.attempts = before.attempts)
      (handovers : after.handovers = before.handovers) : Adds desktop before after none
  | attempt {url : String} {error : Option LaunchError} {handed : List Handover}
      (opens : desktop.Opens url error handed)
      (attempts : after.attempts = before.attempts ++ [⟨url, error⟩])
      (handovers : after.handovers = before.handovers ++ handed) :
      Adds desktop before after (some url)

/-! ### One event -/

theorem attempts_obey (viewing : Viewing) (command : Command) :
    (viewing.obey command).attempts = viewing.attempts ++
      (viewing.view.wanted command).toList.map fun url => ⟨url, (viewing.desktop.launch url).1⟩ := by
  simp only [obey, PageView.attempts_eq, ← Desktop.attempt_eq]

theorem handovers_obey (viewing : Viewing) (command : Command) :
    (viewing.obey command).handovers = viewing.handovers ++
      (viewing.view.wanted command).toList.flatMap fun url => (viewing.desktop.launch url).2 := by
  simp only [obey, PageView.attempts_eq, Desktop.attempt_eq, List.flatMap_map]

theorem adds_obey (viewing : Viewing) (command : Command) :
    Adds viewing.desktop viewing (viewing.obey command) (viewing.view.wanted command) := by
  have attempts := attempts_obey viewing command
  have handovers := handovers_obey viewing command
  cases wanted : viewing.view.wanted command with
  | none =>
      rw [wanted] at attempts handovers
      exact .nothing (attempts.trans (List.append_nil _)) (handovers.trans (List.append_nil _))
  | some url =>
      rw [wanted] at attempts handovers
      exact .attempt (viewing.desktop.opens_launch url) attempts (by simpa using handovers)

/-- What holds after events, and is needed to go on. -/
structure Sound (desktop : Desktop) (events : List Event) (viewing : Viewing) : Prop where
  desktop_eq : viewing.desktop = lastDesktop desktop events
  current_eq : viewing.view.current = lastLoaded events
  browsed_eq : Handover.browsed viewing.handovers = Attempt.browsed viewing.attempts

variable {desktop : Desktop} {events : List Event} {viewing : Viewing}

theorem sound_start (desktop : Desktop) : Sound desktop [] (start desktop) where
  desktop_eq := rfl
  current_eq := rfl
  browsed_eq := rfl

theorem Sound.wanted_eq (sound : Sound desktop events viewing) (command : Command) :
    viewing.view.wanted command = openedBy events (.command command) := by
  cases command with
  | load url => rfl
  | reload => exact sound.current_eq
  | setZoom zoom => rfl

theorem Sound.adds (sound : Sound desktop events viewing) (event : Event) :
    Adds (lastDesktop desktop events) viewing (viewing.take event) (openedBy events event) := by
  cases event with
  | command command =>
      rw [← sound.desktop_eq, ← sound.wanted_eq command]
      exact adds_obey viewing command
  | change other => exact .nothing rfl rfl

/-- A command adds the same opened addresses to the attempts and to what the browser was handed. -/
theorem browsed_obey {viewing : Viewing}
    (same : Handover.browsed viewing.handovers = Attempt.browsed viewing.attempts)
    (command : Command) :
    Handover.browsed (viewing.obey command).handovers =
      Attempt.browsed (viewing.obey command).attempts := by
  rw [attempts_obey, handovers_obey, Handover.browsed_append, Attempt.browsed_append, same]
  cases viewing.view.wanted command with
  | none => rfl
  | some url =>
      have added := viewing.desktop.browsed_launch url
      rw [Desktop.attempt_eq] at added
      simpa using added

theorem lastLoaded_concat (events : List Event) (event : Event) :
    lastLoaded (events ++ [event]) = event.loaded?.or (lastLoaded events) := by
  cases loaded : event.loaded? <;> simp [lastLoaded, loaded]

theorem lastDesktop_concat (desktop : Desktop) (events : List Event) (event : Event) :
    lastDesktop desktop (events ++ [event]) = event.desktop?.getD (lastDesktop desktop events) := by
  cases brought : event.desktop? <;> simp [lastDesktop, brought]

theorem Sound.take (sound : Sound desktop events viewing) (event : Event) :
    Sound desktop (events ++ [event]) (viewing.take event) where
  desktop_eq := by
    rw [lastDesktop_concat, ← sound.desktop_eq]
    cases event <;> rfl
  current_eq := by
    rw [lastLoaded_concat, ← sound.current_eq]
    cases event with
    | command command => cases command <;> rfl
    | change other => rfl
  browsed_eq := by
    cases event with
    | command command => exact browsed_obey sound.browsed_eq command
    | change other => exact sound.browsed_eq

theorem run_concat (viewing : Viewing) (events : List Event) (event : Event) :
    viewing.run (events ++ [event]) = (viewing.run events).take event :=
  List.foldl_append

theorem Sound.run (desktop : Desktop) (events : List Event) :
    Sound desktop events ((start desktop).run events) := by
  induction events using List.reverseRecOn with
  | nil => exact sound_start desktop
  | append_singleton events event ih =>
      rw [run_concat]
      exact ih.take event

/-- On a desktop that stays, the attempts are those that commands lead to. -/
theorem attempts_run_commands (viewing : Viewing) (commands : List Command) :
    (viewing.run (commands.map .command)).attempts =
      viewing.attempts ++ PageView.attemptsOf viewing.desktop viewing.view commands := by
  induction commands generalizing viewing with
  | nil => exact (List.append_nil _).symm
  | cons command rest ih =>
      have later := ih (viewing.obey command)
      simpa [run, take, obey, PageView.attemptsOf] using later

/-- After any events on a desktop, the page that the view remembers is the one that was loaded last, also if it could
not be opened, and the addresses that the browser opened are those of the attempts that did not fail. The next
event, whichever it is, adds just the attempt to open its page, if it has one; what comes of the attempt, and
whether the browser is asked at all, is up to the desktop at that moment. -/
theorem opened_of_run (desktop : Desktop) (events : List Event) :
    ((start desktop).run events).view.current = lastLoaded events ∧
    Handover.browsed ((start desktop).run events).handovers =
      Attempt.browsed ((start desktop).run events).attempts ∧
    ∀ event, Adds (lastDesktop desktop events) ((start desktop).run events)
      ((start desktop).run (events ++ [event])) (openedBy events event) := by
  have sound := Sound.run desktop events
  refine ⟨sound.current_eq, sound.browsed_eq, ?_⟩
  intro event
  rw [run_concat]
  exact sound.adds event

/-- A page that could not be opened is opened by a reload when the desktop has come back; a load that fails for
the browser leaves its page to the next reload, which a desktop without a browser refuses. -/
theorem opened_of_returning_desktop :
    let events : List Event :=
      [.command .reload, .change { supported := false }, .command (.load "http://a"), .change {},
        .command .reload, .change { failure := fun _ => some "no browser" },
        .command (.load "http://b"), .change { canBrowse := false }]
    let viewing := (start {}).run events
    viewing.view.current = some "http://b" ∧
    viewing.attempts = [⟨"http://a", some .unsupported⟩, ⟨"http://a", none⟩,
      ⟨"http://b", some (.browse "http://b" "no browser")⟩] ∧
    Handover.browsed viewing.handovers = ["http://a"] ∧
    Adds { canBrowse := false } viewing ((start {}).run (events ++ [.command .reload]))
      (some "http://b") := by
  intro events viewing
  obtain ⟨current, browsed, adds⟩ := opened_of_run {} events
  exact ⟨current, rfl, browsed, adds (.command .reload)⟩

end Viewing

end GameClient
