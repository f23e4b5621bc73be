import GameClient.Proofs.Handed
/-!
What a run of the program shows, up to its exit code. The console thread of a window prints the settings, loads
the page, invites the user and then writes what the talk calls for, while the render thread opens the page at
times of its own. What the console has shown and what it is still going to show make up one text at every moment,
and no answer of a desktop has a part in it; so every run that differs only in the desktop ends alike.
-/

namespace GameClient

open Text

namespace Session

/-- What the console prints once it has loaded the page. -/
def opening (settings : Settings) : List String :=
  match settings.page with
  | .error _ => []
  | .ok _ => [invitation (menu settings)]

/-- The text behind the heading: nothing without a page, else the invitation and what the talk writes. -/
def body (settings : Settings) (input : List UInt8) : String :=
  match settings.page with
  | .error _ => ""
  | .ok _ => invitation (menu settings) ++ (Talk.ofInput (menu settings) none input).written

/-- The text of the console of a window that may have been made. -/
def textOf (input : List UInt8) (made : Option Settings) : String :=
  made.elim "" fun settings => heading settings ++ body settings input

theorem screen_run (desktop : Desktop) (settings : Settings) (input : List UInt8) :
    (run desktop settings input).screen = heading settings ++ body settings input := by
  unfold run body
  cases settings.page with
  | error error => exact String.append_empty.symm
  | ok address => exact String.append_assoc

end Session

/-- What the console thread is still going to write. -/
def ConsolePhase.unwritten : ConsolePhase → String
  | .talking _ menu place => (place.talk menu).written
  | .closing | .closed => ""

/-- A window that is being shown: its two threads once the page has been loaded, the texts that the console
thread is about to print, and the text of the console. -/
structure Showing where
  window : Option Window := none
  saying : List String
  screen : String := ""

namespace Showing

/-- A window that is about to be shown. -/
def start (settings : Settings) : Showing :=
  { saying := [Session.heading settings] }

/-- The window is closed, and everything has been printed. -/
def IsClosed (showing : Showing) : Prop :=
  showing.saying = [] ∧ ∃ window, showing.window = some window ∧ window.console = .closed

section Steps

-- The desktop as it answers to each address, the settings of the window and the input of its console.
variable (desktops : Nat → Desktop) (settings : Settings) (input : List UInt8)

/-- A step of one of the two threads. The console thread does nothing else before it has printed what it is
about to print; the render thread does not wait for that. -/
inductive Step : Showing → Showing → Prop where
  /-- The console thread prints a text. -/
  | say {window : Option Window} {text : String} {rest : List String} {screen : String} :
      Step ⟨window, text :: rest, screen⟩ ⟨window, rest, screen ++ text⟩
  /-- The console thread loads the page, if there is one. -/
  | load {screen : String} :
      Step ⟨none, [], screen⟩
        ⟨some (Window.start settings none input), Session.opening settings, screen⟩
  /-- The console thread reads a line and goes on. -/
  | turn {window : Window} {screen url : String} {menu : Option MenuBar} {place next : Talk.Place}
      {event : Option TalkEvent} (talking : window.console = .talking url menu place)
      (move : place.move menu = .go event next) :
      Step ⟨some window, [], screen⟩
        ⟨some { window.hear desktops url event with console := .talking url menu next },
          (event.bind TalkEvent.line?).toList, screen⟩
  /-- The talk is over, and the console thread sends no more commands. -/
  | leave {window : Window} {screen url : String} {menu : Option MenuBar} {place : Talk.Place}
      {ending : TalkEnd} (talking : window.console = .talking url menu place)
      (move : place.move menu = .stop ending) :
      Step ⟨some window, [], screen⟩ ⟨some { window with console := .closing }, [], screen⟩
  /-- The render thread carries out the oldest command. -/
  | render {window : Window} {saying : List String} {screen : String} {command : Command}
      {worker : Worker Command} (taken : window.worker.step = some worker)
      (carried : worker.done = window.worker.done ++ [command]) :
      Step ⟨some window, saying, screen⟩
        ⟨some (window.carryOut desktops command worker), saying, screen⟩
  /-- The render thread has nothing left to do, and the window is closed. -/
  | join {window : Window} {screen : String} (closing : window.console = .closing)
      (ended : window.worker.step = none) :
      Step ⟨some window, [], screen⟩ ⟨some { window with console := .closed }, [], screen⟩

/-- Some interleaving of the two threads leads from one moment to the other. -/
def Reaches : Showing → Showing → Prop :=
  Relation.ReflTransGen (Step desktops settings input)

end Steps

section Text

variable (settings : Settings) (input : List UInt8)

/-- The text of the console when all has been printed, as it can be told at any moment. -/
def foretold (showing : Showing) : String :=
  showing.screen ++ (String.join showing.saying ++
    showing.window.elim (Session.body settings input) fun window => window.console.unwritten)

theorem foretold_start :
    (start settings).foretold settings input =
      Session.heading settings ++ Session.body settings input := by
  simp [foretold, start, String.join_cons]

/-- What is said on loading the page, and the talk behind it. -/
theorem join_opening_append :
    String.join (Session.opening settings) ++
        (Window.start settings none input).console.unwritten = Session.body settings input := by
  unfold Session.opening Session.body Window.start
  cases settings.page with
  | error error => rfl
  | ok address =>
      simp only [String.join_cons, String.join_nil, String.append_empty]
      rfl

variable {settings input} {desktops : Nat → Desktop} {showing next : Showing}

/-- No step changes what the text is going to be. -/
theorem Step.foretold_eq (step : Step desktops settings input showing next) :
    next.foretold settings input = showing.foretold settings input := by
  cases step with
  | say => simp only [foretold, String.join_cons, String.append_assoc]
  | load =>
      simp only [foretold, Option.elim, join_opening_append]
      rw [String.join_nil, String.empty_append]
  | turn talking move =>
      -- The line that the next turn writes passes from the talk to what is said.
      simp only [foretold, Option.elim, talking, ConsolePhase.unwritten, String.join_nil,
        String.empty_append, Talk.Place.written_of_go move]
  | leave talking move =>
      simp only [foretold, Option.elim, talking, ConsolePhase.unwritten,
        Talk.Place.written_of_stop move]
  | render taken carried => rfl
  | join closing ended => simp only [foretold, Option.elim, closing, ConsolePhase.unwritten]

theorem Reaches.foretold_eq (run : Reaches desktops settings input showing next) :
    next.foretold settings input = showing.foretold settings input := by
  induction run with
  | refl => rfl
  | tail _ step ih => rw [step.foretold_eq, ih]

/-- In the end the whole text is on the console. -/
theorem IsClosed.foretold_eq (closed : showing.IsClosed) :
    showing.foretold settings input = showing.screen := by
  obtain ⟨silent, window, shown, atEnd⟩ := closed
  simp [foretold, silent, shown, atEnd, ConsolePhase.unwritten]

theorem screen_of_closed (run : Reaches desktops settings input (start settings) showing)
    (closed : showing.IsClosed) :
    showing.screen = Session.heading settings ++ Session.body settings input := by
  rw [← closed.foretold_eq, run.foretold_eq, foretold_start]

end Text

section Progress

variable {desktops : Nat → Desktop} {settings : Settings} {input : List UInt8}
  {showing next : Showing}

/-- A step prints a text, loads the page, or is a step of the window, after which there is at most one text
more to print. -/
theorem Step.on_window (step : Step desktops settings input showing next) :
    (∃ text, showing.saying = text :: next.saying ∧ next.window = showing.window) ∨
    (showing.window = none ∧ next.window = some (Window.start settings none input) ∧
      next.saying = Session.opening settings) ∨
    ∃ window later, showing.window = some window ∧ next.window = some later ∧
      Window.Step desktops window later ∧ next.saying.length ≤ showing.saying.length + 1 := by
  cases step with
  | say => exact Or.inl ⟨_, rfl, rfl⟩
  | load => exact Or.inr (Or.inl ⟨rfl, rfl, rfl⟩)
  | turn talking move =>
      exact Or.inr (Or.inr ⟨_, _, rfl, rfl, .turn talking move, Option.length_toList_le⟩)
  | leave talking move => exact Or.inr (Or.inr ⟨_, _, rfl, rfl, .leave talking move, by simp⟩)
  | render taken carried => exact Or.inr (Or.inr ⟨_, _, rfl, rfl, .render taken carried, by simp⟩)
  | join closing ended => exact Or.inr (Or.inr ⟨_, _, rfl, rfl, .join closing ended, by simp⟩)

/-- The window of a showing, if it has been made, has come about by steps of its two threads. -/
def Sound (desktops : Nat → Desktop) (settings : Settings) (input : List UInt8)
    (showing : Showing) : Prop :=
  ∀ window, showing.window = some window →
    Window.Reaches desktops (Window.start settings none input) window

theorem sound_start : Sound desktops settings input (start settings) :=
  nofun

theorem Sound.step (sound : Sound desktops settings input showing)
    (step : Step desktops settings input showing next) : Sound desktops settings input next := by
  intro later shown
  rcases step.on_window with ⟨_, _, same⟩ | ⟨_, loaded, _⟩ | ⟨window, _, before, after, turned, _⟩
  · exact sound later (same ▸ shown)
  · obtain rfl := Option.some.inj (loaded.symm.trans shown)
    exact .refl
  · obtain rfl := Option.some.inj (after.symm.trans shown)
    exact (sound window before).tail turned

theorem Sound.reaches (sound : Sound desktops settings input showing)
    (run : Reaches desktops settings input showing next) : Sound desktops settings input next := by
  induction run with
  | refl => exact sound
  | tail _ step ih => exact ih.step step

/-- A bound for the steps that are left: each step of the window counts for itself and for a text. -/
def left (settings : Settings) (input : List UInt8) (showing : Showing) : Nat :=
  showing.saying.length + showing.window.elim
    ((Session.opening settings).length + 2 * (Window.start settings none input).left + 1)
    fun window => 2 * window.left

theorem Step.left_lt (step : Step desktops settings input showing next) :
    next.left settings input < showing.left settings input := by
  rcases step.on_window with
    ⟨text, said, same⟩ | ⟨unmade, loaded, opening⟩ | ⟨window, later, before, after, turned, bound⟩
  · simp [left, said, same]
  · simp only [left, unmade, loaded, opening, Option.elim]
    omega
  · have falls := turned.left_lt
    simp only [left, before, after, Option.elim]
    omega

theorem Sound.exists_step (sound : Sound desktops settings input showing)
    (unclosed : ¬ showing.IsClosed) : ∃ next, Step desktops settings input showing next := by
  obtain ⟨window, saying, screen⟩ := showing
  cases saying with
  | cons text rest => exact ⟨_, .say⟩
  | nil =>
      cases window with
      | none => exact ⟨_, .load⟩
      | some window =>
          have running : window.console ≠ .closed := fun closed =>
            unclosed ⟨rfl, window, rfl, closed⟩
          obtain ⟨later, step⟩ := Window.exists_step_of_reaches (sound window rfl) running
          cases step with
          | turn talking move => exact ⟨_, .turn talking move⟩
          | leave talking move => exact ⟨_, .leave talking move⟩
          | render taken carried => exact ⟨_, .render taken carried⟩
          | join closing ended => exact ⟨_, .join closing ended⟩

/-- Whatever has happened, the window can be closed. -/
theorem Sound.exists_closed (sound : Sound desktops settings input showing) :
    ∃ last, Reaches desktops settings input showing last ∧ last.IsClosed :=
  exists_reaches_end (left settings input) (fun step => Step.left_lt step)
    (fun sound step => Sound.step sound step)
    (fun sound unclosed => Sound.exists_step sound unclosed) sound

end Progress

end Showing

/-! ### Whole runs -/

/-- What has shown of the program so far: the settings of the window that it has made, the lines that it has
printed, and the text of its console. -/
structure Display where
  made : Option Settings := none
  outs : List String := []
  errs : List String := []
  screen : String := ""
deriving Repr, DecidableEq

/-- What a run of the program leaves behind. -/
structure Program.Ending where
  outs : List String
  errs : List String
  screen : String
  code : Nat
deriving Repr, DecidableEq

section Effects

-- The desktop as it answers to each address, and the input of the console.
variable (desktops : Nat → Desktop) (input : List UInt8)

/-- An effect takes place. A window is shown until it is closed. -/
inductive TakesPlace : Effect → Display → Display → Prop where
  | out {text : String} {display : Display} :
      TakesPlace (.out text) display { display with outs := display.outs ++ [text] }
  | err {text : String} {display : Display} :
      TakesPlace (.err text) display { display with errs := display.errs ++ [text] }
  | createWindow {settings : Settings} {display : Display} :
      TakesPlace (.createWindow settings) display { display with made := some settings }
  | showWindow {settings : Settings} {display : Display} {showing : Showing}
      (made : display.made = some settings)
      (run : Showing.Reaches desktops settings input (Showing.start settings) showing)
      (closed : showing.IsClosed) :
      TakesPlace .showWindow display { display with screen := display.screen ++ showing.screen }
  /-- Without a window there is nothing to show. -/
  | showNothing {display : Display} (unmade : display.made = none) :
      TakesPlace .showWindow display display

/-- Effects take place one after the other. -/
inductive TakePlace : List Effect → Display → Display → Prop where
  | nil {display : Display} : TakePlace [] display display
  | cons {effect : Effect} {rest : List Effect} {before between after : Display}
      (first : TakesPlace desktops input effect before between)
      (others : TakePlace rest between after) : TakePlace (effect :: rest) before after

/-- The program ends like this: its effects have taken place, and then it exits. -/
inductive Program.Ends (args : List (List UInt8)) (env : Environment) : Program.Ending → Prop where
  | exit {display : Display}
      (played : TakePlace desktops input (Program.runRaw args env).effects {} display) :
      Ends args env
        ⟨display.outs, display.errs, display.screen, (Program.runRaw args env).code⟩

end Effects

namespace Display

/-- The display after an effect. -/
def after (input : List UInt8) (display : Display) : Effect → Display
  | .out text => { display with outs := display.outs ++ [text] }
  | .err text => { display with errs := display.errs ++ [text] }
  | .createWindow settings => { display with made := some settings }
  | .showWindow => { display with screen := display.screen ++ Session.textOf input display.made }

variable {desktops : Nat → Desktop} {input : List UInt8} {display next : Display}

theorem after_showWindow_of_unmade (unmade : display.made = none) :
    display.after input .showWindow = display := by
  have nothing : Session.textOf input display.made = "" := by
    rw [unmade]
    rfl
  rw [after, nothing, String.append_empty]

theorem after_showWindow_of_closed {settings : Settings} {showing : Showing}
    (made : display.made = some settings)
    (run : Showing.Reaches desktops settings input (Showing.start settings) showing)
    (closed : showing.IsClosed) :
    display.after input .showWindow = { display with screen := display.screen ++ showing.screen } := by
  have text : Session.textOf input display.made = showing.screen := by
    rw [made, Showing.screen_of_closed run closed]
    rfl
  rw [after, text]

/-- An effect can take place in one way, whatever the desktop. -/
theorem takesPlace_iff {effect : Effect} :
    TakesPlace desktops input effect display next ↔ next = display.after input effect := by
  constructor
  · intro h
    cases h with
    | out => rfl
    | err => rfl
    | createWindow => rfl
    | showWindow made run closed => exact (after_showWindow_of_closed made run closed).symm
    | showNothing unmade => exact (after_showWindow_of_unmade unmade).symm
  · rintro rfl
    cases effect with
    | out text => exact .out
    | err text => exact .err
    | createWindow settings => exact .createWindow
    | showWindow =>
        cases made : display.made with
        | none =>
            rw [after_showWindow_of_unmade made]
            exact .showNothing made
        | some settings =>
            have sound : Showing.Sound desktops settings input (Showing.start settings) :=
              Showing.sound_start
            obtain ⟨last, run, closed⟩ := sound.exists_closed
            rw [after_showWindow_of_closed made run closed]
            exact .showWindow made run closed

theorem takePlace_iff {effects : List Effect} :
    TakePlace desktops input effects display next ↔ next = effects.foldl (after input) display := by
  constructor
  · intro h
    induction h with
    | nil => rfl
    | cons first _ ih => rw [ih, takesPlace_iff.mp first, List.foldl_cons]
  · rintro rfl
    induction effects generalizing display with
    | nil => exact .nil
    | cons effect rest ih => exact .cons (takesPlace_iff.mpr rfl) ih

theorem foldl_after_errs (input : List UInt8) (display : Display) (texts : List String) :
    (texts.map Effect.err).foldl (after input) display =
      { display with errs := display.errs ++ texts } := by
  induction texts generalizing display with
  | nil => rw [List.append_nil]; rfl
  | cons text rest ih =>
      rw [List.map_cons, List.foldl_cons, ih]
      simp [after]

/-- What shows of a run are its lines and the text of its window. -/
theorem foldl_after_of_goes {outcome : Outcome} {run : Run} (goes : Goes outcome run) :
    run.effects.foldl (after input) {} =
      ⟨run.window?, run.outs, run.errs, Session.textOf input run.window?⟩ := by
  cases goes with
  | helped => rfl
  | shown => simp [after, Run.window?, Run.outs, Run.errs]
  | @refused problems nonempty =>
      obtain ⟨silent, windowless⟩ := (Goes.refused nonempty).outs_of_code_eq_two rfl
      rw [silent, windowless]
      -- All effects are lines on the standard error output.
      let texts := "FlappyBingus Desktop Client failed to start:" ::
        problems.map (fun problem => " - " ++ problem.message) ++ ["", Help.text]
      have lines : (.err "FlappyBingus Desktop Client failed to start:" ::
          problems.map (fun problem => .err (" - " ++ problem.message)) ++
          [.err "", .err Help.text] : List Effect) = texts.map .err := by
        simp [texts]
      have errs : Run.errs ⟨texts.map .err, 2⟩ = texts := by
        simp [Run.errs]
      rw [lines, errs, foldl_after_errs]
      rfl

end Display

namespace Program

/-- What a run and the session of its window leave behind. -/
def Performance.ending (performance : Performance) : Ending :=
  ⟨performance.run.outs, performance.run.errs, performance.screen, performance.run.code⟩

/-- How the program ends; no desktop has a part in it. -/
def ending (args : List (List UInt8)) (env : Environment) (input : List UInt8) : Ending :=
  let run := runRaw args env
  ⟨run.outs, run.errs, Session.textOf input run.window?, run.code⟩

theorem ends_iff {desktops : Nat → Desktop} {args : List (List UInt8)} {env : Environment}
    {input : List UInt8} {other : Ending} :
    Ends desktops input args env other ↔ other = ending args env input := by
  obtain ⟨outcome, goes⟩ := exists_goes_runRaw args env
  constructor
  · rintro ⟨played⟩
    rw [Display.takePlace_iff, Display.foldl_after_of_goes goes] at played
    rw [played]
    rfl
  · rintro rfl
    exact .exit (Display.takePlace_iff.mpr (Display.foldl_after_of_goes goes).symm)

theorem screen_perform (desktop : Desktop) (args : List (List UInt8)) (env : Environment)
    (input : List UInt8) :
    (perform desktop args env input).screen = Session.textOf input (runRaw args env).window? := by
  cases made : (runRaw args env).window? with
  | none => simp [Performance.screen, perform, made, Session.textOf]
  | some settings =>
      simp [Performance.screen, perform, made, Session.textOf, Session.screen_run]

theorem ending_perform (desktop : Desktop) (args : List (List UInt8)) (env : Environment)
    (input : List UInt8) : (perform desktop args env input).ending = ending args env input := by
  rw [Performance.ending, screen_perform]
  rfl

/-- A program that gets no render thread ends with the same code and the same lines for errors. What it prints is the
beginning of what it would print, and nothing is opened. -/
theorem perform_without_thread (desktop : Desktop) (args : List (List UInt8)) (env : Environment)
    (input : List UInt8) :
    (perform desktop args env input false).run = (perform desktop args env input).run ∧
      (perform desktop args env input false).stderr = (perform desktop args env input).stderr ∧
      (∃ more, (perform desktop args env input).stdout =
        (perform desktop args env input false).stdout ++ more) ∧
      ∀ session ∈ (perform desktop args env input false).session,
        session.rendered = [] ∧ session.opened = [] ∧ session.zooms = [] := by
  have same : (perform desktop args env input false).run = (perform desktop args env input).run := rfl
  refine ⟨same, ?complained, ?printed, ?opened⟩
  case complained => rw [Performance.stderr, Performance.stderr, same]
  case printed =>
    simp only [Performance.stdout, screen_perform]
    cases made : (runRaw args env).window? with
    | none => exact ⟨"", by simp [Performance.screen, perform, made, Session.textOf]⟩
    | some settings =>
        refine ⟨Session.body settings input, ?_⟩
        simp [Performance.screen, perform, made, Session.textOf, Session.run_without_thread,
          Session.closedAtOnce, String.append_assoc]
  case opened =>
    intro session held
    obtain ⟨settings, _, rfl⟩ := Option.map_eq_some_iff.mp held
    rw [Session.run_without_thread]
    exact ⟨rfl, rfl, rfl⟩

end Program

/-- Whatever the arguments, the environment and the input are, the program ends in one way on all desktops, and
so does what it is said to do. With settings to start with it prints no line, its exit code is 0, and the text
of its console is the summary of the settings, an empty line and, if there is a page, the listing of the menu if
there is one, how to leave, and what the talk about the input writes; the window can be closed at any time,
however the desktop has answered until then and whatever the input ends with. -/
theorem ends_alike_on_every_desktop (args : List (List UInt8)) (env : Environment)
    (input : List UInt8) :
    ∃ ending : Program.Ending,
      (∀ desktops other, Program.Ends desktops input args env other ↔ other = ending) ∧
      (∀ desktop, (Program.perform desktop args env input).ending = ending) ∧
      ∀ settings, Program.unreadable args = [] →
        resolve (Program.readable args) env = .ready settings →
        (∀ desktops showing,
          Showing.Reaches desktops settings input (Showing.start settings) showing →
            ∃ last, Showing.Reaches desktops settings input showing last ∧ last.IsClosed) ∧
        ending.outs = [] ∧ ending.errs = [] ∧ ending.code = 0 ∧
        (∀ error, settings.page = .error error →
          ending.screen = settings.summary ++ "\n" ++ "\n") ∧
        ∀ address, settings.page = .ok address →
          ending.screen = settings.summary ++ "\n" ++ "\n" ++
            ((if settings.showMenu then
                MenuBar.standard.listing ++ "Type a menu item or its key, \x27quit\x27 to exit.\n"
              else "Type \x27quit\x27 to exit.\n") ++
            (Talk.ofInput (if settings.showMenu then some .standard else none) none input).written) := by
  refine ⟨Program.ending args env input, fun _ _ => Program.ends_iff,
    fun desktop => Program.ending_perform desktop args env input, ?_⟩
  intro settings read ready
  have goes : Goes (.ready settings) (Program.runRaw args env) := by
    rw [Program.runRaw, read, ← ready]
    exact goes_run _ env
  have shown : Program.runRaw args env = ⟨[.createWindow settings, .showWindow], 0⟩ :=
    goes.unique .shown
  have ending : Program.ending args env input =
      ⟨[], [], Session.heading settings ++ Session.body settings input, 0⟩ := by
    rw [Program.ending, shown]
    rfl
  have heading : Session.heading settings = settings.summary ++ "\n" ++ "\n" := by
    rw [Session.heading, String.append_assoc]
    rfl
  rw [ending, heading]
  refine ⟨fun desktops showing run => (Showing.sound_start.reaches run).exists_closed, rfl, rfl, rfl,
    ?pageless, ?paged⟩
  case pageless =>
    intro error page
    simp only [Session.body, page, String.append_empty]
  case paged =>
    intro address page
    simp only [Session.body, page, Session.menu]
    cases settings.showMenu <;> rfl

/-- A desktop on which no address can be opened and one that can browse only at the second address end alike, on
an input that stops being text behind an unknown command; and so they do with a path that makes no page. -/
theorem ends_alike_on_every_desktop_of_garbled_input :
    let failing : Nat → Desktop := fun _ => { failure := fun _ => some "no such program" }
    let changing : Nat → Desktop := fun n => { supported := decide (n = 1) }
    let input := Utf8.encode "r\nopen in browser\nnope\n".toList ++ [0xFF, 0x0A] ++
      Utf8.encode "nope\nquit\n".toList
    let pageless := [Utf8.encode "--path".toList, Utf8.encode "%".toList]
    (∃ ending, Program.Ends failing input [] (fun _ => none) ending ∧
      Program.Ends changing input [] (fun _ => none) ending ∧ ending.code = 0 ∧
      ending.screen = Settings.standard.summary ++ "\n" ++ "\n" ++
        (MenuBar.standard.listing ++ "Type a menu item or its key, \x27quit\x27 to exit.\n" ++
          "Unknown command: nope\n")) ∧
    ∃ ending, Program.Ends failing input pageless (fun _ => none) ending ∧
      Program.Ends changing input pageless (fun _ => none) ending ∧ ending.code = 0 ∧
      ending.screen = { Settings.standard with path := "%" }.summary ++ "\n" ++ "\n" := by
  intro failing changing input pageless
  constructor
  · obtain ⟨ending, ends, _, ready⟩ := ends_alike_on_every_desktop [] (fun _ => none) input
    obtain ⟨_, _, _, code, _, screen⟩ := ready .standard rfl (by decide)
    have page : Settings.standard.page =
        .ok ⟨.http, ⟨none, "localhost".toList, some 3000⟩, ⟨['/'], none, none⟩⟩ := rfl
    have written : (Talk.ofInput (some .standard) none input).written = "Unknown command: nope\n" := by
      decide
    refine ⟨ending, (ends _ _).mpr rfl, (ends _ _).mpr rfl, code, ?_⟩
    rw [screen _ page, ← written]
    rfl
  · obtain ⟨ending, ends, _, ready⟩ := ends_alike_on_every_desktop pageless (fun _ => none) input
    obtain ⟨_, _, _, code, nowhere, _⟩ :=
      ready { Settings.standard with path := "%" } (by decide) (by decide)
    have noPage : { Settings.standard with path := "%" }.page = .error (.malformed "%") := by decide
    exact ⟨ending, (ends _ _).mpr rfl, (ends _ _).mpr rfl, code, nowhere _ noPage⟩

end GameClient
