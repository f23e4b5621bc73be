import Mathlib.Data.List.Infix
import GameClient.Desktop.Opener
import GameClient.Program
import GameClient.Proofs.Page
import GameClient.Proofs.Threads
import GameClient.Proofs.Trace
/-!
What a desktop is handed. Whatever the arguments, the environment and the input are, both threads of the window
hand over one address only, the one of the page of the settings. The address names its server behind a scheme
that can be opened and is made of units of legal text, so that the program that opens it takes it for an address
and for nothing else.
-/

namespace GameClient

open Text

/-- The addresses that a desktop was asked to open, also those that it then failed to open. A desktop that
cannot browse is not asked. -/
def Attempt.handed (attempts : List Attempt) : List String :=
  (attempts.filter fun attempt => attempt.error != some .unsupported).map Attempt.url

/-- The arguments with which the program that opens addresses is started for attempts on a machine. -/
def Machine.started (attempts : List Attempt) : List (List String) :=
  (Attempt.handed attempts).map openerArguments

/-- All attempts that a window has made. -/
def Window.attempts (window : Window) : List Attempt :=
  window.rendered ++ window.opened

namespace Address

open Parts

theorem Host.ne_nil_of_isServer {host : List Char} (h : IsServer host) : host ≠ [] := by
  rintro rfl
  rcases h with ⟨body, _, shape⟩ | named
  · simp at shape
  · exact absurd (isServerName_iff.mpr named) (by decide)

/-- A text that may be opened: a scheme that can be opened, perhaps a user part, a host that can name a server,
and then the end or one of the parts behind a host; and all of it is made of units. -/
structure Openable (url : String) : Prop where
  server : ∃ (scheme : Scheme) (user : Option (List Char)) (host rest : List Char),
    url.toList = scheme.text ++ [':', '/', '/'] ++ (Authority.userMark user ++ (host ++ rest)) ∧
      host ≠ [] ∧ Host.IsServer host ∧ ∀ c ∈ rest.head?, c = ':' ∨ c = '/' ∨ c = '?' ∨ c = '#'
  units : ∃ units : List (List Char), (∀ unit ∈ units, IsUnit unit) ∧ url.toList = units.flatten

/-- What stands behind the host begins with the mark of a port, a path, a query or a fragment. -/
theorem WellFormed.head?_behind_host {address : Address} (h : address.WellFormed)
    {port : List Char} (spelled : Authority.SpellsPort port address.authority.port) :
    ∀ c ∈ (port ++ address.target.text).head?, c = ':' ∨ c = '/' ∨ c = '?' ∨ c = '#' := by
  intro c first
  cases port with
  | cons d digits =>
      have colon : d = ':' := spelled.head_eq d rfl
      simp only [List.cons_append, List.head?_cons, Option.mem_def, Option.some.injEq] at first
      exact Or.inl (first ▸ colon)
  | nil =>
      rw [List.nil_append] at first
      have ends : endsAuthority c = true := by
        simpa using Target.stops_text h.rooted c first
      exact Or.inr (endsAuthority_iff.mp ends)

theorem WellFormed.openable {address : Address} (h : address.WellFormed) :
    Openable address.toString := by
  have text : address.toString.toList = address.text := String.toList_ofList
  obtain ⟨server, port, spelled, shape⟩ := h.spelled
  constructor
  · refine ⟨address.scheme, address.authority.userinfo, address.authority.host,
      port ++ address.target.text, ?_, Host.ne_nil_of_isServer server, server,
      h.head?_behind_host spelled⟩
    rw [text, Address.text, shape]
    simp
  · rw [text]
    exact isLegal_iff_exists_units.mp h.isLegal_text

namespace Openable

variable {url : String}

/-- What may be opened begins with the scheme, so it is no option of the program that opens it. -/
theorem head?_ne_hyphen (h : Openable url) : url.toList.head? ≠ some '-' := by
  obtain ⟨scheme, _, _, _, shape, _⟩ := h.server
  rw [shape]
  cases scheme <;> simp [Scheme.text]

theorem nul_not_mem (h : Openable url) : '\x00' ∉ url.toList := by
  intro member
  exact not_isControl_of_isLegal (isLegal_iff_exists_units.mpr h.units) _ member (by decide)

end Openable

end Address

theorem Attempt.url_eq_of_map_url {attempts : List Attempt} {n : Nat} {url : String}
    (urls : attempts.map Attempt.url = List.replicate n url) :
    ∀ attempt ∈ attempts, attempt.url = url := by
  intro attempt member
  have among : attempt.url ∈ attempts.map Attempt.url := List.mem_map_of_mem member
  rw [urls] at among
  exact List.eq_of_mem_replicate among

/-- A worker that is submitted effects only has done the first of them. -/
theorem Worker.Serves.done_prefix_of_acts {α : Type} {worker : Worker α} {submitted : List α}
    (h : worker.Serves (submitted.map .act)) : worker.done <+: submitted :=
  (List.prefix_map_iff_of_injective fun _ _ same => Job.act.inj same).mp h.done_prefix

namespace Window

variable {desktops : Nat → Desktop} {settings : Settings} {room : Talk.Room} {input : List UInt8}
  {window : Window}

/-- At any time the render thread has opened the address as often as its first commands say. -/
theorem Account.url_of_mem_rendered {desktop : Desktop} {url : String} {called : List MenuAction}
    (h : Account Attempt.url desktop url called window) :
    ∀ attempt ∈ window.rendered, attempt.url = url := by
  intro attempt member
  have submitted : window.worker.done <+: Session.commands url called := by
    have account := h.serves
    rw [h.controller] at account
    exact account.done_prefix_of_acts
  obtain ⟨later, all⟩ := submitted
  have urls := Session.urls_attemptsOf desktop url called
  rw [← all, PageView.attemptsOf_append, List.map_append, ← h.rendered] at urls
  have among : attempt.url ∈ List.replicate (1 + called.count .reload) url := by
    rw [← urls]
    exact List.mem_append_left _ (List.mem_map_of_mem member)
  exact List.eq_of_mem_replicate among

theorem Account.url_of_mem_opened {desktop : Desktop} {url : String} {called : List MenuAction}
    (h : Account Attempt.url desktop url called window) :
    ∀ attempt ∈ window.opened, attempt.url = url := by
  apply Attempt.url_eq_of_map_url
  rw [h.opened]
  exact Session.urls_directAttempts desktop url called

/-- Whatever a window has attempted to open is the address of its page. -/
theorem page_of_mem_attempts (run : Reaches desktops (start settings room input) window) :
    ∀ attempt ∈ window.attempts, ∃ address, settings.page = .ok address ∧
      attempt.url = address.toString := by
  intro attempt member
  cases page : settings.page with
  | error error =>
      rw [eq_of_reaches_of_error page run] at member
      simp [attempts] at member
  | ok address =>
      have same : Alike Attempt.url (desktops 0) desktops := fun _ _ => rfl
      obtain ⟨called, _, _, account, _, _⟩ := (follows_start page room input).reaches same run
      refine ⟨address, rfl, ?_⟩
      rcases List.mem_append.mp member with rendered | opened
      · exact account.url_of_mem_rendered attempt rendered
      · exact account.url_of_mem_opened attempt opened

end Window

/-- Whatever a session has attempted to open is the address of its page. -/
theorem Session.page_of_mem_attempts {desktop : Desktop} {settings : Settings} {input : List UInt8} :
    ∀ attempt ∈ (run desktop settings input).rendered ++ (run desktop settings input).opened,
      ∃ address, settings.page = .ok address ∧ attempt.url = address.toString := by
  intro attempt member
  unfold run at member
  cases page : settings.page with
  | error error => simp [page, closedAtOnce] at member
  | ok address =>
      refine ⟨address, rfl, ?_⟩
      simp only [page, if_true] at member
      rcases List.mem_append.mp member with rendered | opened
      · exact Attempt.url_eq_of_map_url (urls_attemptsOf desktop _ _) attempt rendered
      · exact Attempt.url_eq_of_map_url (urls_directAttempts desktop _ _) attempt opened

/-- These attempts hand a desktop nothing but the address of the page with these settings. The address may be
opened, and a machine on which the program that opens addresses is started is given it as one argument, which is
no option and holds no NUL. -/
structure HandsOnlyPage (settings : Settings) (attempts : List Attempt) : Prop where
  handed : ∀ url ∈ Attempt.handed attempts, ∃ address,
    settings.page = .ok address ∧ url = address.toString ∧ Address.Openable url
  started : ∀ arguments ∈ Machine.started attempts, ∃ address,
    settings.page = .ok address ∧ arguments = ["xdg-open", address.toString] ∧
      address.toString.toList.head? ≠ some '-' ∧ '\x00' ∉ address.toString.toList

theorem handsOnlyPage_of_page {settings : Settings} {attempts : List Attempt}
    (every : ∀ attempt ∈ attempts, ∃ address, settings.page = .ok address ∧
      attempt.url = address.toString) : HandsOnlyPage settings attempts := by
  have handed : ∀ url ∈ Attempt.handed attempts, ∃ address,
      settings.page = .ok address ∧ url = address.toString ∧ Address.Openable url := by
    intro url member
    obtain ⟨attempt, among, rfl⟩ := List.mem_map.mp member
    obtain ⟨address, page, same⟩ := every attempt (List.mem_of_mem_filter among)
    rw [same]
    exact ⟨address, page, rfl, (Address.wellFormed_of_page page).openable⟩
  refine ⟨handed, ?_⟩
  intro arguments member
  obtain ⟨url, among, rfl⟩ := List.mem_map.mp member
  obtain ⟨address, page, rfl, openable⟩ := handed url among
  exact ⟨address, page, rfl, openable.head?_ne_hyphen, openable.nul_not_mem⟩

/-- The settings of the window of a run are what comes of its arguments and the environment. -/
theorem resolve_of_window {args : List (List UInt8)} {env : Environment} {settings : Settings}
    (made : (Program.runRaw args env).window? = some settings) :
    Program.unreadable args = [] ∧ resolve (Program.readable args) env = .ready settings := by
  unfold Program.runRaw at made
  cases unread : Program.unreadable args with
  | nil =>
      rw [unread] at made
      exact ⟨rfl, ((goes_run _ env).window?_eq_some_iff settings).mp made⟩
  | cons problem rest =>
      rw [unread] at made
      have refused := Goes.refused_report (List.cons_ne_nil problem rest)
      exact Outcome.noConfusion ((refused.window?_eq_some_iff settings).mp made)

/-- A run makes a window only for settings that come of its arguments and the environment. Then, whatever the
desktop does and however the two threads of the window take turns, at every moment a desktop has been handed
nothing but the address of the page with these settings; and so it is with what the session of a run is said
to do. -/
theorem handed_of_run (args : List (List UInt8)) (env : Environment) :
    (∀ settings, (Program.runRaw args env).window? = some settings →
      Program.unreadable args = [] ∧ resolve (Program.readable args) env = .ready settings ∧
        ∀ desktops room input window,
          Window.Reaches desktops (Window.start settings room input) window →
            HandsOnlyPage settings window.attempts) ∧
    ∀ desktop input session, (Program.perform desktop args env input).session = some session →
      ∃ settings, (Program.runRaw args env).window? = some settings ∧
        HandsOnlyPage settings (session.rendered ++ session.opened) := by
  constructor
  · intro settings made
    obtain ⟨read, ready⟩ := resolve_of_window made
    refine ⟨read, ready, ?_⟩
    intro desktops room input window run
    exact handsOnlyPage_of_page (Window.page_of_mem_attempts run)
  · intro desktop input session shown
    obtain ⟨settings, made, rfl⟩ := Option.map_eq_some_iff.mp shown
    exact ⟨settings, made, handsOnlyPage_of_page Session.page_of_mem_attempts⟩

/-- A user part, a port with leading zeros and an escape in the query: the same address is handed over by the
render thread and by the menu, whole. -/
theorem handed_of_run_twice :
    ∃ (args : List (List UInt8)) (settings : Settings) (window : Window),
      (Program.runRaw args fun _ => none).window? = some settings ∧
      Window.Reaches (fun _ => {}) (Window.start settings none (Utf8.encode "Open in Browser".toList))
        window ∧
      Attempt.handed window.attempts =
        ["http://-@example.com:80/-?b%41", "http://-@example.com:80/-?b%41"] ∧
      HandsOnlyPage settings window.attempts := by
  let args := ["--server", "-@example.com:0080/x", "--path", "a/../-?b%41"].map
    fun token => Utf8.encode token.toList
  let settings : Settings :=
    { Settings.standard with server := "http://-@example.com:80/x", path := "a/../-?b%41" }
  let input := Utf8.encode "Open in Browser".toList
  let address : Address :=
    ⟨.http, ⟨some ['-'], "example.com".toList, some 80⟩, ⟨['/', '-'], some "b%41".toList, none⟩⟩
  have made : (Program.runRaw args fun _ => none).window? = some settings := by decide
  have page : settings.page = .ok address := by decide
  have calls : Session.calls settings none input = [.openExternal] := by decide
  have same : Window.Alike id ({} : Desktop) fun _ => {} := fun _ _ => rfl
  have start : Window.Follows id {} address.toString (Session.calls settings none input)
      (Window.start settings none input) := Window.follows_start page none input
  obtain ⟨window, run, closed⟩ := start.exists_closed same
  obtain ⟨rendered, opened, _⟩ := (start.reaches same run).done_of_closed closed
  rw [calls, List.map_id, List.map_id] at rendered opened
  have handed : Attempt.handed window.attempts =
      ["http://-@example.com:80/-?b%41", "http://-@example.com:80/-?b%41"] := by
    rw [Window.attempts, rendered, opened]
    decide
  obtain ⟨_, _, only⟩ := (handed_of_run args fun _ => none).1 settings made
  exact ⟨args, settings, window, made, run, handed, only _ _ _ _ run⟩

end GameClient
