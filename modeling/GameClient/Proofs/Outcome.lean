import GameClient.Proofs.Faults
import GameClient.Proofs.Page
import GameClient.Proofs.Precedence
import GameClient.Proofs.Trace
/-!
What can come of any arguments and any environment. The width and the height of a draft stay in the range of
a window from the first unit to the last, so that the check with which settings are made never fails, and a
client is refused only for what the user gave. A client that starts has a server that is read again: only its
path can be in the way of its page.
-/

namespace GameClient

open Text

/-- A width or a height of a window: positive, and no more than a signed integer of 32 bits holds. -/
def IsExtent (n : Nat) : Prop :=
  1 ≤ n ∧ n ≤ 2147483647

instance : DecidablePred IsExtent := fun _ => inferInstanceAs (Decidable (_ ∧ _))

theorem isExtent_of_readDimension {given : String} {n : Nat} (h : readDimension given = some n) :
    IsExtent n := by
  obtain ⟨_, _, _, _, _, _, _, positive, small⟩ := readDimension_eq_some_iff.mp h
  exact ⟨positive, small⟩

/-- A problem with something that the user gave, other than the server: with a variable or with a unit. -/
inductive Problem.IsOfInput : Problem → Prop where
  | missingValue (flag : String) : IsOfInput (.missingValue flag)
  | unknownOption (token : String) : IsOfInput (.unknownOption token)
  | notPositive (label : String) : IsOfInput (.notPositive label)

/-- What can come of arguments and an environment. A refused client has problems with what the user gave, and
the one with the server stands behind all others. A client that starts has a window of a possible size, with
a path and a title that can be seen, and its server is a normal form. -/
inductive Outcome.IsProper : Outcome → Prop where
  | help : IsProper .help
  | rejected {found : List Problem} {refusal : Option AddressError}
      (ofInput : ∀ problem ∈ found, problem.IsOfInput)
      (nonempty : found ++ (refusal.map .address).toList ≠ []) :
      IsProper (.rejected (found ++ (refusal.map .address).toList))
  | ready {settings : Settings} (width : IsExtent settings.width) (height : IsExtent settings.height)
      (path : ∃ c ∈ settings.path.toList, isBlank c = false)
      (title : ∃ c ∈ settings.title.toList, isBlank c = false)
      (server : ∃ given normal, Address.normalize given = .ok normal ∧
        settings.server = normal.toString) : IsProper (.ready settings)

/-! ### The size of a draft -/

namespace Draft

/-- The draft has a width and a height that a window can have. -/
structure InRange (draft : Draft) : Prop where
  width : IsExtent draft.width
  height : IsExtent draft.height

theorem inRange_ofEnvironment (env : Environment) : (ofEnvironment env).InRange where
  width := dimension_keeps (fun _ _ => isExtent_of_readDimension) env .width (by decide)
  height := dimension_keeps (fun _ _ => isExtent_of_readDimension) env .height (by decide)

/-- No argument takes the size of a draft out of range. -/
theorem InRange.scan {draft : Draft} (h : draft.InRange) (args : List String) :
    (draft.scan args).InRange where
  width := scan_keeps Draft.width _ (fun _ _ => rfl)
    (dimensionFor_keeps fun _ _ => isExtent_of_readDimension) h.width args
  height := scan_keeps Draft.height _ (fun _ _ => rfl)
    (dimensionFor_keeps fun _ _ => isExtent_of_readDimension) h.height args

theorem InRange.exists_create {draft : Draft} (h : draft.InRange) (server path title : String)
    (fullscreen showMenu : Bool) :
    ∃ settings, Settings.create server path draft.width draft.height title fullscreen showMenu =
      .ok settings := by
  have width : 0 < draft.width := h.width.1
  have height : 0 < draft.height := h.height.1
  simp [Settings.create, width, height]

end Draft

/-! ### The problems of a refused client -/

theorem isOfInput_of_environmentProblem {env : Environment} {setting : Setting} :
    ∀ problem ∈ environmentProblem env setting, problem.IsOfInput := by
  intro problem found
  unfold environmentProblem at found
  cases given : env setting.envName with
  | none => simp [given] at found
  | some text =>
      by_cases isDimension : IsDimension text
      · simp [given, isDimension] at found
      · simp only [given, if_neg isDimension, Option.mem_def, Option.some.injEq] at found
        rw [← found]
        exact .notPositive _

theorem Argument.isOfInput_problem (argument : Argument) :
    ∀ problem ∈ argument.problem, problem.IsOfInput := by
  intro problem found
  cases argument with
  | single token =>
      by_cases known : token ∈ Switch.tokens
      · simp [Argument.problem, known] at found
      · simp only [Argument.problem, if_neg known, Option.mem_def, Option.some.injEq] at found
        rw [← found]
        exact .unknownOption token
  | option setting value =>
      cases value with
      | none =>
          simp only [Argument.problem, Option.mem_def, Option.some.injEq] at found
          rw [← found]
          exact .missingValue setting.flag
      | some value =>
          simp only [Argument.problem, Option.mem_def] at found
          split at found
          · cases found
            exact .missingValue setting.flag
          · split at found
            · simp at found
            · split at found
              · simp at found
              · cases found
                exact .notPositive _

/-- The expected problems are problems with the input, and behind them perhaps one with the server. -/
theorem exists_expectedProblems_eq (args : List String) (env : Environment) :
    ∃ (found : List Problem) (refusal : Option AddressError),
      (∀ problem ∈ found, problem.IsOfInput) ∧
        expectedProblems args env = found ++ (refusal.map .address).toList := by
  have server : ∀ given, ∃ refusal : Option AddressError,
      serverProblem given = refusal.map .address := by
    intro given
    unfold serverProblem
    cases Address.normalize given with
    | ok address => exact ⟨none, rfl⟩
    | error error => exact ⟨some error, rfl⟩
  obtain ⟨refusal, same⟩ := server (effectiveText .server args env)
  refine ⟨_, refusal, ?_, by rw [expectedProblems, same]⟩
  intro problem member
  simp only [List.mem_append, Option.mem_toList, List.mem_filterMap] at member
  rcases member with (ofWidth | ofHeight) | ⟨argument, _, ofUnit⟩
  · exact isOfInput_of_environmentProblem problem ofWidth
  · exact isOfInput_of_environmentProblem problem ofHeight
  · exact argument.isOfInput_problem problem ofUnit

/-! ### Every outcome -/

/-- A text that takes the place of a blank one can be seen if the other can. -/
theorem exists_visible_orIfBlank (text : String) {other : String}
    (visible : ∃ c ∈ other.toList, isBlank c = false) :
    ∃ c ∈ (orIfBlank text other).toList, isBlank c = false := by
  unfold orIfBlank allBlank
  by_cases blank : text.toList.all isBlank = true
  · rwa [if_pos blank]
  · rw [if_neg blank]
    simpa using blank

/-- Whatever the arguments and the environment are, what comes of them is proper, and the settings that a
client would start with can always be made. -/
theorem isProper_resolve (args : List String) (env : Environment) :
    (resolve args env).IsProper ∧
      ∀ server path title fullscreen showMenu, ∃ settings,
        Settings.create server path ((Draft.ofEnvironment env).scan args).width
          ((Draft.ofEnvironment env).scan args).height title fullscreen showMenu = .ok settings := by
  have range : ((Draft.ofEnvironment env).scan args).InRange :=
    (Draft.inRange_ofEnvironment env).scan args
  refine ⟨?_, range.exists_create⟩
  cases outcome : resolve args env with
  | help => exact .help
  | rejected problems =>
      obtain ⟨_, wrong, rfl⟩ := resolve_eq_rejected_iff.mp outcome
      obtain ⟨found, refusal, ofInput, same⟩ := exists_expectedProblems_eq args env
      rw [same] at wrong ⊢
      exact .rejected ofInput wrong
  | ready settings =>
      have becomes := becomes_of_resolve outcome
      obtain ⟨normal, normalized, server⟩ := becomes.server
      refine .ready ?width ?height ?path ?title ⟨_, normal, normalized, server⟩
      case width =>
        rw [becomes.width]
        exact range.width
      case height =>
        rw [becomes.height]
        exact range.height
      case path =>
        rw [becomes.path]
        exact exists_visible_orIfBlank _ ⟨'/', by decide⟩
      case title =>
        rw [becomes.title]
        exact exists_visible_orIfBlank _ ⟨'F', by decide⟩

/-! ### The page of a client that starts -/

namespace Address

/-- A path is as legal as the reference from the root that is made of it. -/
theorem hasIllegal_rootReference_iff {path : List Char} :
    HasIllegal (rootReference path) ↔ HasIllegal (trim path) := by
  have slash : ∀ text, HasIllegal ('/' :: text) ↔ HasIllegal text := by
    intro text
    have plain : isPlain '/' = true := by decide
    simp [hasIllegal_cons, plain]
  unfold rootReference
  cases shape : trim path with
  | nil => exact slash []
  | cons c rest =>
      by_cases first : c = '/'
      · simp [first]
      · simpa [first] using slash (c :: rest)

/-- On a server that can be read, only the path can be in the way of a page. -/
theorem page_eq_error_iff {server path : String} {base : Address} {error : AddressError}
    (found : read (trim server.toList) = .ok base) :
    page server path = .error error ↔ HasIllegal (trim path.toList) ∧ error = .malformed path := by
  have legal : isLegal (rootReference path.toList) = true ↔ ¬ HasIllegal (trim path.toList) := by
    rw [isLegal_eq_true_iff, hasIllegal_rootReference_iff]
  unfold page
  simp only [found]
  by_cases illegal : HasIllegal (trim path.toList)
  · rw [if_neg (by rw [legal]; exact not_not.mpr illegal)]
    simp [illegal, eq_comm]
  · rw [if_pos (legal.mpr illegal)]
    simp [illegal]

/-- A normal form is read again, and there is no white space around it. -/
theorem read_trim_of_normalize {given : String} {normal : Address}
    (h : normalize given = .ok normal) :
    read normal.toString.toList = .ok normal ∧ trim normal.toString.toList = normal.toString.toList := by
  have wellFormed := wellFormed_of_normalize h
  rw [wellFormed.trim_toString, Address.toString, String.toList_ofList]
  exact ⟨wellFormed.read_text, rfl⟩

end Address

open Address in
/-- A client that starts has a server that can be read. It has no page exactly if there is an illegal character
in its path, white space around it aside, and then the path is reported as it was given; with any other path
there is a page on the server. The address of the page is read with the scheme, user part, host and port of
the server. -/
theorem page_of_resolve {args : List String} {env : Environment} {settings : Settings}
    (h : resolve args env = .ready settings) :
    ∃ server, read settings.server.toList = .ok server ∧
      (∀ error, settings.page = .error error ↔
        HasIllegal (trim settings.path.toList) ∧ error = .malformed settings.path) ∧
      (∀ path, ¬ HasIllegal (trim path.toList) → ∃ shown, page settings.server path = .ok shown) ∧
      ∀ shown, settings.page = .ok shown → ∃ parsed, read shown.toString.toList = .ok parsed ∧
        parsed.scheme = server.scheme ∧ parsed.authority.userinfo = server.authority.userinfo ∧
        parsed.authority.host = server.authority.host ∧
        parsed.authority.port = server.authority.port := by
  obtain ⟨server, normalized, same⟩ := (becomes_of_resolve h).server
  obtain ⟨readable, trimmed⟩ := read_trim_of_normalize normalized
  rw [← same] at readable trimmed
  have found : read (trim settings.server.toList) = .ok server := by
    rw [trimmed]
    exact readable
  refine ⟨server, readable, fun error => page_eq_error_iff found, ?_, ?_⟩
  · intro path legal
    cases made : page settings.server path with
    | ok shown => exact ⟨shown, rfl⟩
    | error error => exact absurd ((page_eq_error_iff found).mp made).1 legal
  · intro shown made
    obtain ⟨_, base, found', from_base⟩ := page_eq_ok_iff.mp made
    rw [found, Except.ok.injEq] at found'
    subst found'
    have again : read shown.toString.toList = .ok shown := by
      rw [Address.toString, String.toList_ofList]
      exact (wellFormed_of_page made).read_text
    exact ⟨shown, again, by rw [from_base], by rw [from_base], by rw [from_base], by rw [from_base]⟩

open Address in
/-- One escape is cut short, so that there is no page, and the path is reported with its white space; with the
path of the variable there is one, on a server with two marks `@`. -/
theorem page_of_resolve_broken_escape :
    ∃ env settings other, resolve ["--server", "a@b@[::1]:0080/x/", "--path", " play%4"] env =
        .ready settings ∧ settings.page = .error (.malformed " play%4") ∧
      resolve ["--server", "a@b@[::1]:0080/x/"] env = .ready other ∧
      ∃ shown parsed, other.page = .ok shown ∧ read shown.toString.toList = .ok parsed ∧
        parsed.authority.userinfo = some "a@b".toList ∧ parsed.authority.host = "[::1]".toList ∧
        parsed.authority.port = some 80 := by
  let env : Environment := fun name => if name = "FLAPPYBINGUS_PATH" then some "@c:9?q" else none
  let settings : Settings :=
    { Settings.standard with server := "http://a@b@[::1]:80/x", path := " play%4" }
  let other : Settings := { settings with path := "@c:9?q" }
  let server : Address :=
    ⟨.http, ⟨some "a@b".toList, "[::1]".toList, some 80⟩, ⟨['/', 'x'], none, none⟩⟩
  have ready : resolve ["--server", "a@b@[::1]:0080/x/", "--path", " play%4"] env =
      .ready settings := by decide
  have ready' : resolve ["--server", "a@b@[::1]:0080/x/"] env = .ready other := by decide
  have illegal : HasIllegal (trim settings.path.toList) := by
    rw [← not_not (a := HasIllegal _), ← isLegal_eq_true_iff]
    decide
  have legal : ¬ HasIllegal (trim other.path.toList) := by
    rw [← isLegal_eq_true_iff]
    decide
  obtain ⟨_, _, fails, _, _⟩ := page_of_resolve ready
  obtain ⟨server', readable, _, succeeds, origin⟩ := page_of_resolve ready'
  have same : read other.server.toList = .ok server := by decide
  rw [same, Except.ok.injEq] at readable
  subst readable
  obtain ⟨shown, made⟩ := succeeds other.path legal
  obtain ⟨parsed, again, _, userinfo, host, port⟩ := origin shown made
  exact ⟨env, settings, other, ready, (fails _).mpr ⟨illegal, rfl⟩, ready', shown, parsed, made, again,
    userinfo, host, port⟩

end GameClient
