import GameClient.Proofs.Precedence
import GameClient.Proofs.Printed
import GameClient.Proofs.Issued
/-!
The summary as a reader sees it: cut at its line breaks. Each setting stands behind a label in a line of its own and
can be read back from it, unless a path or a title breaks its line: then the lines behind it stand elsewhere, and
different settings may have one summary.
-/

namespace GameClient

open Text

namespace Settings

/-! ### The rows under the banner -/

/-- A row of the summary. -/
inductive Row where
  | server
  | path
  | window
  | title
  | mode
  | menu
deriving Repr, DecidableEq

namespace Row

/-- All of them, from top to bottom. -/
def all : List Row :=
  [.server, .path, .window, .title, .mode, .menu]

/-- What stands in front of a setting. -/
def label : Row → String
  | .server => "   Server:       "
  | .path => "   Path:         "
  | .window => "   Window:       "
  | .title => "   Title:        "
  | .mode => "   Mode:         "
  | .menu => "   Menu:         "

/-- The setting as it is written. -/
def text (settings : Settings) : Row → String
  | .server => settings.server
  | .path => settings.path
  | .window => number settings.width ++ "x" ++ number settings.height
  | .title => settings.title
  | .mode => settings.modeName
  | .menu => settings.menuName

/-- The line of the summary in which the row should stand, the first one being line 0. -/
def place : Row → Nat
  | .server => 3
  | .path => 4
  | .window => 5
  | .title => 6
  | .mode => 7
  | .menu => 8

/-- What stands behind the label of the row in the line at its place, if the label stands there. -/
def readFrom (lines : List (List Char)) (row : Row) : Option String :=
  (lines[row.place]?.bind fun line => line.dropPrefix? row.label.toList).map String.ofList

end Row

theorem summaryLines_eq (settings : Settings) :
    settings.summaryLines = banner ++ Row.all.map fun row => row.label ++ row.text settings := by
  simp [summaryLines, Row.all, Row.label, Row.text, String.append_assoc]

theorem toList_summary (settings : Settings) :
    settings.summary.toList = ['\n'].intercalate (settings.summaryLines.map String.toList) := by
  simp [summary]

/-! ### Line breaks -/

theorem breaks_number (n : Nat) : breaks (number n) = 0 := by
  rw [breaks_eq_zero_iff, number, String.toList_ofList]
  intro member
  exact absurd (Numeral.isDigit_of_mem_write member) (by decide)

theorem breaks_boxRule : breaks boxRule = 0 := by
  have chars : boxRule.toList = List.replicate 62 '═' := String.toList_ofList
  unfold breaks
  rw [chars]
  simp

theorem breaks_of_mem_banner : ∀ line ∈ banner, breaks line = 0 := by
  intro line member
  simp only [banner, List.mem_cons, List.not_mem_nil, or_false] at member
  rcases member with rfl | rfl | rfl
  · simp only [breaks_append, breaks_boxRule]
    rfl
  · rfl
  · simp only [breaks_append, breaks_boxRule]
    rfl

theorem Row.breaks_label (row : Row) : breaks row.label = 0 := by
  cases row <;> rfl

/-- How often a row breaks its line: only three settings can. -/
theorem Row.breaks_text (settings : Settings) (row : Row) :
    breaks (row.text settings) =
      match row with
      | .server => breaks settings.server
      | .path => breaks settings.path
      | .title => breaks settings.title
      | .window | .mode | .menu => 0 := by
  cases row with
  | server | path | title => rfl
  | window =>
      have between : breaks "x" = 0 := rfl
      simp only [Row.text, breaks_append, breaks_number, between]
  | mode =>
      simp only [Row.text, modeName]
      split <;> rfl
  | menu =>
      simp only [Row.text, menuName]
      split <;> rfl

/-- A summary has nine lines and as many more as there are line breaks in its settings. -/
theorem length_linesOf_summary (settings : Settings) :
    (linesOf settings.summary).length =
      9 + (breaks settings.server + breaks settings.path + breaks settings.title) := by
  have nonempty : settings.summaryLines.map String.toList ≠ [] := by
    simp [summaryLines]
  have ofBanner : (banner.map String.toList).flatten.count '\n' = 0 := by
    rw [List.count_eq_zero, List.mem_flatten]
    rintro ⟨_, member, here⟩
    obtain ⟨line, inBanner, rfl⟩ := List.mem_map.mp member
    exact breaks_eq_zero_iff.mp (breaks_of_mem_banner line inBanner) here
  have each : ∀ text : String, text.toList.count '\n' = breaks text := fun _ => rfl
  have ofRows : ((Row.all.map fun row => row.label ++ row.text settings).map String.toList).flatten.count '\n' =
      breaks settings.server + breaks settings.path + breaks settings.title := by
    simp [Row.all, each, Row.breaks_label, Row.breaks_text, Nat.add_assoc]
  have ofLines : (settings.summaryLines.map String.toList).flatten.count '\n' =
      breaks settings.server + breaks settings.path + breaks settings.title := by
    rw [summaryLines_eq, List.map_append, List.flatten_append, List.count_append, ofBanner, Nat.zero_add, ofRows]
  have nine : (settings.summaryLines.map String.toList).length = 9 := rfl
  rw [linesOf, length_splitOn, toList_summary, count_intercalate '\n' nonempty, nine, ofLines]

/-- Without line breaks in the settings, the lines of the summary are the banner and the rows. -/
theorem linesOf_summary {settings : Settings} (server : breaks settings.server = 0)
    (path : breaks settings.path = 0) (title : breaks settings.title = 0) :
    linesOf settings.summary = settings.summaryLines.map String.toList := by
  have unbroken : ∀ line ∈ settings.summaryLines, breaks line = 0 := by
    intro line member
    rw [summaryLines_eq, List.mem_append, List.mem_map] at member
    rcases member with ofBanner | ⟨row, _, rfl⟩
    · exact breaks_of_mem_banner line ofBanner
    · cases row <;> simp [breaks_append, Row.breaks_label, Row.breaks_text, server, path, title]
  rw [linesOf, toList_summary, List.splitOn_intercalate]
  · exact List.forall_mem_map.mpr fun line member => breaks_eq_zero_iff.mp (unbroken line member)
  · simp [summaryLines]

/-! ### Reading back -/

/-- A row is read back from the line at its place. -/
theorem Row.readFrom_summaryLines (settings : Settings) (row : Row) :
    row.readFrom (settings.summaryLines.map String.toList) = some (row.text settings) := by
  have line : (settings.summaryLines.map String.toList)[row.place]? =
      some (row.label.toList ++ (row.text settings).toList) := by
    have above : (banner.map String.toList).length = 3 := rfl
    have behind : 3 ≤ row.place := by cases row <;> decide
    rw [summaryLines_eq, List.map_append, List.getElem?_append_right (above ▸ behind), above]
    cases row <;> simp [all, place]
  have rest : (row.label.toList ++ (row.text settings).toList).dropPrefix? row.label.toList =
      some (row.text settings).toList :=
    List.dropPrefix?_eq_some_iff.mpr ⟨_, rfl, by simp⟩
  simp [readFrom, line, rest]

theorem modeName_inj {one two : Settings} : one.modeName = two.modeName ↔ one.fullscreen = two.fullscreen := by
  unfold modeName
  cases one.fullscreen <;> cases two.fullscreen <;> simp

theorem menuName_inj {one two : Settings} : one.menuName = two.menuName ↔ one.showMenu = two.showMenu := by
  unfold menuName
  cases one.showMenu <;> cases two.showMenu <;> simp

/-- The two numbers of the size of a window can be told apart: there is no `x` in a numeral. -/
theorem size_inj {width height width' height' : Nat}
    (same : number width ++ "x" ++ number height = number width' ++ "x" ++ number height') :
    width = width' ∧ height = height' := by
  have free : ∀ n, 'x' ∉ Numeral.write n := fun n member =>
    absurd (Numeral.isDigit_of_mem_write member) (by decide)
  have texts := congrArg String.toList same
  simp only [number, String.toList_append, String.toList_ofList, List.append_assoc] at texts
  have cut := cutFirst_append_cons (free width) (Numeral.write height)
  have cut' := cutFirst_append_cons (free width') (Numeral.write height')
  have both := cut.symm.trans ((congrArg (cutFirst 'x') texts).trans cut')
  simp only [Option.some.injEq, Prod.mk.injEq, Numeral.write_inj] at both
  exact both

/-- The rows tell the settings. -/
theorem eq_of_rows {one two : Settings} (same : ∀ row : Row, row.text one = row.text two) : one = two := by
  have size := size_inj (same .window)
  have mode := modeName_inj.mp (same .mode)
  have menu := menuName_inj.mp (same .menu)
  have server := same .server
  have path := same .path
  have title := same .title
  cases one
  cases two
  simp_all [Row.text]

end Settings

open Settings

/-- The server that a client starts with breaks no line. -/
theorem breaks_server_of_resolve {args : List String} {env : Environment} {settings : Settings}
    (h : resolve args env = .ready settings) : breaks settings.server = 0 := by
  obtain ⟨address, found, same⟩ := (becomes_of_resolve h).server
  rw [breaks_eq_zero_iff, same, Address.toString, String.toList_ofList]
  intro member
  have noBlank := Address.isBlank_eq_false_of_isLegal (Address.wellFormed_of_normalize found).isLegal_text
  exact absurd (noBlank '\n' member) (by decide)

/-- The summary of the settings that a client starts with has nine lines and one more for each line break in the path
and the title. If there is none, each setting is read back from its own line, and no other settings that a client can
start with have this summary. -/
theorem summary_of_resolve {args : List String} {env : Environment} {settings : Settings}
    (h : resolve args env = .ready settings) :
    (linesOf settings.summary).length = 9 + (breaks settings.path + breaks settings.title) ∧
      (breaks settings.path = 0 → breaks settings.title = 0 →
        linesOf settings.summary =
            (banner ++
              ["   Server:       " ++ settings.server, "   Path:         " ++ settings.path,
               "   Window:       " ++ number settings.width ++ "x" ++ number settings.height,
               "   Title:        " ++ settings.title,
               "   Mode:         " ++ (if settings.fullscreen then "fullscreen" else "windowed"),
               "   Menu:         " ++ (if settings.showMenu then "visible" else "hidden")]).map
              String.toList ∧
          (∀ row : Row, row.readFrom (linesOf settings.summary) = some (row.text settings)) ∧
          ∀ args env other, resolve args env = .ready other →
            (other.summary = settings.summary ↔ other = settings)) := by
  have server := breaks_server_of_resolve h
  refine ⟨?count, fun path title => ⟨?lines, ?rows, ?unique⟩⟩
  case count => rw [length_linesOf_summary, server, Nat.zero_add]
  case lines => exact linesOf_summary server path title
  case rows =>
    intro row
    rw [linesOf_summary server path title]
    exact row.readFrom_summaryLines settings
  case unique =>
    intro args env other ready
    have server' := breaks_server_of_resolve ready
    constructor
    · intro same
      -- The other summary has nine lines as well, so that no line of it is broken either.
      have count := length_linesOf_summary other
      rw [same, length_linesOf_summary settings] at count
      have lines : linesOf other.summary = other.summaryLines.map String.toList :=
        linesOf_summary server' (by omega) (by omega)
      refine eq_of_rows fun row => ?_
      have read := row.readFrom_summaryLines other
      rw [← lines, same, linesOf_summary server path title, row.readFrom_summaryLines settings] at read
      exact (Option.some.inj read).symm
    · exact congrArg summary

/-- A path may imitate the label of another row, as long as it does so in its own line. -/
theorem summary_of_resolve_of_label :
    ∃ args env settings, resolve args env = .ready settings ∧
      settings.path = "/   Title:        b" ∧ breaks settings.path = 0 ∧ breaks settings.title = 0 ∧
      (linesOf settings.summary).length = 9 ∧
      Row.path.readFrom (linesOf settings.summary) = some "/   Title:        b" ∧
      Row.title.readFrom (linesOf settings.summary) = some "FlappyBingus" := by
  let args := ["--path", "/   Title:        b"]
  let settings : Settings :=
    ⟨"http://localhost:3000", "/   Title:        b", 1280, 720, "FlappyBingus", false, true, by decide,
      by decide⟩
  have ready : resolve args (fun _ => none) = .ready settings := by decide
  obtain ⟨count, readable⟩ := summary_of_resolve ready
  obtain ⟨_, rows, _⟩ := readable (by decide) (by decide)
  exact ⟨args, fun _ => none, settings, ready, rfl, by decide, by decide, count.trans (by decide), rows .path,
    rows .title⟩

/-- A title with line breaks makes a summary of eleven lines, which is also the summary of other settings. -/
theorem summary_of_broken_title :
    ∃ args args' env settings other, resolve args env = .ready settings ∧
      resolve args' env = .ready other ∧ settings.title ≠ other.title ∧
      settings.summary = other.summary ∧ (linesOf settings.summary).length = 11 := by
  let args := ["--title", "a\n   Window:       1280x720\n   Title:        b"]
  let args' := ["--path", "/\n   Window:       1280x720\n   Title:        a", "--title", "b"]
  let settings : Settings :=
    ⟨"http://localhost:3000", "/", 1280, 720, "a\n   Window:       1280x720\n   Title:        b", false,
      true, by decide, by decide⟩
  let other : Settings :=
    ⟨"http://localhost:3000", "/\n   Window:       1280x720\n   Title:        a", 1280, 720, "b", false,
      true, by decide, by decide⟩
  have ready : resolve args (fun _ => none) = .ready settings := by decide
  have ready' : resolve args' (fun _ => none) = .ready other := by decide
  refine ⟨args, args', fun _ => none, settings, other, ready, ready', by decide, by decide +kernel, ?_⟩
  rw [length_linesOf_summary]
  decide

end GameClient
