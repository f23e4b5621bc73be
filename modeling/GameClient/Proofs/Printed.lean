import GameClient.Menu
import GameClient.Proofs.Arguments
import GameClient.Proofs.Case
import Mathlib.Data.List.Basic
import Mathlib.Data.List.Infix
/-!
Printed texts as a reader sees them: cut at their line breaks. The help text has a line for every option that the
client takes, and the listing of a menu bar has a line for every item, in the order of the bar.
-/

namespace GameClient

open Text

namespace Text

/-! ### Lines -/

/-- The lines of a text. -/
def linesOf (text : String) : List (List Char) :=
  text.toList.splitOn '\n'

/-- How many line breaks the text has. -/
def breaks (text : String) : Nat :=
  text.toList.count '\n'

theorem breaks_append (one two : String) : breaks (one ++ two) = breaks one + breaks two := by
  simp [breaks]

theorem breaks_eq_zero_iff {text : String} : breaks text = 0 ↔ '\n' ∉ text.toList :=
  List.count_eq_zero

theorem breaks_number (n : Nat) : breaks (Settings.number n) = 0 := by
  rw [breaks_eq_zero_iff, Settings.number, String.toList_ofList]
  intro member
  exact absurd (Numeral.isDigit_of_mem_write member) (by decide)

/-- There is one part more than there are separators. -/
theorem length_splitOn (sep : Char) (text : List Char) :
    (text.splitOn sep).length = text.count sep + 1 := by
  induction text with
  | nil => rfl
  | cons c rest ih =>
      rw [List.splitOn_cons_eq_if_modifyHead]
      by_cases isSep : c = sep
      · simp [isSep, ih]
      · simp [isSep, ih]

/-- Between parts stand as many separators as there are parts, less one, and those inside the parts. -/
theorem count_intercalate (sep : Char) {parts : List (List Char)} (nonempty : parts ≠ []) :
    ([sep].intercalate parts).count sep + 1 = parts.length + parts.flatten.count sep := by
  induction parts with
  | nil => exact absurd rfl nonempty
  | cons part rest ih =>
      cases rest with
      | nil => simp [Nat.add_comm]
      | cons next rest =>
          have later := ih (by simp)
          rw [List.intercalate_cons_cons, List.count_append, List.count_append, List.flatten_cons,
            List.count_append, List.length_cons, List.count_singleton_self]
          omega

theorem toList_joinLines_cons (line : String) (rest : List String) :
    (joinLines (line :: rest)).toList = line.toList ++ '\n' :: (joinLines rest).toList := by
  simp [joinLines, String.join_cons]

theorem joinLines_eq_empty_iff {lines : List String} : joinLines lines = "" ↔ lines = [] := by
  cases lines with
  | nil => simp [joinLines]
  | cons line rest => simp [joinLines, String.join_cons]

/-- Lines without breaks are read back; behind the last of them nothing is left. -/
theorem linesOf_joinLines {lines : List String} (unbroken : ∀ line ∈ lines, breaks line = 0) :
    linesOf (joinLines lines) = lines.map String.toList ++ [[]] := by
  induction lines with
  | nil => rfl
  | cons line rest ih =>
      rw [List.forall_mem_cons, breaks_eq_zero_iff] at unbroken
      have first : line.toList.splitOn '\n' = [line.toList] :=
        List.splitOn_eq_singleton unbroken.1
      have later := ih unbroken.2
      unfold linesOf at later ⊢
      rw [toList_joinLines_cons, List.splitOn_append_cons_self, first, later]
      rfl

/-! ### Columns -/

theorem toList_padRight (width : Nat) (text : String) :
    (padRight width text).toList = text.toList ++ List.replicate (width - text.length) ' ' := by
  simp [padRight]

theorem breaks_padRight (width : Nat) (text : String) : breaks (padRight width text) = breaks text := by
  simp [breaks, toList_padRight, List.count_replicate]

/-- What stands behind a text that fits its column stands at the end of the column. -/
theorem drop_padRight_append {width : Nat} {text : String} (fits : text.length ≤ width) (rest : List Char) :
    ((padRight width text).toList ++ rest).drop width = rest := by
  apply List.drop_left'
  rw [toList_padRight, List.length_append, List.length_replicate, String.length_toList]
  omega

end Text

/-! ### The help text -/

namespace Help

theorem breaks_rowLine (row : String × String) : breaks (rowLine row) = breaks row.1 + breaks row.2 := by
  have indented : breaks (leftColumn row) = breaks row.1 := by
    simp [breaks, leftColumn, List.count_replicate]
  have gap : breaks "  " = 0 := rfl
  simp only [rowLine, breaks_append, breaks_padRight, indented, gap, Nat.add_zero]

theorem breaks_settingRow (setting : Setting) :
    breaks (settingRow setting).1 = 0 ∧ breaks (settingRow setting).2 = 0 := by
  cases setting <;> decide

theorem breaks_switchRow (switch : Switch) :
    breaks (switchRow switch).1 = 0 ∧ breaks (switchRow switch).2 = 0 := by
  cases switch <;> decide

theorem breaks_of_mem_lines : ∀ line ∈ lines, breaks line = 0 := by
  intro line member
  rcases List.mem_append.mp member with ofHead | ofRow
  · have every : ∀ line ∈ [clientName, "", "Usage: " ++ programName ++ " [OPTIONS]", "", "Options:"],
        breaks line = 0 := by decide
    exact every line ofHead
  · obtain ⟨row, inRows, rfl⟩ := List.mem_map.mp ofRow
    rw [breaks_rowLine]
    rcases List.mem_append.mp inRows with ofSetting | ofSwitch
    · obtain ⟨setting, _, rfl⟩ := List.mem_map.mp ofSetting
      rw [(breaks_settingRow setting).1, (breaks_settingRow setting).2]
    · obtain ⟨switch, _, rfl⟩ := List.mem_map.mp ofSwitch
      rw [(breaks_switchRow switch).1, (breaks_switchRow switch).2]

theorem linesOf_text : linesOf text = lines.map String.toList ++ [[]] :=
  linesOf_joinLines breaks_of_mem_lines

/-- The long names of the options stand in a column, behind the short one if there is one. -/
theorem prefix_drop_rowLine {row : String × String} (member : row ∈ rows) :
    ['-', '-'] <+: (rowLine row).toList.drop 6 := by
  have left : ∀ row ∈ rows, ['-', '-'] <+: (leftColumn row).toList.drop 6 := by decide
  have begins : (leftColumn row).toList <+: (rowLine row).toList := by
    simp [rowLine, toList_padRight, List.append_assoc]
  exact (left row member).trans (begins.drop 6)

/-- What the options do stands in a column of its own. -/
theorem drop_rowLine {row : String × String} (member : row ∈ rows) :
    (rowLine row).toList.drop (columnWidth + 2) = row.2.toList := by
  have fits : (leftColumn row).length ≤ columnWidth := by
    rw [columnWidth, List.foldl_max]
    have listed := List.mem_map_of_mem (f := fun row => (leftColumn row).length) member
    exact Nat.le_trans (List.le_max?_getD_of_mem listed) (Nat.le_max_right _ _)
  rw [rowLine, String.append_assoc, String.toList_append, ← List.drop_drop, drop_padRight_append fits]
  simp

/-- The line has all of the words in it. -/
def Tells (line : List Char) (words : List String) : Prop :=
  ∀ word ∈ words, word.toList <:+: line

/-- The line of a row tells what its two columns tell. -/
theorem tells_rowLine {row : String × String} {words : List String}
    (told : ∀ word ∈ words, word.toList <:+: row.1.toList ∨ word.toList <:+: row.2.toList) :
    Tells (rowLine row).toList words := by
  have parts : (rowLine row).toList = List.flatten
      [List.replicate (indent row.1) ' ', row.1.toList,
        List.replicate (columnWidth - (leftColumn row).length) ' ', [' ', ' '], row.2.toList] := by
    simp [rowLine, toList_padRight, leftColumn]
  intro word member
  rw [parts]
  rcases told word member with left | right
  · exact left.trans (List.infix_of_mem_flatten (by simp))
  · exact right.trans (List.infix_of_mem_flatten (by simp))

theorem tells_settingRow (setting : Setting) : Tells (rowLine (settingRow setting)).toList
    [setting.flag, placeholder setting, purpose setting, setting.envName, setting.defaultText] := by
  have left : (settingRow setting).1.toList =
      List.flatten [setting.flag.toList, [' '], (placeholder setting).toList] := by
    simp [settingRow]
  have right : (settingRow setting).2.toList = List.flatten
      [(purpose setting).toList, " [env: ".toList, setting.envName.toList, "] [default: ".toList,
        setting.defaultText.toList, "]".toList] := by
    simp [settingRow]
  apply tells_rowLine
  intro word member
  rw [left, right]
  simp only [List.mem_cons, List.not_mem_nil, or_false] at member
  rcases member with rfl | rfl | rfl | rfl | rfl
  · exact .inl (List.infix_of_mem_flatten (by simp))
  · exact .inl (List.infix_of_mem_flatten (by simp))
  all_goals exact .inr (List.infix_of_mem_flatten (by simp))

theorem tells_switchRow (switch : Switch) :
    Tells (rowLine (switchRow switch)).toList (effect switch :: switch.names) := by
  have named : ∀ name ∈ switch.names, name.toList <:+: (switchRow switch).1.toList := by
    cases switch <;> decide
  apply tells_rowLine
  intro word member
  rcases List.mem_cons.mp member with rfl | isName
  · exact .inr (List.infix_refl _)
  · exact .inl (named word isName)

theorem mem_linesOf_text {row : String × String} (member : row ∈ rows) :
    (rowLine row).toList ∈ linesOf text := by
  rw [linesOf_text, lines]
  exact List.mem_append_left _ (List.mem_map_of_mem (List.mem_append_right _ (List.mem_map_of_mem member)))

/-- The help text begins with the name of the client and how it is called. Every token that is taken for an option
stands in a line of it: with the kind of value that it takes, what it is for, its variable and its default, or with
what it does. -/
theorem text_tells :
    (linesOf text).take 5 =
      [clientName, "", "Usage: flappybingus-client [OPTIONS]", "", "Options:"].map String.toList ∧
    (∀ token setting, Setting.ofFlag? token = some setting → ∃ line ∈ linesOf text, Tells line
      [token, placeholder setting, purpose setting, setting.envName, setting.defaultText]) ∧
    ∀ token switch, Switch.ofToken? token = some switch → ∃ line ∈ linesOf text,
      Tells line [token, effect switch] := by
  refine ⟨?head, ?settings, ?switches⟩
  case head =>
    rw [linesOf_text]
    rfl
  case settings =>
    intro token setting found
    have listed : setting ∈ Setting.all := by cases setting <;> decide
    refine ⟨_, mem_linesOf_text (List.mem_append_left _ (List.mem_map_of_mem listed)), ?_⟩
    rw [← Setting.flag_of_ofFlag? found]
    exact tells_settingRow setting
  case switches =>
    intro token switch found
    have listed : switch ∈ Switch.all := by cases switch <;> decide
    refine ⟨_, mem_linesOf_text (List.mem_append_right _ (List.mem_map_of_mem listed)), ?_⟩
    intro word member
    apply tells_switchRow switch
    simp only [List.mem_cons, List.not_mem_nil, or_false] at member
    rcases member with rfl | rfl
    · exact List.mem_cons_of_mem _ (Switch.mem_names_of_ofToken? found)
    · exact List.mem_cons_self

end Help

/-! ### The listing of a menu bar -/

/-- The letter that is shown for a key breaks no line, unless the key does. -/
theorem breaks_keyName {key : Char} (h : key ≠ '\n') : breaks (keyName key) = 0 := by
  have shown : key.toUpper ≠ '\n' := by
    intro same
    apply h
    have code := congrArg Char.toNat same
    rw [toNat_toUpper] at code
    have code : (if 0x61 ≤ key.toNat ∧ key.toNat ≤ 0x7A then key.toNat - 0x20 else key.toNat) = 10 := code
    split at code
    · omega
    · exact Char.toNat_inj.mp code
  rw [breaks_eq_zero_iff]
  simp [keyName, shown.symm]

namespace MenuItem

theorem breaks_line {item : MenuItem} (label : breaks item.label = 0) (key : item.key ≠ some '\n') :
    breaks item.line = 0 := by
  unfold line
  cases has : item.key with
  | none =>
      rw [breaks_append, label]
      rfl
  | some c =>
      have visible : c ≠ '\n' := fun same => key (by rw [has, same])
      simp only [breaks_append, breaks_padRight, breaks_keyName visible, label]
      rfl

/-- The line of an item is its label behind two blanks and, if it has a key, the name of the key behind some more. -/
theorem exists_line_eq (item : MenuItem) :
    ∃ width, (0 < width ↔ item.key.isSome = true) ∧
      item.line.toList = [' ', ' '] ++ (item.label.toList ++ List.replicate width ' ' ++
        item.key.elim [] fun key => (keyName key).toList) := by
  unfold line
  cases item.key with
  | none => exact ⟨0, by simp, by simp⟩
  | some key =>
      refine ⟨labelWidth - item.label.length + 1, by simp, ?_⟩
      simp [toList_padRight, List.replicate_succ']

/-- The names of the keys stand in a column, behind all labels that fit in theirs. -/
theorem drop_line {item : MenuItem} {key : Char} (has : item.key = some key)
    (fits : item.label.length ≤ labelWidth) :
    item.line.toList.drop (2 + labelWidth + 1) = (keyName key).toList := by
  have parts : item.line.toList =
      ' ' :: ' ' :: ((padRight labelWidth item.label).toList ++ ' ' :: (keyName key).toList) := by
    simp [line, has]
  rw [parts, Nat.add_assoc, ← List.drop_drop, ← List.drop_drop, List.drop_succ_cons, List.drop_succ_cons,
    List.drop_zero, drop_padRight_append fits]
  rfl

end MenuItem

namespace MenuBar

variable {bar : MenuBar}

/-- Every item of a bar has its line in the listing, in the order of the bar. -/
theorem items_sublist_lines (bar : MenuBar) : (bar.items.map MenuItem.line).Sublist bar.lines := by
  unfold items lines
  induction bar.menus with
  | nil => exact .slnil
  | cons menu rest ih =>
      rw [List.flatMap_cons, List.flatMap_cons, List.map_append]
      exact (List.sublist_cons_self _ _).append ih

/-- No title, label or key of the bar breaks its line. -/
structure Unbroken (bar : MenuBar) : Prop where
  titles : ∀ menu ∈ bar.menus, breaks menu.title = 0
  labels : ∀ item ∈ bar.items, breaks item.label = 0
  keys : ∀ item ∈ bar.items, item.key ≠ some '\n'

theorem Unbroken.breaks_lines (h : bar.Unbroken) : ∀ line ∈ bar.lines, breaks line = 0 := by
  intro line member
  obtain ⟨menu, inBar, member⟩ := List.mem_flatMap.mp member
  rcases List.mem_cons.mp member with rfl | ofItem
  · exact h.titles menu inBar
  · obtain ⟨item, inMenu, rfl⟩ := List.mem_map.mp ofItem
    have inItems : item ∈ bar.items := List.mem_flatMap.mpr ⟨menu, inBar, inMenu⟩
    exact MenuItem.breaks_line (h.labels item inItems) (h.keys item inItems)

/-- The line begins as those of the items do. -/
def IsIndented (line : List Char) : Prop :=
  [' ', ' '] <+: line

instance : DecidablePred IsIndented := fun _ => inferInstanceAs (Decidable (_ <+: _))

theorem isIndented_line (item : MenuItem) : IsIndented item.line.toList := by
  obtain ⟨width, _, shape⟩ := item.exists_line_eq
  rw [shape]
  exact List.prefix_append _ _

/-- The indented lines of a menu are those of its items, and the other one is its title. -/
theorem filter_lines {menu : Menu} (title : ¬ IsIndented menu.title.toList) :
    (menu.lines.map String.toList).filter (fun line => decide (IsIndented line)) =
        menu.items.map (fun item => item.line.toList) ∧
      (menu.lines.map String.toList).filter (fun line => !decide (IsIndented line)) = [menu.title.toList] := by
  have rows : ∀ line ∈ menu.items.map fun item => item.line.toList, decide (IsIndented line) = true := by
    rw [List.forall_mem_map]
    exact fun item _ => decide_eq_true (isIndented_line item)
  rw [Menu.lines, List.map_cons, List.map_map]
  constructor
  · rw [List.filter_cons_of_neg (by simpa using title)]
    exact List.filter_eq_self.mpr rows
  · rw [List.filter_cons_of_pos (by simpa using title), List.cons.injEq, List.filter_eq_nil_iff]
    exact ⟨rfl, fun line member => by simpa using rows line member⟩

/-- What a reader sees of a listing, if no title begins like an item: the lines that are indented are those of the items,
in the order of the bar, and the others are the titles and the empty rest. -/
theorem linesOf_listing (h : bar.Unbroken) (titles : ∀ menu ∈ bar.menus, ¬ IsIndented menu.title.toList) :
    (linesOf bar.listing).filter (fun line => decide (IsIndented line)) =
        bar.items.map (fun item => item.line.toList) ∧
      (linesOf bar.listing).filter (fun line => !decide (IsIndented line)) =
        bar.menus.map (fun menu => menu.title.toList) ++ [[]] := by
  rw [listing, linesOf_joinLines h.breaks_lines, List.filter_append, List.filter_append, lines, items,
    List.map_flatMap, List.filter_flatMap, List.filter_flatMap, List.map_flatMap]
  constructor
  · rw [List.filter_cons_of_neg (by decide), List.filter_nil, List.append_nil]
    exact List.flatMap_congr fun menu inBar => (filter_lines (titles menu inBar)).1
  · rw [List.filter_cons_of_pos (by decide), List.filter_nil, List.map_eq_flatMap]
    congr 1
    exact List.flatMap_congr fun menu inBar => (filter_lines (titles menu inBar)).2

/-- The bar of the client is such a bar. -/
example : (linesOf standard.listing).filter (fun line => decide (IsIndented line)) =
    standard.items.map fun item => item.line.toList :=
  (linesOf_listing ⟨by decide, by decide, by decide⟩ (by decide)).1

end MenuBar

end GameClient
