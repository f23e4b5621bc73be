import GameClient.Proofs.Lookup
/-!
Which item a command selects. An item fits a command by its label, up to the case of the ASCII letters, or by its
key; the first item that fits is found, menu by menu. White space around what was typed and the case of its ASCII
letters make no difference, and neither does what stands in the bar behind the item.
-/

namespace GameClient

namespace Text

/-! ### What is left of a text without white space around it -/

/-- The command is what stands between the white space at the two ends of a text. -/
structure IsCore (text command : List Char) : Prop where
  around : ∃ before after, text = before ++ command ++ after ∧
    (∀ c ∈ before, isBlank c = true) ∧ ∀ c ∈ after, isBlank c = true
  first : ∀ c ∈ command.head?, isBlank c = false
  last : ∀ c ∈ command.getLast?, isBlank c = false

theorem isCore_trim (text : List Char) : IsCore text (trim text) where
  around := by
    refine ⟨text.takeWhile isBlank, (text.dropWhile isBlank).rtakeWhile isBlank, ?_, ?_, ?_⟩
    · rw [trim_eq, List.append_assoc, List.rdropWhile_append_rtakeWhile,
        List.takeWhile_append_dropWhile]
    · intro c member
      exact List.mem_takeWhile_imp member
    · intro c member
      exact List.mem_rtakeWhile_imp member
  first := by
    intro c first
    have unfit := List.head?_dropWhile_not isBlank text
    -- What is left begins as the text does behind the white space in front of it.
    obtain ⟨rest, left⟩ := List.rdropWhile_prefix isBlank (text.dropWhile isBlank)
    rw [← trim_eq] at left
    obtain ⟨more, trimmed⟩ := List.head?_eq_some_iff.mp first
    rw [← left, trimmed] at unfit
    exact unfit
  last := isBlank_of_getLast?_trim text

theorem isCore_iff {text command : List Char} : IsCore text command ↔ trim text = command := by
  constructor
  · rintro ⟨⟨before, after, rfl, blankBefore, blankAfter⟩, first, last⟩
    rw [trim_append_blank blankAfter, trim_blank_append blankBefore]
    exact trim_eq_self_of_ends first last
  · rintro rfl
    exact isCore_trim text

end Text

open Text

/-! ### Items that fit -/

namespace MenuItem

/-- The item fits the command: the command is its label, up to case, or a single character whose small form is
the key of the item. -/
inductive Fits (command : List Char) (item : MenuItem) : Prop where
  | label (same : SameText item.label.toList command)
  | key {c : Char} (single : command = [c]) (has : item.key = some c.toLower)

/-- The item fits what was typed, white space around it aside. -/
def Matches (typed : List Char) (item : MenuItem) : Prop :=
  ∃ command, IsCore typed command ∧ item.Fits command

theorem answersTo_iff_fits {item : MenuItem} {command : List Char} :
    item.answersTo command = true ↔ item.Fits command := by
  unfold answersTo equalFold
  rw [Bool.or_eq_true, beq_iff_eq, fold_eq_iff]
  constructor
  · rintro (same | key)
    · exact .label same
    · match command with
      | [c] => exact .key rfl (by simpa [typedKey] using key)
      | [] => simp [typedKey] at key
      | _ :: _ :: _ => simp [typedKey] at key
  · rintro (same | ⟨rfl, has⟩)
    · exact Or.inl same
    · right
      simp [typedKey, has]

theorem answersTo_trim_iff_matches {item : MenuItem} {typed : List Char} :
    item.answersTo (trim typed) = true ↔ item.Matches typed := by
  simp only [Matches, isCore_iff, exists_eq_left', answersTo_iff_fits]

end MenuItem

theorem typedKey_congr {one two : List Char} (same : fold one = fold two) :
    typedKey one = typedKey two := by
  have letters := fold_eq_iff.mp same
  match one, two with
  | [], [] => rfl
  | [c], [d] =>
      have small : c.toLower = d.toLower := by simpa [fold] using same
      rw [typedKey, typedKey, small]
  | _ :: _ :: _, _ :: _ :: _ => rfl
  | [], _ :: _ | _ :: _, [] => simp [fold] at same
  | [_], _ :: _ :: _ | _ :: _ :: _, [_] => simp [fold] at same

theorem MenuItem.answersTo_congr {one two : List Char} (same : fold one = fold two)
    (item : MenuItem) : item.answersTo one = item.answersTo two := by
  unfold MenuItem.answersTo equalFold
  rw [same, typedKey_congr same]

/-! ### The place of an item in a bar -/

/-- An item and all that stands around it in a bar. -/
structure Spot where
  menusBefore : List Menu
  title : String
  itemsBefore : List MenuItem
  item : MenuItem
  itemsAfter : List MenuItem
  menusAfter : List Menu

namespace Spot

variable (spot : Spot)

/-- The menu of the item. -/
def menu : Menu :=
  ⟨spot.title, spot.itemsBefore ++ spot.item :: spot.itemsAfter⟩

/-- The bar of the item. -/
def bar : MenuBar :=
  ⟨spot.menusBefore ++ spot.menu :: spot.menusAfter⟩

/-- The items in front of the item: those of the menus in front of its own, and those in front of it there. -/
def ahead : List MenuItem :=
  spot.menusBefore.flatMap Menu.items ++ spot.itemsBefore

/-- The items behind it. -/
def behind : List MenuItem :=
  spot.itemsAfter ++ spot.menusAfter.flatMap Menu.items

/-- The same place with other items behind it in its menu and other menus behind that. -/
def withBehind (items : List MenuItem) (menus : List Menu) : Spot :=
  { spot with itemsAfter := items, menusAfter := menus }

/-- The item matches what was typed, and none in front of it does. -/
structure IsFirst (typed : List Char) : Prop where
  matches_item : spot.item.Matches typed
  no_earlier : ∀ other ∈ spot.ahead, ¬ other.Matches typed

theorem items_bar : spot.bar.items = spot.ahead ++ spot.item :: spot.behind := by
  simp [MenuBar.items, bar, menu, ahead, behind]

end Spot

/-- Every item of a bar has its place there. -/
theorem exists_spot {menus : List Menu} {item : MenuItem} {ahead behind : List MenuItem}
    (split : menus.flatMap Menu.items = ahead ++ item :: behind) :
    ∃ spot : Spot, spot.bar = ⟨menus⟩ ∧ spot.item = item ∧ spot.ahead = ahead := by
  induction menus generalizing ahead with
  | nil => simp at split
  | cons menu rest ih =>
      rw [List.flatMap_cons, List.append_eq_append_iff] at split
      -- The item is in the rest of the bar, or in the first menu, or it begins the rest.
      have inRest : ∀ front, ahead = menu.items ++ front → rest.flatMap Menu.items = front ++ item :: behind →
          ∃ spot : Spot, spot.bar = ⟨menu :: rest⟩ ∧ spot.item = item ∧ spot.ahead = ahead := by
        rintro front rfl later
        obtain ⟨spot, isBar, rfl, rfl⟩ := ih later
        refine ⟨{ spot with menusBefore := menu :: spot.menusBefore }, ?_, rfl, ?_⟩
        · rw [← (MenuBar.mk.injEq _ _).mp isBar]
          rfl
        · simp [Spot.ahead]
      rcases split with ⟨front, isAhead, later⟩ | ⟨tail, inside, later⟩
      · exact inRest front isAhead later
      · cases tail with
        | nil => exact inRest [] (by simpa using inside.symm) later.symm
        | cons first others =>
            obtain ⟨rfl, rfl⟩ := List.cons.inj later
            exact ⟨⟨[], menu.title, ahead, item, others, rest⟩, by rw [Spot.bar, Spot.menu, ← inside]; rfl,
              rfl, rfl⟩

namespace MenuBar

variable {bar : MenuBar} {typed other : List Char}

/-- What is behind the first item that matches makes no difference. -/
theorem find?_bar_of_isFirst {spot : Spot} (first : spot.IsFirst typed) :
    spot.bar.find? typed = some spot.item ∧ spot.bar.findIdx? typed = some spot.ahead.length := by
  have found : spot.item.answersTo (trim typed) = true :=
    MenuItem.answersTo_trim_iff_matches.mpr first.matches_item
  have passed : ∀ item ∈ spot.ahead, ¬ item.answersTo (trim typed) = true := by
    intro item member answers
    exact first.no_earlier item member (MenuItem.answersTo_trim_iff_matches.mp answers)
  constructor
  · rw [find?, spot.items_bar, List.find?_append, List.find?_eq_none.mpr passed, Option.none_or]
    exact List.find?_cons_of_pos found
  · have missing : spot.ahead.findIdx? (fun item => item.answersTo (trim typed)) = none :=
      List.findIdx?_eq_none_iff.mpr fun item member => Bool.eq_false_iff.mpr (passed item member)
    rw [findIdx?, spot.items_bar, List.findIdx?_append, missing, Option.none_or, List.findIdx?_cons,
      if_pos found, Option.map_some, Nat.zero_add]

theorem find?_eq_some_iff {item : MenuItem} :
    bar.find? typed = some item ↔
      ∃ spot : Spot, spot.bar = bar ∧ spot.item = item ∧ spot.IsFirst typed := by
  constructor
  · intro found
    obtain ⟨answers, ahead, behind, split, passed⟩ := List.find?_eq_some_iff_append.mp found
    obtain ⟨spot, isBar, rfl, rfl⟩ := exists_spot split
    refine ⟨spot, isBar, rfl, MenuItem.answersTo_trim_iff_matches.mp answers, ?_⟩
    intro other member fits
    have refused := passed other member
    rw [MenuItem.answersTo_trim_iff_matches.mpr fits] at refused
    exact Bool.noConfusion refused
  · rintro ⟨spot, rfl, rfl, first⟩
    exact (find?_bar_of_isFirst first).1

theorem find?_eq_none_iff :
    bar.find? typed = none ↔ ∀ menu ∈ bar.menus, ∀ item ∈ menu.items, ¬ item.Matches typed := by
  simp only [find?, List.find?_eq_none, items, List.mem_flatMap, MenuItem.answersTo_trim_iff_matches]
  constructor
  · intro missing menu inBar item inMenu
    exact missing item ⟨menu, inBar, inMenu⟩
  · rintro missing item ⟨menu, inBar, inMenu⟩
    exact missing menu inBar item inMenu

theorem findIdx?_eq_some_iff {place : Nat} :
    bar.findIdx? typed = some place ↔
      ∃ spot : Spot, spot.bar = bar ∧ spot.ahead.length = place ∧ spot.IsFirst typed := by
  constructor
  · intro found
    cases searched : bar.find? typed with
    | none =>
        have missing : bar.findIdx? typed = none :=
          List.findIdx?_eq_none_iff.mpr fun item member =>
            Bool.eq_false_iff.mpr (List.find?_eq_none.mp searched item member)
        rw [missing] at found
        exact nomatch found
    | some item =>
        obtain ⟨spot, rfl, _, first⟩ := find?_eq_some_iff.mp searched
        rw [(find?_bar_of_isFirst first).2, Option.some_inj] at found
        exact ⟨spot, rfl, found, first⟩
  · rintro ⟨spot, rfl, rfl, first⟩
    exact (find?_bar_of_isFirst first).2

/-- The search depends on what was typed only by the letters of the command in it. -/
theorem find?_congr (same : fold (trim typed) = fold (trim other)) :
    bar.find? typed = bar.find? other ∧ bar.findIdx? typed = bar.findIdx? other := by
  have answers : (fun item : MenuItem => item.answersTo (trim typed)) =
      fun item => item.answersTo (trim other) := funext (MenuItem.answersTo_congr same)
  exact ⟨by rw [find?, find?, answers], by rw [findIdx?, findIdx?, answers]⟩

/-- The item that is found is the first one that matches, menu by menu, and its place is the number of items in
front of it; nothing is found exactly if no item matches. White space around what was typed, the case of its
letters and all that stands behind the item make no difference. -/
theorem find?_first_match (bar : MenuBar) (typed : List Char) :
    (∀ item, bar.find? typed = some item ↔
      ∃ spot : Spot, spot.bar = bar ∧ spot.item = item ∧ spot.IsFirst typed) ∧
    (∀ place, bar.findIdx? typed = some place ↔
      ∃ spot : Spot, spot.bar = bar ∧ spot.ahead.length = place ∧ spot.IsFirst typed) ∧
    (bar.find? typed = none ↔ ∀ menu ∈ bar.menus, ∀ item ∈ menu.items, ¬ item.Matches typed) ∧
    (∀ before after, (∀ c ∈ before, isBlank c = true) → (∀ c ∈ after, isBlank c = true) →
      bar.find? (before ++ typed ++ after) = bar.find? typed ∧
        bar.findIdx? (before ++ typed ++ after) = bar.findIdx? typed) ∧
    (∀ other, SameText typed other →
      bar.find? other = bar.find? typed ∧ bar.findIdx? other = bar.findIdx? typed) ∧
    ∀ spot : Spot, spot.bar = bar → spot.IsFirst typed → ∀ items menus,
      (spot.withBehind items menus).bar.find? typed = bar.find? typed ∧
        (spot.withBehind items menus).bar.findIdx? typed = bar.findIdx? typed := by
  refine ⟨fun item => find?_eq_some_iff, fun place => findIdx?_eq_some_iff, find?_eq_none_iff,
    ?white, ?letters, ?behind⟩
  case white =>
    intro before after blankBefore blankAfter
    apply find?_congr
    rw [trim_append_blank blankAfter, trim_blank_append blankBefore]
  case letters =>
    intro other same
    exact find?_congr (fold_trim_congr same).symm
  case behind =>
    rintro spot rfl first items menus
    -- Nothing in front of the item has changed, and neither has the item.
    have still : (spot.withBehind items menus).IsFirst typed := ⟨first.matches_item, first.no_earlier⟩
    obtain ⟨item, place⟩ := find?_bar_of_isFirst first
    obtain ⟨item', place'⟩ := find?_bar_of_isFirst still
    exact ⟨item'.trans item.symm, place'.trans place.symm⟩

/-- The key of an item goes before the label of the item behind it, and it does so still with an equal item
added at the end of the bar. -/
theorem find?_first_match_of_key :
    ∃ spot : Spot, spot.IsFirst ['\u2003', 'R', ' '] ∧ spot.item = ⟨"Reload", some 'r', .reload⟩ ∧
      spot.bar.find? ['\u2003', 'R', ' '] = some spot.item ∧
      spot.bar.findIdx? ['\u2003', 'r', ' '] = some 1 ∧
      (spot.withBehind [⟨"R", none, .zoomIn⟩] [⟨"", [spot.item]⟩]).bar.findIdx? ['\u2003', 'R', ' '] =
        some 1 := by
  let spot : Spot :=
    { menusBefore := [⟨"Game", [⟨"", some '-', .zoomOut⟩]⟩, ⟨"", []⟩]
      title := "View"
      itemsBefore := []
      item := ⟨"Reload", some 'r', .reload⟩
      itemsAfter := [⟨"R", none, .zoomIn⟩]
      menusAfter := [] }
  have first : spot.IsFirst ['\u2003', 'R', ' '] := by
    refine ⟨MenuItem.answersTo_trim_iff_matches.mp (by decide), ?_⟩
    intro other member
    rw [← MenuItem.answersTo_trim_iff_matches]
    obtain rfl : other = ⟨"", some '-', .zoomOut⟩ := by simpa [spot, Spot.ahead] using member
    decide
  obtain ⟨item, place, _, _, letters, behind⟩ := find?_first_match spot.bar ['\u2003', 'R', ' ']
  have found := (place 1).mpr ⟨spot, rfl, rfl, first⟩
  have small : SameText ['\u2003', 'R', ' '] ['\u2003', 'r', ' '] := fold_eq_iff.mp (by decide)
  refine ⟨spot, first, rfl, (item _).mpr ⟨spot, rfl, rfl, first⟩, ?_, ?_⟩
  · rw [(letters _ small).2, found]
  · rw [(behind spot rfl first _ _).2, found]

end MenuBar

end GameClient
