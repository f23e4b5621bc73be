import GameClient.Text.Basic
/-!
The menu bar. A bar holds menus, a menu holds items, and an item has a label, perhaps a key, and an action. The
console lists the bar, and finds an item by what the user typed.
-/

namespace GameClient

open Text

/-- What a menu item does. -/
inductive MenuAction where
  | reload
  | openExternal
  | zoomIn
  | zoomOut
  | resetZoom
deriving Repr, DecidableEq

/-- One entry of a menu. The key is pressed together with Ctrl and is kept as it was given. -/
structure MenuItem where
  label : String
  key : Option Char
  action : MenuAction
deriving Repr, DecidableEq

/-- A titled list of items. -/
structure Menu where
  title : String
  items : List MenuItem
deriving Repr, DecidableEq

/-- A list of menus. -/
structure MenuBar where
  menus : List Menu
deriving Repr, DecidableEq

namespace MenuBar

/-- The items of all menus, menu by menu. -/
def items (bar : MenuBar) : List MenuItem :=
  bar.menus.flatMap Menu.items

/-- The bar of the client. -/
def standard : MenuBar where
  menus :=
    [⟨"Game",
      [⟨"Reload", some 'r', .reload⟩,
       ⟨"Open in Browser", none, .openExternal⟩]⟩,
     ⟨"View",
      [⟨"Zoom In", some '=', .zoomIn⟩,
       ⟨"Zoom Out", some '-', .zoomOut⟩,
       ⟨"Reset Zoom", some '0', .resetZoom⟩]⟩]

end MenuBar

/-! ### The listing

The title of each menu, then its items, indented, with their keys in a column.
-/

/-- The name of a key: an ASCII letter is shown as a capital. -/
def keyName (key : Char) : String :=
  "Ctrl+" ++ String.singleton key.toUpper

/-- How many characters a label takes before the key. -/
def labelWidth : Nat := 18

/-- The line of an item. Only a label before a key is padded. -/
def MenuItem.line (item : MenuItem) : String :=
  match item.key with
  | some key => "  " ++ padRight labelWidth item.label ++ " " ++ keyName key
  | none => "  " ++ item.label

/-- The lines of a menu. -/
def Menu.lines (menu : Menu) : List String :=
  menu.title :: menu.items.map MenuItem.line

/-- The lines of the bar. -/
def MenuBar.lines (bar : MenuBar) : List String :=
  bar.menus.flatMap Menu.lines

/-- The listing of the bar. -/
def MenuBar.listing (bar : MenuBar) : String :=
  joinLines bar.lines

/-! ### Finding an item

An item is found by its label, up to ASCII case, or by its key alone.
-/

/-- The key that a text names: its only character, made small if it is an ASCII capital. -/
def typedKey : List Char → Option Char
  | [c] => some c.toLower
  | _ => none

/-- The item answers to a text without white space around it. A key answers only if it is stored in
the form that `typedKey` gives. -/
def MenuItem.answersTo (item : MenuItem) (typed : List Char) : Bool :=
  equalFold item.label.toList typed || ((typedKey typed).isSome && item.key == typedKey typed)

/-- The first item that answers to the text, white space around it aside. -/
def MenuBar.find? (bar : MenuBar) (typed : List Char) : Option MenuItem :=
  bar.items.find? fun item => item.answersTo (trim typed)

/-- The place of that item among all items of the bar, counted from zero. -/
def MenuBar.findIdx? (bar : MenuBar) (typed : List Char) : Option Nat :=
  bar.items.findIdx? fun item => item.answersTo (trim typed)

end GameClient
