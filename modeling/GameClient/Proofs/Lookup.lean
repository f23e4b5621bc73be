import GameClient.Menu
import GameClient.Proofs.Case
/-!
Typing the key that the menu shows. The listing shows a key as a capital, and a typed key is made small
before the stored keys are compared with it. So the key that is shown finds the first item that it names, by
its label or by its key, as long as the key of that item is not stored as a capital.
-/

namespace GameClient

open Text

/-! ### The first entry with a property -/

/-- The first entry of a list with a property, and its place: no entry in front of it has the property. -/
inductive FirstAt {α : Type} (property : α → Prop) : List α → Nat → α → Prop where
  | here {first : α} {rest : List α} :
      property first → FirstAt property (first :: rest) 0 first
  | later {other first : α} {rest : List α} {place : Nat} :
      ¬ property other → FirstAt property rest place first →
        FirstAt property (other :: rest) (place + 1) first

section

variable {α : Type} {property : α → Prop} {list : List α} {first : α} {place : Nat}

theorem FirstAt.holds (h : FirstAt property list place first) : property first := by
  induction h with
  | here own => exact own
  | later _ _ ih => exact ih

/-- A list has no more than one first entry with a property. -/
theorem FirstAt.deterministic {second : α} {elsewhere : Nat} (h : FirstAt property list place first)
    (again : FirstAt property list elsewhere second) : place = elsewhere ∧ first = second := by
  induction h generalizing elsewhere with
  | here own =>
      cases again with
      | here _ => exact ⟨rfl, rfl⟩
      | later misses _ => exact absurd own misses
  | later misses _ ih =>
      cases again with
      | here own => exact absurd own misses
      | later _ found =>
          obtain ⟨rfl, rfl⟩ := ih found
          exact ⟨rfl, rfl⟩

theorem exists_firstAt {entry : α} (member : entry ∈ list) (own : property entry) :
    ∃ place first, FirstAt property list place first := by
  induction list with
  | nil => cases member
  | cons other rest ih =>
      by_cases already : property other
      · exact ⟨0, other, .here already⟩
      · have behind : entry ∈ rest := by
          rcases List.mem_cons.mp member with rfl | behind
          · exact absurd own already
          · exact behind
        obtain ⟨place, first, found⟩ := ih behind
        exact ⟨place + 1, first, .later already found⟩

/-- A search by a test that no entry without the property passes ends at the first entry with the property
exactly if that one passes. -/
theorem FirstAt.find?_eq_some_iff {test : α → Bool}
    (sound : ∀ entry, test entry = true → property entry) (h : FirstAt property list place first) :
    list.find? test = some first ↔ test first = true := by
  constructor
  · exact List.find?_some
  · intro passes
    induction h with
    | here _ => exact List.find?_cons_of_pos passes
    | @later other _ _ _ misses _ ih =>
        have fails : ¬ test other = true := fun passes => misses (sound other passes)
        rw [List.find?_cons_of_neg fails]
        exact ih passes

theorem FirstAt.findIdx?_eq_some_iff {test : α → Bool}
    (sound : ∀ entry, test entry = true → property entry) (h : FirstAt property list place first) :
    list.findIdx? test = some place ↔ test first = true := by
  induction h with
  | here _ => simp [List.findIdx?_cons]
  | @later other _ _ _ misses _ ih =>
      have fails : ¬ test other = true := fun passes => misses (sound other passes)
      rw [List.findIdx?_cons, if_neg fails, ← ih]
      simp

end

/-! ### A character with white space around it -/

/-- The text is the character, in either case, with white space around it. -/
def Spells (typed : List Char) (shown : Char) : Prop :=
  ∃ before c after, typed = before ++ c :: after ∧ c.toLower = shown.toLower ∧
    (∀ d ∈ before, isBlank d = true) ∧ ∀ d ∈ after, isBlank d = true

/-- Only the character is left of a text that spells it. -/
theorem Spells.trim_eq {typed : List Char} {shown : Char} (h : Spells typed shown)
    (visible : isBlank shown = false) : ∃ c, trim typed = [c] ∧ c.toLower = shown.toLower := by
  obtain ⟨before, c, after, rfl, same, blankBefore, blankAfter⟩ := h
  have inside : isBlank c = false := by rw [isBlank_eq_of_toLower_eq same, visible]
  refine ⟨c, ?_, same⟩
  calc trim (before ++ c :: after)
    _ = trim ([c] ++ after) := trim_blank_append blankBefore _
    _ = trim [c] := trim_append_blank blankAfter _
    _ = [c] := trim_eq_self (List.forall_mem_singleton.mpr inside)

/-! ### Items by a character -/

namespace MenuItem

variable {item : MenuItem} {c d : Char}

/-- The label or the key of the item is the character, up to case. -/
def IsCalled (c : Char) (item : MenuItem) : Prop :=
  fold item.label.toList = fold [c] ∨ item.key.map Char.toLower = some c.toLower

instance : Decidable (item.IsCalled c) :=
  inferInstanceAs (Decidable (_ ∨ _))

/-- The key of the item, if it has one, is not an ASCII capital. -/
def HasSmallKey (item : MenuItem) : Prop :=
  ∀ key ∈ item.key, key.isUpper = false

theorem answersTo_singleton :
    item.answersTo [c] = true ↔ fold item.label.toList = fold [c] ∨ item.key = some c.toLower := by
  simp [answersTo, equalFold, typedKey]

theorem isCalled_of_answersTo (h : item.answersTo [c] = true) : item.IsCalled c := by
  rcases answersTo_singleton.mp h with label | key
  · exact Or.inl label
  · right
    rw [key, Option.map_some, toLower_eq_iff.mpr (sameLetter_toLower c)]

theorem isCalled_of_toLower_eq (same : c.toLower = d.toLower) (h : item.IsCalled c) :
    item.IsCalled d := by
  rcases h with label | key
  · left
    rw [label]
    simp [fold, same]
  · right
    rw [key, same]

/-- An item with a name answers to it, unless its key alone is the name and is a capital. -/
theorem IsCalled.answersTo_iff (h : item.IsCalled c) :
    item.answersTo [c] = true ↔ fold item.label.toList = fold [c] ∨ item.HasSmallKey := by
  rw [answersTo_singleton]
  constructor
  · rintro (label | key)
    · exact Or.inl label
    · right
      intro own has
      rw [key, Option.mem_some] at has
      rw [← has]
      exact isUpper_toLower c
  · rintro (label | small)
    · exact Or.inl label
    · rcases h with label | named
      · exact Or.inl label
      · right
        obtain ⟨key, has, equal⟩ := Option.map_eq_some_iff.mp named
        have kept : key.toLower = key := toLower_eq_self_iff.mpr (small key has)
        rw [has, ← equal, kept]

end MenuItem

/-! ### The key that is shown -/

namespace MenuBar

variable {bar : MenuBar} {typed : List Char} {shown : Char}

/-- A text that spells a character finds the first item that the character names exactly if that item
answers to it. -/
theorem find?_eq_some_iff_of_spells {place : Nat} {first : MenuItem} (spells : Spells typed shown)
    (visible : isBlank shown = false)
    (h : FirstAt (MenuItem.IsCalled shown) bar.items place first) :
    (bar.find? typed = some first ↔ fold first.label.toList = fold [shown] ∨ first.HasSmallKey) ∧
    (bar.findIdx? typed = some place ↔
      fold first.label.toList = fold [shown] ∨ first.HasSmallKey) := by
  obtain ⟨c, trimmed, same⟩ := spells.trim_eq visible
  have sound : ∀ item : MenuItem, item.answersTo [c] = true → item.IsCalled shown := by
    intro item answers
    exact MenuItem.isCalled_of_toLower_eq same (MenuItem.isCalled_of_answersTo answers)
  have called : first.IsCalled c := MenuItem.isCalled_of_toLower_eq same.symm h.holds
  have folded : fold [c] = fold [shown] := by simp [fold, same]
  have answers := called.answersTo_iff
  rw [folded] at answers
  rw [find?, findIdx?, trimmed]
  exact ⟨(h.find?_eq_some_iff sound).trans answers, (h.findIdx?_eq_some_iff sound).trans answers⟩

/-- The key that the menu shows for an item names a first item of the bar, by its label or by its key. Typed
in either case and with white space around it, the key finds that item, unless the item has the key stored
as a capital and no such label. -/
theorem find?_shown_key {item : MenuItem} {key : Char} (member : item ∈ bar.items)
    (has : item.key = some key) (visible : isBlank key = false) :
    ∃ shown place first, keyName key = "Ctrl+" ++ String.singleton shown ∧
      FirstAt (MenuItem.IsCalled shown) bar.items place first ∧
      ∀ typed, Spells typed shown →
        (bar.find? typed = some first ↔
          fold first.label.toList = fold [shown] ∨ first.HasSmallKey) ∧
        (bar.findIdx? typed = some place ↔
          fold first.label.toList = fold [shown] ∨ first.HasSmallKey) := by
  have same : key.toLower = key.toUpper.toLower := (toLower_eq_iff.mpr (sameLetter_toUpper key)).symm
  have shownVisible : isBlank key.toUpper = false := by
    rw [← isBlank_eq_of_toLower_eq same, visible]
  have called : item.IsCalled key.toUpper := Or.inr (by rw [has, Option.map_some, same])
  obtain ⟨place, first, found⟩ := exists_firstAt member called
  refine ⟨key.toUpper, place, first, rfl, found, ?_⟩
  intro typed spells
  exact find?_eq_some_iff_of_spells spells shownVisible found

/-- An item with a label of one character is found by the key of a later one, which is a capital and would
not be found itself. -/
theorem find?_shown_key_of_label :
    ∃ bar : MenuBar, ⟨"Reload", some 'R', .reload⟩ ∈ bar.items ∧ keyName 'R' = "Ctrl+R" ∧
      bar.find? [' ', 'R'] = some ⟨"r", none, .zoomIn⟩ ∧ bar.findIdx? [' ', 'R'] = some 1 := by
  let capital : MenuItem := ⟨"Reload", some 'R', .reload⟩
  let labelled : MenuItem := ⟨"r", none, .zoomIn⟩
  let bar : MenuBar :=
    ⟨[⟨"View", [⟨"Zoom Out", some '-', .zoomOut⟩, labelled]⟩, ⟨"Game", [capital]⟩]⟩
  have member : capital ∈ bar.items := by decide
  obtain ⟨shown, place, first, displayed, found, finds⟩ := find?_shown_key member rfl (by decide)
  obtain rfl : 'R' = shown := String.singleton_inj.mp ((String.append_right_inj _).mp displayed)
  have firstOfBar : FirstAt (MenuItem.IsCalled 'R') bar.items 1 labelled :=
    .later (by decide) (.here (by decide))
  obtain ⟨rfl, rfl⟩ := found.deterministic firstOfBar
  have spells : Spells [' ', 'R'] 'R' :=
    ⟨[' '], 'R', [], rfl, rfl, List.forall_mem_singleton.mpr (by decide), List.forall_mem_nil _⟩
  obtain ⟨item, index⟩ := finds [' ', 'R'] spells
  exact ⟨bar, member, displayed, item.mpr (Or.inl (by decide)), index.mpr (Or.inl (by decide))⟩

/-- The menu shows the same key for `R` and for `r`, but an item with the first of them is not found by it,
however it is typed. -/
theorem find?_capital_key :
    ∃ bar : MenuBar, ∃ item ∈ bar.items, item.key = some 'R' ∧ isBlank 'R' = false ∧
      keyName 'R' = "Ctrl+R" ∧ FirstAt (MenuItem.IsCalled 'R') bar.items 0 item ∧
      bar.find? ['R'] = none ∧ bar.find? ['r'] = none ∧ bar.findIdx? [' ', 'r', ' '] = none := by
  let item : MenuItem := ⟨"Reload", some 'R', .reload⟩
  have firstOfBar : FirstAt (MenuItem.IsCalled 'R') [item] 0 item := .here (by decide)
  exact ⟨⟨[⟨"Game", [item]⟩]⟩, item, by decide, rfl, by decide, by decide, firstOfBar, by decide,
    by decide, by decide⟩

end MenuBar

end GameClient
