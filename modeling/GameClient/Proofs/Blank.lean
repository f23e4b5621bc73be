import GameClient.Text.Basic
import Mathlib.Data.List.DropRight
import Mathlib.Data.List.TakeWhile
/-!
White space at the ends of a text. What `trim` leaves has none there, white space put around a text makes
no difference to it, and a text with none at its ends stays as it is.
-/

namespace GameClient.Text

/-- Nothing is left of a text exactly if it is blank. -/
theorem trim_eq_nil_iff {text : List Char} : trim text = [] ↔ ∀ c ∈ text, isBlank c = true := by
  constructor
  · intro empty
    have backwards : (trimStart text).reverse.dropWhile isBlank = [] := by
      simpa [trim, trimEnd] using empty
    have inner : ∀ c ∈ trimStart text, isBlank c = true := by
      simpa [List.dropWhile_eq_nil_iff] using backwards
    have first := List.head?_dropWhile_not isBlank text
    apply List.dropWhile_eq_nil_iff.mp
    cases left : text.dropWhile isBlank with
    | nil => rfl
    | cons c rest =>
        have blank : isBlank c = true := inner c (by simp [trimStart, left])
        simp [left, blank] at first
  · intro blank
    have start : trimStart text = [] := List.dropWhile_eq_nil_iff.mpr blank
    rw [trim, start]
    rfl

/-- Blank characters in front of a text do not count. -/
theorem trim_blank_append {before : List Char} (blank : ∀ c ∈ before, isBlank c = true)
    (text : List Char) : trim (before ++ text) = trim text := by
  unfold trim trimStart
  rw [List.dropWhile_append_of_pos blank]

/-- Blank characters at the end of a text do not count. -/
theorem trim_append_blank {after : List Char} (blank : ∀ c ∈ after, isBlank c = true)
    (text : List Char) : trim (text ++ after) = trim text := by
  unfold trim trimStart trimEnd
  rw [List.dropWhile_append]
  split
  · next empty =>
      have gone : text.dropWhile isBlank = [] := List.isEmpty_iff.mp empty
      rw [gone, List.dropWhile_eq_nil_iff.mpr blank]
  · rw [List.reverse_append, List.dropWhile_append_of_pos]
    intro c member
    exact blank c (List.mem_reverse.mp member)

/-- A text with no white space at its ends is left as it is. -/
theorem trim_eq_self_of_ends {text : List Char} (first : ∀ c ∈ text.head?, isBlank c = false)
    (last : ∀ c ∈ text.getLast?, isBlank c = false) : trim text = text := by
  have start : trimStart text = text := by
    cases text with
    | nil => rfl
    | cons c rest => exact List.dropWhile_cons_of_neg (by simp [first c rfl])
  rw [trim, start]
  apply List.rdropWhile_eq_self_iff.mpr
  intro nonempty
  simp [last _ (List.getLast?_eq_some_getLast nonempty)]

/-- A text without white space has none at its ends. -/
theorem trim_eq_self {text : List Char} (h : ∀ c ∈ text, isBlank c = false) : trim text = text :=
  trim_eq_self_of_ends (fun c first => h c (List.mem_of_mem_head? first))
    (fun c last => h c (List.mem_of_getLast? last))

theorem trim_eq (text : List Char) : trim text = (text.dropWhile isBlank).rdropWhile isBlank :=
  rfl

theorem isBlank_of_getLast?_trim (text : List Char) :
    ∀ c ∈ (trim text).getLast?, isBlank c = false := by
  intro c last
  rw [trim_eq] at last
  have nonempty : (text.dropWhile isBlank).rdropWhile isBlank ≠ [] := by
    intro empty
    simp [empty] at last
  have unfit := List.rdropWhile_last_not isBlank _ nonempty
  rw [List.getLast?_eq_some_getLast nonempty, Option.mem_some] at last
  rw [← last]
  simpa using unfit

/-- Trimming leaves one piece of a text. -/
theorem isInfix_trim (text : List Char) : trim text <:+: text := by
  rw [trim_eq]
  exact (List.rdropWhile_prefix isBlank _).isInfix.trans (List.dropWhile_suffix isBlank).isInfix

end GameClient.Text
