import GameClient.Proofs.Blank
import GameClient.Proofs.Legal
import Mathlib.Data.List.Forall2
/-!
The case of the ASCII letters. A capital lies a fixed distance in front of its small letter and no other character
has a counterpart, so two texts fold to one text exactly if they are the same letter by letter. White space has no
case.
-/

namespace GameClient.Text

/-! ### Capitals and small letters -/

theorem isUpper_iff {c : Char} : c.isUpper = true ↔ 0x41 ≤ c.toNat ∧ c.toNat ≤ 0x5A := by
  have bounds : c.isUpper = decide (c.val ≥ 'A'.val ∧ c.val ≤ 'Z'.val) := rfl
  rw [bounds, decide_eq_true_iff]
  exact Iff.rfl

theorem toNat_toLower (c : Char) :
    c.toLower.toNat = if 0x41 ≤ c.toNat ∧ c.toNat ≤ 0x5A then c.toNat + 0x20 else c.toNat := by
  unfold Char.toLower
  by_cases capital : c.val ≥ 'A'.val ∧ c.val ≤ 'Z'.val
  · have codes : 0x41 ≤ c.toNat ∧ c.toNat ≤ 0x5A := capital
    have moved : (c.val + ('a'.val - 'A'.val)).toNat = (c.toNat + 0x20) % 2 ^ 32 := UInt32.toNat_add _ _
    rw [dif_pos capital, if_pos codes]
    exact moved.trans (Nat.mod_eq_of_lt (by omega))
  · have codes : ¬ (0x41 ≤ c.toNat ∧ c.toNat ≤ 0x5A) := capital
    rw [dif_neg capital, if_neg codes]

theorem toNat_toUpper (c : Char) :
    c.toUpper.toNat = if 0x61 ≤ c.toNat ∧ c.toNat ≤ 0x7A then c.toNat - 0x20 else c.toNat := by
  unfold Char.toUpper
  by_cases small : 'a'.val ≤ c.val ∧ c.val ≤ 'z'.val
  · have codes : 0x61 ≤ c.toNat ∧ c.toNat ≤ 0x7A := small
    -- The difference of the two letters wraps around.
    have moved : (c.val + ('A'.val - 'a'.val)).toNat = (c.toNat + (2 ^ 32 - 0x20)) % 2 ^ 32 :=
      UInt32.toNat_add _ _
    have back : c.toNat + (2 ^ 32 - 0x20) = c.toNat - 0x20 + 2 ^ 32 := by omega
    rw [back, Nat.add_mod_right] at moved
    rw [dif_pos small, if_pos codes]
    exact moved.trans (Nat.mod_eq_of_lt (by omega))
  · have codes : ¬ (0x61 ≤ c.toNat ∧ c.toNat ≤ 0x7A) := small
    rw [dif_neg small, if_neg codes]

/-- The first character is an ASCII capital, and the second one is the small letter of it. -/
def IsCapitalOf (c d : Char) : Prop :=
  0x41 ≤ c.toNat ∧ c.toNat ≤ 0x5A ∧ d.toNat = c.toNat + 0x20

/-- The characters are the same, but one may be the capital of the other. -/
def SameLetter (c d : Char) : Prop :=
  c = d ∨ IsCapitalOf c d ∨ IsCapitalOf d c

/-- The texts are the same, character by character, up to the case of the ASCII letters. -/
def SameText (one two : List Char) : Prop :=
  List.Forall₂ SameLetter one two

theorem toLower_eq_iff {c d : Char} : c.toLower = d.toLower ↔ SameLetter c d := by
  unfold SameLetter IsCapitalOf
  simp only [← Char.toNat_inj, toNat_toLower]
  split <;> split <;> omega

theorem sameLetter_toLower (c : Char) : SameLetter c.toLower c := by
  unfold SameLetter IsCapitalOf
  simp only [← Char.toNat_inj, toNat_toLower]
  split <;> omega

theorem sameLetter_toUpper (c : Char) : SameLetter c.toUpper c := by
  unfold SameLetter IsCapitalOf
  simp only [← Char.toNat_inj, toNat_toUpper]
  split <;> omega

/-- Only a capital is changed. -/
theorem toLower_eq_self_iff {c : Char} : c.toLower = c ↔ c.isUpper = false := by
  rw [← Char.toNat_inj, toNat_toLower, Bool.eq_false_iff, ne_eq, isUpper_iff]
  split <;> simp [*]

theorem isUpper_toLower (c : Char) : c.toLower.isUpper = false :=
  toLower_eq_self_iff.mp (toLower_eq_iff.mpr (sameLetter_toLower c))

theorem fold_eq_iff {one two : List Char} : fold one = fold two ↔ SameText one two := by
  unfold fold SameText
  rw [← List.forall₂_eq_eq_eq, List.forall₂_map_left_iff, List.forall₂_map_right_iff]
  simp only [toLower_eq_iff]

/-! ### White space -/

/-- No letter is white space, so white space does not depend on case. -/
theorem isBlank_toLower (c : Char) : isBlank c.toLower = isBlank c := by
  by_cases upper : 0x41 ≤ c.toNat ∧ c.toNat ≤ 0x5A
  · have small : c.toLower.toNat = c.toNat + 0x20 := by rw [toNat_toLower, if_pos upper]
    have letter : c.isAlphanum = true := Address.isAlphanum_iff_toNat.mpr (by omega)
    have letter' : c.toLower.isAlphanum = true := Address.isAlphanum_iff_toNat.mpr (by omega)
    rw [Address.isBlank_eq_false_of_isAlphanum letter, Address.isBlank_eq_false_of_isAlphanum letter']
  · have same : c.toLower = c := by rw [← Char.toNat_inj, toNat_toLower, if_neg upper]
    rw [same]

theorem isBlank_eq_of_toLower_eq {c d : Char} (same : c.toLower = d.toLower) :
    isBlank c = isBlank d := by
  rw [← isBlank_toLower c, same, isBlank_toLower d]

/-- White space has no case, so that it does not matter which of the two is taken away first. -/
theorem fold_trim (text : List Char) : fold (trim text) = trim (fold text) := by
  have blank : isBlank ∘ Char.toLower = isBlank := funext isBlank_toLower
  unfold fold trim trimEnd trimStart
  rw [List.dropWhile_map, blank, ← List.map_reverse, List.dropWhile_map, blank, List.map_reverse]

theorem fold_trim_congr {one two : List Char} (same : SameText one two) :
    fold (trim one) = fold (trim two) := by
  rw [fold_trim, fold_trim, fold_eq_iff.mpr same]

end GameClient.Text
