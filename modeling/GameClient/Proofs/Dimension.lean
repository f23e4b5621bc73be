import GameClient.Settings.Resolve
import GameClient.Proofs.Numeral
/-!
The texts that give a width or a height. `WritesDimension` says which these are without the reader,
and the reader accepts exactly them.
-/

namespace GameClient

open Text

/-- The text, white space around it aside, writes `n` in decimal digits, perhaps after one plus sign,
and `n` is positive and fits in a signed integer of 32 bits. Leading zeros are free. -/
def WritesDimension (given : String) (n : Nat) : Prop :=
  ∃ sign digits, trim given.toList = sign ++ digits ∧ (sign = [] ∨ sign = ['+']) ∧
    digits ≠ [] ∧ (∀ c ∈ digits, c.isDigit = true) ∧ Nat.ofDigitChars 10 digits 0 = n ∧
    1 ≤ n ∧ n ≤ 2147483647

/-- The text writes a positive integer of 32 bits. -/
def IsDimension (given : String) : Prop :=
  ∃ n, WritesDimension given n

/-- A plus sign is dropped, and a text that starts with a digit has none. -/
theorem dropPlus_signed {sign digits : List Char} (signed : sign = [] ∨ sign = ['+'])
    (allDigits : ∀ c ∈ digits, c.isDigit = true) : dropPlus (sign ++ digits) = digits := by
  rcases signed with rfl | rfl
  · cases digits with
    | nil => rfl
    | cons c rest =>
        have digit : c.isDigit = true := allDigits c (by simp)
        have notPlus : c ≠ '+' := by
          rintro rfl
          exact absurd digit (by decide)
        simp [dropPlus, notPlus]
  · rfl

/-- Every text is what `dropPlus` leaves, perhaps with a plus sign in front. -/
theorem exists_sign_dropPlus (text : List Char) :
    ∃ sign, (sign = [] ∨ sign = ['+']) ∧ text = sign ++ dropPlus text := by
  unfold dropPlus
  split
  · exact ⟨['+'], Or.inr rfl, rfl⟩
  · exact ⟨[], Or.inl rfl, rfl⟩

/-- The reader accepts exactly the texts that write a dimension, and gives the number written. -/
theorem readDimension_eq_some_iff {given : String} {n : Nat} :
    readDimension given = some n ↔ WritesDimension given n := by
  simp only [readDimension, Option.filter_eq_some_iff, Numeral.read_eq_some_iff,
    Bool.and_eq_true, decide_eq_true_eq]
  constructor
  · intro read
    obtain ⟨⟨nonempty, digits, value⟩, positive, small⟩ := read
    obtain ⟨sign, signed, split⟩ := exists_sign_dropPlus (trim given.toList)
    exact ⟨sign, _, split, signed, nonempty, digits, value, positive, small⟩
  · intro writes
    obtain ⟨sign, digits, split, signed, nonempty, allDigits, value, positive, small⟩ := writes
    rw [split, dropPlus_signed signed allDigits]
    exact ⟨⟨nonempty, allDigits, value⟩, positive, small⟩

theorem readDimension_isSome_iff {given : String} :
    (readDimension given).isSome = true ↔ IsDimension given := by
  simp only [Option.isSome_iff_exists, readDimension_eq_some_iff, IsDimension]

instance : DecidablePred IsDimension := fun _ =>
  decidable_of_iff _ readDimension_isSome_iff

theorem readDimension_eq_none_iff {given : String} :
    readDimension given = none ↔ ¬ IsDimension given := by
  rw [← readDimension_isSome_iff, Option.not_isSome_iff_eq_none]

/-- No text gives a dimension of zero. -/
theorem pos_of_readDimension {given : String} {n : Nat} (h : readDimension given = some n) :
    0 < n := by
  obtain ⟨_, _, _, _, _, _, _, positive, _⟩ := readDimension_eq_some_iff.mp h
  exact positive

example : IsDimension "\t+00042 " ∧ ¬ IsDimension "2147483648" ∧ ¬ IsDimension "+-1" := by decide

end GameClient
