import GameClient.Text.Basic
/-!
Reading and writing decimal numerals. Reading accepts exactly the non-empty runs of ASCII digits, and
what is written for a number reads back as that number. `IsDecimal` says what is written: of all numerals
with the same value, it is the one without leading zeros.
-/

namespace GameClient.Text.Numeral

/-- A numeral is a non-empty run of digits; its value has no bound. -/
theorem read_eq_some_iff {text : List Char} {n : Nat} :
    read text = some n ↔
      text ≠ [] ∧ (∀ c ∈ text, c.isDigit = true) ∧ Nat.ofDigitChars 10 text 0 = n := by
  unfold read
  by_cases h : text ≠ [] ∧ text.all Char.isDigit
  · simp only [if_pos h, Option.some.injEq]
    rw [List.all_eq_true] at h
    exact ⟨fun value => ⟨h.1, h.2, value⟩, fun numeral => numeral.2.2⟩
  · simp only [if_neg h, reduceCtorEq, false_iff]
    rintro ⟨nonempty, digits, _⟩
    exact h ⟨nonempty, List.all_eq_true.mpr digits⟩

theorem write_ne_nil (n : Nat) : write n ≠ [] :=
  Nat.toDigits_ne_nil

theorem isDigit_of_mem_write {n : Nat} {c : Char} (h : c ∈ write n) : c.isDigit = true :=
  Nat.isDigit_of_mem_toDigits (by decide) (by decide) h

/-- What is written for a number reads back as that number. -/
theorem read_write (n : Nat) : read (write n) = some n :=
  read_eq_some_iff.mpr
    ⟨write_ne_nil n, fun _ member => isDigit_of_mem_write member, Nat.ofDigitChars_ten_toDigits⟩

theorem write_inj {m n : Nat} : write m = write n ↔ m = n := by
  constructor
  · intro same
    have read : read (write m) = some n := same ▸ read_write n
    exact Option.some.inj ((read_write m).symm.trans read)
  · exact congrArg write

/-! ### No leading zeros -/

/-- The text is the decimal numeral of the number: digits with its value, and a zero in front only if it
stands alone. -/
structure IsDecimal (text : List Char) (n : Nat) : Prop where
  nonempty : text ≠ []
  digits : ∀ c ∈ text, c.isDigit = true
  value : Nat.ofDigitChars 10 text 0 = n
  lead : ∀ rest, text = '0' :: rest → rest = []

theorem digitChar_toNat_sub {c : Char} (h : c.isDigit = true) :
    c.toNat - '0'.toNat < 10 ∧ Nat.digitChar (c.toNat - '0'.toNat) = c := by
  have codes : 48 ≤ c.toNat ∧ c.toNat ≤ 57 := by
    simpa [Char.isDigit, UInt32.le_iff_toNat_le] using h
  have zero : '0'.toNat = 48 := rfl
  have small : c.toNat - '0'.toNat < 10 := by omega
  refine ⟨small, ?_⟩
  apply Char.toNat_inj.mp
  rw [Nat.toNat_digitChar_of_lt_ten small]
  omega

/-- Digits behind a number other than zero are the last digits of its numeral. -/
theorem write_append {start : Nat} (positive : 0 < start) {digits : List Char}
    (fits : ∀ c ∈ digits, c.isDigit = true) :
    write start ++ digits = write (Nat.ofDigitChars 10 digits start) := by
  induction digits generalizing start with
  | nil => simp
  | cons c rest ih =>
      obtain ⟨small, same⟩ := digitChar_toNat_sub (fits c (by simp))
      have next : write start ++ [c] = write (10 * start + (c.toNat - '0'.toNat)) := by
        have joined := Nat.toDigits_append_toDigits (by decide : 1 < 10) positive small
        rwa [Nat.toDigits_of_lt_base small, same] at joined
      have later : 0 < 10 * start + (c.toNat - '0'.toNat) := by omega
      have more := ih later fun d member => fits d (by simp [member])
      calc write start ++ c :: rest
          = write start ++ [c] ++ rest := by simp
        _ = write (Nat.ofDigitChars 10 (c :: rest) start) := by
            rw [next, more, Nat.ofDigitChars_cons]

/-- The numeral of a number other than zero does not start with a zero. -/
theorem head?_write_ne {n : Nat} (positive : 0 < n) : (write n).head? ≠ some '0' := by
  induction n using Nat.strongRecOn with
  | ind n ih =>
      have cut : write n =
          if n < 10 then [n.digitChar] else write (n / 10) ++ [(n % 10).digitChar] :=
        Nat.toDigits_eq_if (by decide)
      by_cases single : n < 10
      · simp only [cut, if_pos single, List.head?_cons, ne_eq, Option.some.injEq,
          Nat.digitChar_eq_zero]
        omega
      · obtain ⟨c, rest, shape⟩ := List.exists_cons_of_ne_nil (write_ne_nil (n / 10))
        have before := ih (n / 10) (by omega) (by omega)
        rw [cut, if_neg single, shape]
        rwa [shape] at before

theorem isDecimal_write (n : Nat) : IsDecimal (write n) n where
  nonempty := write_ne_nil n
  digits _ member := isDigit_of_mem_write member
  value := Nat.ofDigitChars_ten_toDigits
  lead rest shape := by
    rcases Nat.eq_zero_or_pos n with rfl | positive
    · simpa [write] using shape.symm
    · exact absurd (by simp [shape]) (head?_write_ne positive)

/-- Each number has one decimal numeral, and it is the one written. -/
theorem isDecimal_iff {text : List Char} {n : Nat} : IsDecimal text n ↔ text = write n := by
  constructor
  · intro decimal
    obtain ⟨nonempty, digits, rfl, lead⟩ := decimal
    cases text with
    | nil => exact absurd rfl nonempty
    | cons c rest =>
        obtain ⟨small, same⟩ := digitChar_toNat_sub (digits c (by simp))
        have first : write (c.toNat - '0'.toNat) = [c] := by
          rw [write, Nat.toDigits_of_lt_base small, same]
        rw [Nat.ofDigitChars_cons, Nat.mul_zero, Nat.zero_add]
        by_cases zero : c.toNat - '0'.toNat = 0
        · have isZero : c = '0' := by
            rw [← same, zero]
            rfl
          rw [lead rest (by rw [isZero]), Nat.ofDigitChars_nil, first]
        · have rest_fits : ∀ d ∈ rest, d.isDigit = true := fun d member => digits d (by simp [member])
          rw [← write_append (Nat.pos_of_ne_zero zero) rest_fits, first, List.singleton_append]
  · rintro rfl
    exact isDecimal_write n

end GameClient.Text.Numeral
