import GameClient.Proofs.Legal
import GameClient.Proofs.Utf8
/-!
Legal text as a language. A text may be checked by its bytes, where the two digits of an escape are looked up by
their offset behind the percent sign. Either way the legal texts are the concatenations of units, so they can be
put together, cut at every mark, and freed of a mark at their end.
-/

namespace GameClient.Address

open Text Utf8

/-! ### Looking ahead by bytes -/

/-- A byte that is a hexadecimal digit. -/
def isHexByte (b : UInt8) : Bool :=
  between 0x30 0x39 b || between 0x61 0x66 b || between 0x41 0x46 b

/-- The bytes from an offset up to another one, if there are so many. -/
def slice? (bytes : List UInt8) (start stop : Nat) : Option (List UInt8) :=
  if stop ≤ bytes.length then some ((bytes.drop start).take (stop - start)) else none

/-- The characters of a text, each with the offset of its first byte. -/
def placesFrom (start : Nat) : List Char → List (Nat × Char)
  | [] => []
  | c :: rest => (start, c) :: placesFrom (start + c.utf8Size) rest

/-- A character may stand at its offset: a percent sign if the next two bytes are hexadecimal digits, another ASCII
character if it is a letter, a digit or a mark, and any other character if it is no control and not blank. -/
def fitsIn (bytes : List UInt8) (place : Nat × Char) : Bool :=
  if place.2 = '%' then (slice? bytes (place.1 + 1) (place.1 + 3)).any fun digits => digits.all isHexByte
  else if place.2.isAlphanum then true
  else if place.2.toNat < 0x80 then punctuation.contains place.2
  else !decide (IsControl place.2) && !isBlank place.2

/-- Every character of the text may stand at its offset. -/
def isLegalByOffsets (text : List Char) : Bool :=
  (placesFrom 0 text).all (fitsIn (encode text))

theorem isHexByte_iff {b : UInt8} :
    isHexByte b = true ↔ b.toNat < 0x80 ∧ (Char.ofNat b.toNat).isHexDigit = true := by
  have code : b.toNat < 0x80 → (Char.ofNat b.toNat).toNat = b.toNat := by
    intro ascii
    exact toNat_ofNat (Or.inl (by omega))
  simp only [isHexByte, Bool.or_eq_true, between_iff, UInt8.reduceToNat, isHexDigit_iff_toNat]
  constructor
  · intro digit
    rw [code (by omega)]
    omega
  · rintro ⟨ascii, digit⟩
    rw [code ascii] at digit
    omega

/-- A hexadecimal digit is one byte, which is a hexadecimal digit. -/
theorem exists_hexByte {c : Char} (digit : c.isHexDigit = true) (rest : List Char) :
    ∃ b, isHexByte b = true ∧ encode (c :: rest) = b :: encode rest := by
  have codes := isHexDigit_iff_toNat.mp digit
  obtain ⟨b, code⟩ := exists_toNat_eq (n := c.toNat) (by omega)
  have same : Char.ofNat b.toNat = c := by
    rw [code, Char.ofNat_toNat]
  have ascii : b.toNat < 0x80 := by omega
  refine ⟨b, isHexByte_iff.mpr ⟨ascii, by rw [same]; exact digit⟩, ?_⟩
  exact (encode_eq_cons_iff ascii).mpr ⟨rest, by rw [same], rfl⟩

/-- The digits of an escape stand among the bytes just where they stand among the characters. -/
theorem exists_hexBytes_iff {text : List Char} :
    (∃ a b rest, encode text = a :: b :: rest ∧ isHexByte a = true ∧ isHexByte b = true) ↔
      startsWithHexPair text = true := by
  rw [startsWithHexPair_iff]
  constructor
  · rintro ⟨a, b, rest, shape, first, second⟩
    obtain ⟨ascii, digit⟩ := isHexByte_iff.mp first
    obtain ⟨ascii', digit'⟩ := isHexByte_iff.mp second
    obtain ⟨behind, rfl, shape'⟩ := (encode_eq_cons_iff ascii).mp shape
    obtain ⟨more, rfl, _⟩ := (encode_eq_cons_iff ascii').mp shape'
    exact ⟨_, _, more, rfl, digit, digit'⟩
  · rintro ⟨c, d, more, rfl, digit, digit'⟩
    obtain ⟨a, first, shape⟩ := exists_hexByte digit (d :: more)
    obtain ⟨b, second, shape'⟩ := exists_hexByte digit' more
    exact ⟨a, b, encode more, by rw [shape, shape'], first, second⟩

/-- Two bytes that fit are there exactly if the bytes from the offset on begin with them. -/
theorem any_slice?_iff {bytes : List UInt8} {start : Nat} {fits : UInt8 → Bool} :
    ((slice? bytes start (start + 2)).any fun found => found.all fits) = true ↔
      ∃ a b rest, bytes.drop start = a :: b :: rest ∧ fits a = true ∧ fits b = true := by
  have length : (bytes.drop start).length = bytes.length - start := List.length_drop
  rw [slice?, Nat.add_sub_cancel_left]
  cases found : bytes.drop start with
  | nil =>
      rw [found, List.length_nil] at length
      rw [if_neg (by omega)]
      simp
  | cons a more =>
      rw [found, List.length_cons] at length
      cases more with
      | nil =>
          rw [List.length_nil] at length
          rw [if_neg (by omega)]
          simp
      | cons b rest =>
          rw [List.length_cons] at length
          rw [if_pos (by omega)]
          simp [and_assoc]

theorem fitsIn_percent (before rest : List Char) :
    fitsIn (encode (before ++ '%' :: rest)) ((encode before).length, '%') = startsWithHexPair rest := by
  have percent : encode ['%'] = [0x25] := by decide
  have shape : encode (before ++ '%' :: rest) = encode before ++ [0x25] ++ encode rest := by
    rw [← List.singleton_append, ← List.append_assoc, encode_append, encode_append, percent]
  have behind : (encode (before ++ '%' :: rest)).drop ((encode before).length + 1) = encode rest := by
    rw [shape]
    exact List.drop_left' (by simp)
  rw [fitsIn, if_pos rfl, Bool.eq_iff_iff, any_slice?_iff, behind]
  exact exists_hexBytes_iff

/-- No mark lies beyond ASCII, and nothing within ASCII is foreign. -/
theorem fitsIn_of_ne {c : Char} (h : c ≠ '%') (bytes : List UInt8) (place : Nat) :
    fitsIn bytes (place, c) = isPlain c := by
  have marks : punctuation.all (fun d => decide (d.toNat < 0x80)) = true := by decide
  rw [fitsIn, if_neg h, isPlain]
  by_cases letter : c.isAlphanum = true
  · rw [if_pos letter, letter]
    rfl
  · rw [if_neg letter, Bool.eq_false_iff.mpr letter, Bool.false_or]
    by_cases ascii : c.toNat < 0x80
    · have native : isForeign c = false := by
        rw [Bool.eq_false_iff]
        intro foreign
        exact absurd (isForeign_iff.mp foreign).1 (by omega)
      rw [if_pos ascii, native, Bool.or_false]
    · have unmarked : punctuation.contains c = false := by
        rw [Bool.eq_false_iff, ne_eq, List.contains_iff_mem]
        intro mark
        exact ascii (of_decide_eq_true (List.all_eq_true.mp marks c mark))
      rw [if_neg ascii, unmarked, Bool.false_or, Bool.eq_iff_iff, isForeign_iff]
      simp only [Bool.and_eq_true, Bool.not_eq_true', decide_eq_false_iff_not]
      constructor
      · intro fits
        exact ⟨by omega, fits⟩
      · intro foreign
        exact foreign.2

theorem all_placesFrom (before text : List Char) :
    (placesFrom (encode before).length text).all (fitsIn (encode (before ++ text))) = isLegal text := by
  induction text generalizing before with
  | nil => rfl
  | cons c rest ih =>
      -- The character goes over to the text before it, whose bytes are the next offset.
      have behind : (encode (before ++ [c])).length = (encode before).length + c.utf8Size := by
        simp [encode]
      have later := ih (before ++ [c])
      rw [behind, List.append_assoc, List.singleton_append] at later
      rw [placesFrom, List.all_cons, later, isLegal]
      by_cases percent : c = '%'
      · subst percent
        rw [if_pos rfl, fitsIn_percent]
      · rw [if_neg percent, fitsIn_of_ne percent]

theorem isLegalByOffsets_eq (text : List Char) : isLegalByOffsets text = isLegal text :=
  all_placesFrom [] text

/-! ### Cutting at marks -/

section Marks

variable {c : Char} {text : List Char}

theorem isLegal_iff_splitOn (mark : isMark c = true) :
    isLegal text = true ↔ ∀ part ∈ text.splitOn c, isLegal part = true := by
  rw [← isLegal_intercalate_iff mark, List.intercalate_splitOn]

theorem isLegal_dropFinal_iff (mark : isMark c = true) :
    isLegal (dropFinal c text) = true ↔ isLegal text = true := by
  rcases eq_dropFinal_or c text with same | shape
  · rw [← same]
  · nth_rewrite 2 [shape]
    rw [isLegal_append_mark mark]
    simp [isLegal]

end Marks

/-- A text is legal, by its bytes as by its characters, exactly if it is a concatenation of units. So legal texts
give a legal text together; a text is legal exactly if what lies before a mark and behind it is, or all that lies
between its marks of one kind; and a mark at the end makes no difference. -/
theorem isLegal_language (text : List Char) :
    isLegalByOffsets text = isLegal text ∧
      (isLegal text = true ↔
        ∃ units : List (List Char), (∀ unit ∈ units, IsUnit unit) ∧ text = units.flatten) ∧
      (∀ more, isLegal text = true → isLegal more = true → isLegal (text ++ more) = true) ∧
      ∀ c ∈ ['/', '?', '#', '@', ':'],
        (∀ before after, text = before ++ c :: after →
          (isLegal text = true ↔ isLegal before = true ∧ isLegal after = true)) ∧
        (isLegal text = true ↔ ∀ part ∈ text.splitOn c, isLegal part = true) ∧
        (isLegal (dropFinal c text) = true ↔ isLegal text = true) := by
  refine ⟨isLegalByOffsets_eq text, isLegal_iff_exists_units, fun more => isLegal_append, ?_⟩
  intro c member
  have mark : isMark c = true := List.all_eq_true.mp (by decide) c member
  refine ⟨?_, isLegal_iff_splitOn mark, isLegal_dropFinal_iff mark⟩
  rintro before after rfl
  exact isLegal_append_mark mark before after

/-- Escapes and characters of several bytes stand on both sides of the cuts. -/
theorem isLegal_language_of_escapes :
    isLegal "ñ%C3%b1".toList = true ∧ isLegal "/€?%e2@/".toList = true ∧
      isLegal "ñ%C3%b1/€?%e2@/".toList = true ∧ isLegalByOffsets "ñ%C3%b1/€?%e2@/".toList = true ∧
      (∀ part ∈ "ñ%C3%b1/€?%e2@/".toList.splitOn '/', isLegal part = true) ∧
      isLegal "€?%e2".toList = true ∧ isLegal (dropFinal '/' "ñ%C3%b1/€?%e2@/".toList) = true := by
  have one : isLegal "ñ%C3%b1".toList = true := by decide
  have two : isLegal "/€?%e2@/".toList = true := by decide
  have both : isLegal "ñ%C3%b1/€?%e2@/".toList = true :=
    (isLegal_language "ñ%C3%b1".toList).2.2.1 "/€?%e2@/".toList one two
  obtain ⟨bytes, _, _, marks⟩ := isLegal_language "ñ%C3%b1/€?%e2@/".toList
  obtain ⟨_, parts, final⟩ := marks '/' (by simp)
  obtain ⟨_, _, _, inside⟩ := isLegal_language "€?%e2@/".toList
  obtain ⟨_, behind⟩ := ((marks '/' (by simp)).1 "ñ%C3%b1".toList "€?%e2@/".toList rfl).mp both
  obtain ⟨front, _⟩ := ((inside '@' (by simp)).1 "€?%e2".toList "/".toList rfl).mp behind
  exact ⟨one, two, both, bytes.trans both, parts.mp both, front, final.mpr both⟩

end GameClient.Address
