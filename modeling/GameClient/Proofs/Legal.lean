import GameClient.Address.Basic
import GameClient.Proofs.Cut
/-!
Legal text. Legal texts can be put together, and cut in front of any character that is no hexadecimal
digit, since no escape goes across such a cut. A legal text holds no white space and no control
character.
-/

namespace GameClient.Address

open Text

theorem isLegal_cons_of_ne {c : Char} (h : c ≠ '%') (rest : List Char) :
    isLegal (c :: rest) = true ↔ isPlain c = true ∧ isLegal rest = true := by
  simp [isLegal, h]

theorem isLegal_percent (rest : List Char) :
    isLegal ('%' :: rest) = true ↔ startsWithHexPair rest = true ∧ isLegal rest = true := by
  simp [isLegal]

theorem startsWithHexPair_iff {text : List Char} :
    startsWithHexPair text = true ↔
      ∃ a b rest, text = a :: b :: rest ∧ a.isHexDigit = true ∧ b.isHexDigit = true := by
  match text with
  | [] => simp [startsWithHexPair]
  | [_] => simp [startsWithHexPair]
  | a :: b :: rest =>
      rw [startsWithHexPair, Bool.and_eq_true]
      constructor
      · intro h
        exact ⟨a, b, rest, rfl, h⟩
      · intro h
        obtain ⟨_, _, _, shape, digits⟩ := h
        injection shape with first others
        injection others with second _
        rw [first, second]
        exact digits

theorem startsWithHexPair_append {text : List Char} (h : startsWithHexPair text = true)
    (more : List Char) : startsWithHexPair (text ++ more) = true := by
  match text, h with
  | _ :: _ :: _, h => exact h

/-- Two hexadecimal digits that a text starts with lie before any cut that is not in front of one. -/
theorem startsWithHexPair_of_append {text more : List Char} (stop : Stops Char.isHexDigit more)
    (h : startsWithHexPair (text ++ more) = true) : startsWithHexPair text = true := by
  match text with
  | _ :: _ :: _ => exact h
  | [a] =>
      cases more with
      | nil => exact h
      | cons b rest =>
          simp only [List.cons_append, List.nil_append, startsWithHexPair, stops_cons.mp stop] at h
          simp at h
  | [] =>
      match more with
      | [] => exact h
      | [_] => simp [startsWithHexPair] at h
      | b :: _ :: _ =>
          simp only [List.nil_append, startsWithHexPair, stops_cons.mp stop] at h
          simp at h

theorem isLegal_append {text more : List Char} (one : isLegal text = true)
    (two : isLegal more = true) : isLegal (text ++ more) = true := by
  induction text with
  | nil => exact two
  | cons c rest ih =>
      by_cases percent : c = '%'
      · subst percent
        rw [isLegal_percent] at one
        exact (isLegal_percent _).mpr ⟨startsWithHexPair_append one.1 more, ih one.2⟩
      · rw [isLegal_cons_of_ne percent] at one
        exact (isLegal_cons_of_ne percent _).mpr ⟨one.1, ih one.2⟩

/-- A legal text may be cut in front of any character that is no hexadecimal digit. -/
theorem isLegal_append_iff {text more : List Char} (stop : Stops Char.isHexDigit more) :
    isLegal (text ++ more) = true ↔ isLegal text = true ∧ isLegal more = true := by
  constructor
  · intro h
    induction text with
    | nil => exact ⟨rfl, h⟩
    | cons c rest ih =>
        by_cases percent : c = '%'
        · subst percent
          rw [List.cons_append, isLegal_percent] at h
          rw [isLegal_percent]
          exact ⟨⟨startsWithHexPair_of_append stop h.1, (ih h.2).1⟩, (ih h.2).2⟩
        · rw [List.cons_append, isLegal_cons_of_ne percent] at h
          rw [isLegal_cons_of_ne percent]
          exact ⟨⟨h.1, (ih h.2).1⟩, (ih h.2).2⟩
  · intro parts
    exact isLegal_append parts.1 parts.2

/-- The marks between the parts of an address. -/
def isMark (c : Char) : Bool :=
  c == ':' || c == '/' || c == '?' || c == '#' || c == '@'

/-- A legal text may be cut at any mark. -/
theorem isLegal_append_mark {c : Char} (mark : isMark c = true) (text more : List Char) :
    isLegal (text ++ c :: more) = true ↔ isLegal text = true ∧ isLegal more = true := by
  have cases : c = ':' ∨ c = '/' ∨ c = '?' ∨ c = '#' ∨ c = '@' := by
    simpa [isMark, or_assoc] using mark
  have facts : c.isHexDigit = false ∧ c ≠ '%' ∧ isPlain c = true := by
    rcases cases with rfl | rfl | rfl | rfl | rfl <;> decide
  rw [isLegal_append_iff (stops_cons.mpr facts.1), isLegal_cons_of_ne facts.2.1]
  simp [facts.2.2]

theorem isLegal_intercalate_iff {c : Char} (mark : isMark c = true) {parts : List (List Char)} :
    isLegal ([c].intercalate parts) = true ↔ ∀ part ∈ parts, isLegal part = true := by
  induction parts with
  | nil => simp [isLegal]
  | cons part rest ih =>
      cases rest with
      | nil => simp
      | cons next rest =>
          rw [List.intercalate_cons_cons, List.append_assoc, List.singleton_append,
            isLegal_append_mark mark, ih]
          simp

theorem isLegal_of_forall_isPlain {text : List Char} (h : ∀ c ∈ text, isPlain c = true) :
    isLegal text = true := by
  have percent : isPlain '%' = false := by decide
  induction text with
  | nil => rfl
  | cons c rest ih =>
      have plain : isPlain c = true := h c (by simp)
      have notPercent : c ≠ '%' := by
        intro same
        rw [same, percent] at plain
        exact Bool.noConfusion plain
      rw [isLegal_cons_of_ne notPercent]
      exact ⟨plain, ih fun d member => h d (by simp [member])⟩

/-! ### No white space and no control characters -/

/-- Nothing but percent signs and plain characters stands in a legal text. -/
theorem eq_percent_or_isPlain_of_isLegal {text : List Char} (h : isLegal text = true) :
    ∀ c ∈ text, c = '%' ∨ isPlain c = true := by
  induction text with
  | nil => simp
  | cons d rest ih =>
      have parts : (d = '%' ∨ isPlain d = true) ∧ isLegal rest = true := by
        by_cases percent : d = '%'
        · subst percent
          exact ⟨Or.inl rfl, ((isLegal_percent rest).mp h).2⟩
        · have both := (isLegal_cons_of_ne percent rest).mp h
          exact ⟨Or.inr both.1, both.2⟩
      intro c member
      rcases List.mem_cons.mp member with rfl | later
      · exact parts.1
      · exact ih parts.2 c later

/-- The letters and digits, by their codes. -/
theorem isAlphanum_iff_toNat {c : Char} :
    c.isAlphanum = true ↔
      ((65 ≤ c.toNat ∧ c.toNat ≤ 90) ∨ (97 ≤ c.toNat ∧ c.toNat ≤ 122)) ∨
        (48 ≤ c.toNat ∧ c.toNat ≤ 57) := by
  have spelled : c.isAlphanum = ((decide (c.val ≥ 65 ∧ c.val ≤ 90) ||
      (c.val ≥ 97 && c.val ≤ 122)) || (c.val ≥ 48 && c.val ≤ 57)) := rfl
  simp only [spelled, Bool.or_eq_true, Bool.and_eq_true, decide_eq_true_eq, UInt32.le_iff_toNat_le,
    ge_iff_le]
  exact Iff.rfl

/-- The hexadecimal digits, by their codes. -/
theorem isHexDigit_iff_toNat {c : Char} :
    c.isHexDigit = true ↔
      ((48 ≤ c.toNat ∧ c.toNat ≤ 57) ∨ (97 ≤ c.toNat ∧ c.toNat ≤ 102)) ∨
        (65 ≤ c.toNat ∧ c.toNat ≤ 70) := by
  have spelled : c.isHexDigit = (((c.val ≥ 48 && c.val ≤ 57) || (c.val ≥ 97 && c.val ≤ 102)) ||
      (c.val ≥ 65 && c.val ≤ 70)) := rfl
  simp only [spelled, Bool.or_eq_true, Bool.and_eq_true, decide_eq_true_eq, UInt32.le_iff_toNat_le,
    ge_iff_le]
  exact Iff.rfl

theorem isBlank_eq_false_of_isAlphanum {c : Char} (h : c.isAlphanum = true) : isBlank c = false := by
  have codes := isAlphanum_iff_toNat.mp h
  simp only [isBlank, blankRanges, List.any_cons, List.any_nil, Bool.or_false, Bool.or_eq_false_iff,
    Bool.and_eq_false_iff, decide_eq_false_iff_not]
  omega

theorem isBlank_eq_false_of_isPlain {c : Char} (h : isPlain c = true) : isBlank c = false := by
  simp only [isPlain, Bool.or_eq_true, List.contains_iff_mem] at h
  rcases h with (letter | mark) | foreign
  · exact isBlank_eq_false_of_isAlphanum letter
  · have every : punctuation.all (fun d => !isBlank d) = true := by decide
    simpa using List.all_eq_true.mp every c mark
  · simp only [isForeign, Bool.and_eq_true, Bool.not_eq_true'] at foreign
    exact foreign.2

theorem isBlank_eq_false_of_isLegal {text : List Char} (h : isLegal text = true) :
    ∀ c ∈ text, isBlank c = false := by
  intro c member
  rcases eq_percent_or_isPlain_of_isLegal h c member with rfl | plain
  · decide
  · exact isBlank_eq_false_of_isPlain plain

/-- The control characters: those below the blank, and those from U+007F to U+009F. -/
def IsControl (c : Char) : Prop :=
  c.toNat < 0x20 ∨ 0x7F ≤ c.toNat ∧ c.toNat ≤ 0x9F

instance : DecidablePred IsControl := fun _ => inferInstanceAs (Decidable (_ ∨ _))

theorem not_isControl_of_isPlain {c : Char} (h : isPlain c = true) : ¬ IsControl c := by
  simp only [isPlain, Bool.or_eq_true, List.contains_iff_mem] at h
  rcases h with (letter | mark) | foreign
  · have codes := isAlphanum_iff_toNat.mp letter
    unfold IsControl
    omega
  · have every : punctuation.all (fun d => !decide (IsControl d)) = true := by decide
    simpa using List.all_eq_true.mp every c mark
  · simp only [isForeign, Bool.and_eq_true, decide_eq_true_eq] at foreign
    unfold IsControl
    omega

theorem not_isControl_of_isLegal {text : List Char} (h : isLegal text = true) :
    ∀ c ∈ text, ¬ IsControl c := by
  intro c member
  rcases eq_percent_or_isPlain_of_isLegal h c member with rfl | plain
  · decide
  · exact not_isControl_of_isPlain plain

/-! ### Legal text as units -/

/-- What a legal text is made of: letters and digits, marks, whole escapes, and characters beyond ASCII that
are neither control characters nor white space. -/
inductive IsUnit : List Char → Prop where
  | alphanum {c : Char} (letter : c.isAlphanum = true) : IsUnit [c]
  | mark {c : Char} (mark : c ∈ punctuation) : IsUnit [c]
  | escape {a b : Char} (first : a.isHexDigit = true) (second : b.isHexDigit = true) :
      IsUnit ['%', a, b]
  | foreign {c : Char} (beyond : 0x80 ≤ c.toNat) (noControl : ¬ IsControl c)
      (noBlank : isBlank c = false) : IsUnit [c]

theorem isForeign_iff {c : Char} :
    isForeign c = true ↔ 0x80 ≤ c.toNat ∧ ¬ IsControl c ∧ isBlank c = false := by
  have codes : 0xA0 ≤ c.toNat ↔ 0x80 ≤ c.toNat ∧ ¬ IsControl c := by
    unfold IsControl
    omega
  simp only [isForeign, Bool.and_eq_true, decide_eq_true_eq, Bool.not_eq_true', codes, and_assoc]

theorem isUnit_of_isPlain {c : Char} (h : isPlain c = true) : IsUnit [c] := by
  simp only [isPlain, Bool.or_eq_true, List.contains_iff_mem] at h
  rcases h with (letter | mark) | foreign
  · exact .alphanum letter
  · exact .mark mark
  · obtain ⟨beyond, noControl, noBlank⟩ := isForeign_iff.mp foreign
    exact .foreign beyond noControl noBlank

theorem isPlain_of_isHexDigit {c : Char} (h : c.isHexDigit = true) : isPlain c = true := by
  have codes := isHexDigit_iff_toNat.mp h
  have letter : c.isAlphanum = true := isAlphanum_iff_toNat.mpr (by omega)
  simp [isPlain, letter]

theorem isLegal_of_isUnit {unit : List Char} (h : IsUnit unit) : isLegal unit = true := by
  cases h with
  | alphanum letter => exact isLegal_of_forall_isPlain (by simp [isPlain, letter])
  | mark mark => exact isLegal_of_forall_isPlain (by simp [isPlain, mark])
  | @escape a b first second =>
      have digits : isLegal [a, b] = true := by
        apply isLegal_of_forall_isPlain
        simp [isPlain_of_isHexDigit first, isPlain_of_isHexDigit second]
      exact (isLegal_percent _).mpr ⟨by simp [startsWithHexPair, first, second], digits⟩
  | foreign beyond noControl noBlank =>
      have foreign := isForeign_iff.mpr ⟨beyond, noControl, noBlank⟩
      exact isLegal_of_forall_isPlain (by simp [isPlain, foreign])

theorem exists_units_of_isLegal : ∀ {text : List Char}, isLegal text = true →
    ∃ units : List (List Char), (∀ unit ∈ units, IsUnit unit) ∧ text = units.flatten
  | [], _ => ⟨[], by simp, rfl⟩
  | c :: rest, h => by
      by_cases percent : c = '%'
      · -- An escape is one unit, so that the units go on behind its two digits.
        subst percent
        obtain ⟨digits, legal⟩ := (isLegal_percent rest).mp h
        match rest, digits, legal with
        | a :: b :: more, digits, legal =>
            simp only [startsWithHexPair, Bool.and_eq_true] at digits
            have digit : ∀ d : Char, d.isHexDigit = true → d ≠ '%' := by
              rintro d hex rfl
              exact absurd hex (by decide)
            rw [isLegal_cons_of_ne (digit a digits.1), isLegal_cons_of_ne (digit b digits.2)] at legal
            obtain ⟨units, every, shape⟩ := exists_units_of_isLegal legal.2.2
            exact ⟨['%', a, b] :: units, by simpa using ⟨.escape digits.1 digits.2, every⟩,
              by simp [shape]⟩
      · obtain ⟨plain, legal⟩ := (isLegal_cons_of_ne percent rest).mp h
        obtain ⟨units, every, shape⟩ := exists_units_of_isLegal legal
        exact ⟨[c] :: units, by simpa using ⟨isUnit_of_isPlain plain, every⟩, by simp [shape]⟩

/-- The legal texts are the concatenations of units. -/
theorem isLegal_iff_exists_units {text : List Char} :
    isLegal text = true ↔
      ∃ units : List (List Char), (∀ unit ∈ units, IsUnit unit) ∧ text = units.flatten := by
  constructor
  · exact exists_units_of_isLegal
  · rintro ⟨units, every, rfl⟩
    induction units with
    | nil => rfl
    | cons unit rest ih =>
        simp only [List.mem_cons, forall_eq_or_imp] at every
        exact isLegal_append (isLegal_of_isUnit every.1) (ih every.2)

end GameClient.Address
