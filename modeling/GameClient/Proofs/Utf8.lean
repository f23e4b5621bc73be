import GameClient.Text.Bytes
import Mathlib.Data.List.Induction
/-!
UTF-8 read back. The bytes that are read as one character are those of the four forms, and each character
has one form: the bytes that it is encoded in. Strict decoding therefore gives a text exactly if the bytes
encode that text, and fails exactly if they encode none.
-/

namespace GameClient.Text.Utf8

theorem between_iff {lo hi b : UInt8} :
    between lo hi b = true ↔ lo.toNat ≤ b.toNat ∧ b.toNat ≤ hi.toNat := by
  simp [between, UInt8.le_iff_toNat_le]

section Start

variable {b : UInt8}

theorem start_of_one (one : b.toNat < 0x80) : start b = .piece (.char (Char.ofNat b.toNat)) := by
  simp only [start, UInt8.lt_iff_toNat_lt, UInt8.reduceToNat, if_pos one]

theorem start_of_two (two : 0xC2 ≤ b.toNat ∧ b.toNat < 0xE0) :
    start b = .more ⟨b.toNat % 32, 0, 0x80, 0xBF⟩ := by
  simp only [start, between_iff, UInt8.lt_iff_toNat_lt, UInt8.reduceToNat]
  grind

theorem start_of_three (three : 0xE0 ≤ b.toNat ∧ b.toNat < 0xF0) :
    start b = .more ⟨b.toNat % 16, 1, if b.toNat = 0xE0 then 0xA0 else 0x80,
      if b.toNat = 0xED then 0x9F else 0xBF⟩ := by
  simp only [start, between_iff, UInt8.lt_iff_toNat_lt, ← UInt8.toNat_inj, UInt8.reduceToNat]
  grind

theorem start_of_four (four : 0xF0 ≤ b.toNat ∧ b.toNat < 0xF5) :
    start b = .more ⟨b.toNat % 8, 2, if b.toNat = 0xF0 then 0x90 else 0x80,
      if b.toNat = 0xF4 then 0x8F else 0xBF⟩ := by
  simp only [start, between_iff, UInt8.lt_iff_toNat_lt, ← UInt8.toNat_inj, UInt8.reduceToNat]
  grind

theorem start_of_none (lower : 0x80 ≤ b.toNat) (none : b.toNat < 0xC2 ∨ 0xF5 ≤ b.toNat) :
    start b = .piece .invalid := by
  simp only [start, between_iff, UInt8.lt_iff_toNat_lt, ← UInt8.toNat_inj, UInt8.reduceToNat]
  grind

end Start

/-- Bytes that finish a character which has begun. -/
inductive Pending.Finishes : Pending → List UInt8 → Char → Prop where
  | last {p : Pending} {b : UInt8} {c : Char} (fits : p.accepts b = true)
      (added : p.add b = .piece (.char c)) : Finishes p [b] c
  | next {p q : Pending} {b : UInt8} {more : List UInt8} {c : Char} (fits : p.accepts b = true)
      (added : p.add b = .more q) (finishes : Finishes q more c) : Finishes p (b :: more) c

/-- Bytes that are read as one character. -/
inductive Spells : List UInt8 → Char → Prop where
  | alone {b : UInt8} {c : Char} (started : start b = .piece (.char c)) : Spells [b] c
  | started {b : UInt8} {p : Pending} {more : List UInt8} {c : Char} (started : start b = .more p)
      (finishes : p.Finishes more c) : Spells (b :: more) c

theorem Pending.Finishes.read_append {p : Pending} {units : List UInt8} {c : Char}
    (finishes : p.Finishes units c) (rest : List UInt8) :
    read (some p) (units ++ rest) = .char c :: read none rest := by
  induction finishes with
  | last fits added => simp [read, fits, added]
  | next fits added _ ih => simp [read, fits, added, ih]

theorem Spells.read_append {units : List UInt8} {c : Char} (spells : Spells units c)
    (rest : List UInt8) : read none (units ++ rest) = .char c :: read none rest := by
  cases spells with
  | alone started => simp [read, started]
  | started started finishes => simp [read, started, finishes.read_append]

/-- A character that comes out of the rest of a character has been finished. -/
theorem exists_finishes_of_read {p : Pending} {bytes : List UInt8} {c : Char} {tail : List Piece}
    (h : read (some p) bytes = .char c :: tail) :
    ∃ units rest, p.Finishes units c ∧ bytes = units ++ rest ∧ tail = read none rest := by
  induction bytes generalizing p with
  | nil => simp [read] at h
  | cons b bytes ih =>
      by_cases fits : p.accepts b = true
      · cases added : p.add b with
        | piece piece =>
            simp only [read, fits, if_true, added, List.cons.injEq] at h
            obtain ⟨rfl, rfl⟩ := h
            exact ⟨[b], bytes, .last fits added, rfl, rfl⟩
        | more q =>
            simp only [read, fits, if_true, added] at h
            obtain ⟨units, rest, finishes, rfl, rfl⟩ := ih h
            exact ⟨b :: units, rest, .next fits added finishes, rfl, rfl⟩
      · cases started : start b <;> simp [read, fits, started] at h

theorem exists_spells_of_read {bytes : List UInt8} {c : Char} {tail : List Piece}
    (h : read none bytes = .char c :: tail) :
    ∃ units rest, Spells units c ∧ bytes = units ++ rest ∧ tail = read none rest := by
  cases bytes with
  | nil => simp [read] at h
  | cons b bytes =>
      cases started : start b with
      | piece piece =>
          simp only [read, started, List.cons.injEq] at h
          obtain ⟨rfl, rfl⟩ := h
          exact ⟨[b], bytes, .alone started, rfl, rfl⟩
      | more p =>
          simp only [read, started] at h
          obtain ⟨units, rest, finishes, rfl, rfl⟩ := exists_finishes_of_read h
          exact ⟨b :: units, rest, .started started finishes, rfl, rfl⟩

section Forms

variable {code owed : Nat} {lo hi : UInt8} {bytes : List UInt8} {c : Char}

/-- The last byte of a character. -/
theorem Pending.finishes_zero_iff :
    Finishes ⟨code, 0, lo, hi⟩ bytes c ↔
      ∃ b, bytes = [b] ∧ between lo hi b = true ∧ c = Char.ofNat (code * 64 + b.toNat % 64) := by
  constructor
  · intro finishes
    cases finishes with
    | last fits added =>
        simp only [add, Progress.piece.injEq, Piece.char.injEq] at added
        exact ⟨_, rfl, fits, added.symm⟩
    | next fits added _ => simp [add] at added
  · rintro ⟨b, rfl, fits, rfl⟩
    exact .last fits rfl

/-- A byte of a character that is not the last one. -/
theorem Pending.finishes_succ_iff :
    Finishes ⟨code, owed + 1, lo, hi⟩ bytes c ↔
      ∃ b more, bytes = b :: more ∧ between lo hi b = true ∧
        Finishes ⟨code * 64 + b.toNat % 64, owed, 0x80, 0xBF⟩ more c := by
  constructor
  · intro finishes
    cases finishes with
    | last fits added => simp [add] at added
    | next fits added finishes =>
        simp only [add, Progress.more.injEq] at added
        subst added
        exact ⟨_, _, rfl, fits, finishes⟩
  · rintro ⟨b, more, rfl, fits, finishes⟩
    exact .next fits rfl finishes

end Forms

/-- A byte that goes on with a character. -/
def IsTail (b : UInt8) : Prop :=
  0x80 ≤ b.toNat ∧ b.toNat ≤ 0xBF

/-- The forms of the codes of characters: no form is longer than it needs to be, no code is a
surrogate, and none lies beyond U+10FFFF. -/
inductive Form : List UInt8 → Nat → Prop where
  | one {a : UInt8} (lead : a.toNat < 0x80) : Form [a] a.toNat
  | two {a b : UInt8} (lead : 0xC2 ≤ a.toNat ∧ a.toNat < 0xE0) (tail : IsTail b) :
      Form [a, b] (a.toNat % 32 * 64 + b.toNat % 64)
  | three {a b d : UInt8} (lead : 0xE0 ≤ a.toNat ∧ a.toNat < 0xF0)
      (low : a.toNat = 0xE0 → 0xA0 ≤ b.toNat) (high : a.toNat = 0xED → b.toNat ≤ 0x9F)
      (tail : IsTail b) (tail' : IsTail d) :
      Form [a, b, d] ((a.toNat % 16 * 64 + b.toNat % 64) * 64 + d.toNat % 64)
  | four {a b d e : UInt8} (lead : 0xF0 ≤ a.toNat ∧ a.toNat < 0xF5)
      (low : a.toNat = 0xF0 → 0x90 ≤ b.toNat) (high : a.toNat = 0xF4 → b.toNat ≤ 0x8F)
      (tail : IsTail b) (tail' : IsTail d) (tail'' : IsTail e) :
      Form [a, b, d, e]
        (((a.toNat % 8 * 64 + b.toNat % 64) * 64 + d.toNat % 64) * 64 + e.toNat % 64)

/-- A form is the form of a character. -/
theorem Form.isValidChar {units : List UInt8} {code : Nat} (form : Form units code) :
    code.isValidChar := by
  cases form <;> simp only [IsTail, Nat.isValidChar] at * <;> omega

theorem toNat_ofNat {code : Nat} (valid : code.isValidChar) :
    (Char.ofNat code).val.toNat = code := by
  rw [Char.ofNat, dif_pos valid]
  rfl

/-- The bytes of a character are its form. -/
theorem Form.encodeChar {units : List UInt8} {code : Nat} (form : Form units code) :
    String.utf8EncodeChar (Char.ofNat code) = units := by
  unfold String.utf8EncodeChar
  simp only [toNat_ofNat form.isValidChar]
  cases form with
  | one lead => rw [if_pos (by omega), UInt8.ofNat_toNat]
  | two lead tail =>
      simp only [IsTail] at tail
      rw [if_neg (by omega), if_pos (by omega)]
      simp only [List.cons.injEq, ← UInt8.toNat_inj, UInt8.toNat_ofNat', and_true]
      omega
  | three lead low high tail tail' =>
      simp only [IsTail] at tail tail'
      rw [if_neg (by omega), if_neg (by omega), if_pos (by omega)]
      simp only [List.cons.injEq, ← UInt8.toNat_inj, UInt8.toNat_ofNat', and_true]
      omega
  | four lead low high tail tail' tail'' =>
      simp only [IsTail] at tail tail' tail''
      rw [if_neg (by omega), if_neg (by omega), if_neg (by omega)]
      simp only [List.cons.injEq, ← UInt8.toNat_inj, UInt8.toNat_ofNat', and_true]
      omega

/-- Only the first byte of a form is not one that goes on with a character. -/
theorem Form.exists_cons {units : List UInt8} {code : Nat} (form : Form units code) :
    ∃ a more, units = a :: more ∧ ¬ IsTail a ∧ ∀ b ∈ more, IsTail b := by
  cases form with
  | one lead => exact ⟨_, _, rfl, fun tail => absurd tail.1 (by omega), by simp⟩
  | two lead tail => exact ⟨_, _, rfl, fun tail => absurd tail.2 (by omega), by simpa using tail⟩
  | three lead low high tail tail' =>
      exact ⟨_, _, rfl, fun tail => absurd tail.2 (by omega), by simpa using ⟨tail, tail'⟩⟩
  | four lead low high tail tail' tail'' =>
      exact ⟨_, _, rfl, fun tail => absurd tail.2 (by omega), by simpa using ⟨tail, tail', tail''⟩⟩

/-- An ASCII byte is in a character only if it is the whole character. -/
theorem Form.eq_singleton {units : List UInt8} {code : Nat} {b : UInt8} (form : Form units code)
    (ascii : b.toNat < 0x80) (member : b ∈ units) : units = [b] ∧ code = b.toNat := by
  obtain ⟨a, more, shape, _, tails⟩ := form.exists_cons
  have first : b = a := by
    rw [shape, List.mem_cons] at member
    exact member.resolve_right fun later => absurd (tails b later).1 (by omega)
  cases form with
  | one lead =>
      obtain ⟨rfl, _⟩ := List.cons.inj shape
      exact ⟨by rw [first], by rw [first]⟩
  | two lead _ | three lead _ _ _ _ | four lead _ _ _ _ _ =>
      obtain ⟨rfl, _⟩ := List.cons.inj shape
      rw [first] at ascii
      omega

/-- A byte by the number that it is. -/
theorem exists_toNat_eq {n : Nat} (h : n < 256) : ∃ b : UInt8, b.toNat = n :=
  ⟨UInt8.ofNat n, by simpa using h⟩

/-- Every code of a character has a form. -/
theorem exists_form {code : Nat} (valid : code.isValidChar) : ∃ units, Form units code := by
  simp only [Nat.isValidChar] at valid
  by_cases one : code < 0x80
  · obtain ⟨a, rfl⟩ := exists_toNat_eq (n := code) (by omega)
    exact ⟨[a], .one one⟩
  by_cases two : code < 0x800
  · obtain ⟨a, ha⟩ := exists_toNat_eq (n := 0xC0 + code / 64) (by omega)
    obtain ⟨b, hb⟩ := exists_toNat_eq (n := 0x80 + code % 64) (by omega)
    have form := Form.two (a := a) (b := b) (by omega) (by simp only [IsTail]; omega)
    have same : a.toNat % 32 * 64 + b.toNat % 64 = code := by omega
    exact ⟨_, same ▸ form⟩
  by_cases three : code < 0x10000
  · obtain ⟨a, ha⟩ := exists_toNat_eq (n := 0xE0 + code / 4096) (by omega)
    obtain ⟨b, hb⟩ := exists_toNat_eq (n := 0x80 + code / 64 % 64) (by omega)
    obtain ⟨d, hd⟩ := exists_toNat_eq (n := 0x80 + code % 64) (by omega)
    have form := Form.three (a := a) (b := b) (d := d) (by omega) (by omega) (by omega)
      (by simp only [IsTail]; omega) (by simp only [IsTail]; omega)
    have same : (a.toNat % 16 * 64 + b.toNat % 64) * 64 + d.toNat % 64 = code := by omega
    exact ⟨_, same ▸ form⟩
  · obtain ⟨a, ha⟩ := exists_toNat_eq (n := 0xF0 + code / 262144) (by omega)
    obtain ⟨b, hb⟩ := exists_toNat_eq (n := 0x80 + code / 4096 % 64) (by omega)
    obtain ⟨d, hd⟩ := exists_toNat_eq (n := 0x80 + code / 64 % 64) (by omega)
    obtain ⟨e, he⟩ := exists_toNat_eq (n := 0x80 + code % 64) (by omega)
    have form := Form.four (a := a) (b := b) (d := d) (e := e) (by omega) (by omega) (by omega)
      (by simp only [IsTail]; omega) (by simp only [IsTail]; omega) (by simp only [IsTail]; omega)
    have same : ((a.toNat % 8 * 64 + b.toNat % 64) * 64 + d.toNat % 64) * 64 + e.toNat % 64 =
      code := by omega
    exact ⟨_, same ▸ form⟩

/-- The bounds of a second byte, by the first byte that narrows them. -/
theorem between_ite_iff {m k n : Nat} {low high : UInt8} {b : UInt8} (low_ge : 0x80 ≤ low.toNat)
    (high_le : high.toNat ≤ 0xBF) :
    between (if n = m then low else 0x80) (if n = k then high else 0xBF) b = true ↔
      (n = m → low.toNat ≤ b.toNat) ∧ (n = k → b.toNat ≤ high.toNat) ∧ IsTail b := by
  have tail_low : (0x80 : UInt8).toNat = 0x80 := rfl
  have tail_high : (0xBF : UInt8).toNat = 0xBF := rfl
  rw [between_iff, IsTail]
  split <;> split <;> grind

/-- What is read as a character is one of the forms. -/
theorem Spells.exists_form {units : List UInt8} {c : Char} (spells : Spells units c) :
    ∃ code, Form units code ∧ Char.ofNat code = c := by
  obtain ⟨a, more, rfl⟩ : ∃ a more, units = a :: more := by cases spells <;> exact ⟨_, _, rfl⟩
  have leads : a.toNat < 0x80 ∨ (0xC2 ≤ a.toNat ∧ a.toNat < 0xE0) ∨
      (0xE0 ≤ a.toNat ∧ a.toNat < 0xF0) ∨ (0xF0 ≤ a.toNat ∧ a.toNat < 0xF5) ∨
      0x80 ≤ a.toNat ∧ (a.toNat < 0xC2 ∨ 0xF5 ≤ a.toNat) := by omega
  obtain one | two | three | four | ⟨lower, none⟩ := leads
  · cases spells with
    | alone started =>
        simp only [start_of_one one, Progress.piece.injEq, Piece.char.injEq] at started
        exact ⟨_, .one one, started⟩
    | started started _ => simp [start_of_one one] at started
  · cases spells with
    | alone started => simp [start_of_two two] at started
    | started started finishes =>
        rw [start_of_two two, Progress.more.injEq] at started
        subst started
        obtain ⟨b, rfl, tail, rfl⟩ := Pending.finishes_zero_iff.mp finishes
        exact ⟨_, .two two (between_iff.mp tail), rfl⟩
  · cases spells with
    | alone started => simp [start_of_three three] at started
    | started started finishes =>
        rw [start_of_three three, Progress.more.injEq] at started
        subst started
        obtain ⟨b, _, rfl, fits, finishes⟩ := Pending.finishes_succ_iff.mp finishes
        obtain ⟨d, rfl, tail', rfl⟩ := Pending.finishes_zero_iff.mp finishes
        obtain ⟨low, high, tail⟩ := (between_ite_iff (by decide) (by decide)).mp fits
        exact ⟨_, .three three low high tail (between_iff.mp tail'), rfl⟩
  · cases spells with
    | alone started => simp [start_of_four four] at started
    | started started finishes =>
        rw [start_of_four four, Progress.more.injEq] at started
        subst started
        obtain ⟨b, _, rfl, fits, finishes⟩ := Pending.finishes_succ_iff.mp finishes
        obtain ⟨d, _, rfl, tail', finishes⟩ := Pending.finishes_succ_iff.mp finishes
        obtain ⟨e, rfl, tail'', rfl⟩ := Pending.finishes_zero_iff.mp finishes
        obtain ⟨low, high, tail⟩ := (between_ite_iff (by decide) (by decide)).mp fits
        exact ⟨_, .four four low high tail (between_iff.mp tail') (between_iff.mp tail''), rfl⟩
  · cases spells with
    | alone started => simp [start_of_none lower none] at started
    | started started _ => simp [start_of_none lower none] at started

/-- Each form is read as the character of its code. -/
theorem Form.spells {units : List UInt8} {code : Nat} (form : Form units code) :
    Spells units (Char.ofNat code) := by
  cases form with
  | one lead => exact .alone (start_of_one lead)
  | two lead tail =>
      refine .started (start_of_two lead) (Pending.finishes_zero_iff.mpr ?_)
      exact ⟨_, rfl, between_iff.mpr tail, rfl⟩
  | three lead low high tail tail' =>
      refine .started (start_of_three lead) (Pending.finishes_succ_iff.mpr ?_)
      refine ⟨_, _, rfl, (between_ite_iff (by decide) (by decide)).mpr ⟨low, high, tail⟩, ?_⟩
      exact Pending.finishes_zero_iff.mpr ⟨_, rfl, between_iff.mpr tail', rfl⟩
  | four lead low high tail tail' tail'' =>
      refine .started (start_of_four lead) (Pending.finishes_succ_iff.mpr ?_)
      refine ⟨_, _, rfl, (between_ite_iff (by decide) (by decide)).mpr ⟨low, high, tail⟩, ?_⟩
      refine Pending.finishes_succ_iff.mpr ⟨_, _, rfl, between_iff.mpr tail', ?_⟩
      exact Pending.finishes_zero_iff.mpr ⟨_, rfl, between_iff.mpr tail'', rfl⟩

/-- A character is read from its own bytes, and from no others. -/
theorem spells_iff {units : List UInt8} {c : Char} :
    Spells units c ↔ units = String.utf8EncodeChar c := by
  constructor
  · intro spells
    obtain ⟨code, form, rfl⟩ := spells.exists_form
    exact form.encodeChar.symm
  · rintro rfl
    obtain ⟨units, form⟩ := exists_form c.valid
    have spells := form.spells
    have encoded := form.encodeChar
    rw [show Char.ofNat c.val.toNat = c from Char.ofNat_toNat c] at spells encoded
    rwa [encoded]

/-- A text is read up to a character exactly if it begins with the bytes of that character. -/
theorem read_eq_char_cons_iff {bytes : List UInt8} {c : Char} {tail : List Piece} :
    read none bytes = .char c :: tail ↔
      ∃ rest, bytes = String.utf8EncodeChar c ++ rest ∧ read none rest = tail := by
  constructor
  · intro h
    obtain ⟨units, rest, spells, rfl, rfl⟩ := exists_spells_of_read h
    exact ⟨rest, by rw [spells_iff.mp spells], rfl⟩
  · rintro ⟨rest, rfl, rfl⟩
    exact (spells_iff.mpr rfl).read_append rest

theorem read_some_ne_nil (p : Pending) (bytes : List UInt8) : read (some p) bytes ≠ [] := by
  induction bytes generalizing p with
  | nil => simp [read]
  | cons b bytes ih =>
      cases started : start b <;> cases added : p.add b <;> by_cases fits : p.accepts b = true <;>
        simp [read, fits, started, added, ih]

theorem read_eq_nil_iff {bytes : List UInt8} : read none bytes = [] ↔ bytes = [] := by
  cases bytes with
  | nil => simp [read]
  | cons b bytes => cases started : start b <;> simp [read, started, read_some_ne_nil]

/-- Bytes hold the characters of a text and nothing else exactly if they encode it. -/
theorem pieces_eq_map_char_iff {bytes : List UInt8} {text : List Char} :
    pieces bytes = text.map Piece.char ↔ bytes = encode text := by
  unfold pieces encode
  induction text generalizing bytes with
  | nil => simpa using read_eq_nil_iff
  | cons c text ih =>
      rw [List.map_cons, read_eq_char_cons_iff, List.flatMap_cons]
      simp only [ih, exists_eq_right]

theorem mapM_char?_eq_some_iff {found : List Piece} {text : List Char} :
    found.mapM Piece.char? = some text ↔ found = text.map Piece.char := by
  induction found generalizing text with
  | nil => cases text <;> simp
  | cons piece found ih =>
      cases piece with
      | char c =>
          cases text with
          | nil => simp [Piece.char?, Option.bind_eq_some_iff]
          | cons d text => simp [Piece.char?, Option.bind_eq_some_iff, ih, and_left_comm]
      | invalid => cases text <;> simp [Piece.char?]

/-- Strict decoding gives the text that the bytes encode. -/
theorem decode?_eq_some_iff {bytes : List UInt8} {text : List Char} :
    decode? bytes = some text ↔ bytes = encode text := by
  rw [decode?, mapM_char?_eq_some_iff, pieces_eq_map_char_iff]

/-- Strict decoding fails exactly on bytes that encode no text. -/
theorem decode?_eq_none_iff {bytes : List UInt8} :
    decode? bytes = none ↔ ∀ text, bytes ≠ encode text := by
  simp only [Option.eq_none_iff_forall_ne_some, ne_eq, decode?_eq_some_iff]

theorem encode_inj {text other : List Char} (h : encode text = encode other) : text = other := by
  have decoded : decode? (encode text) = some other := decode?_eq_some_iff.mpr h
  exact Option.some_inj.mp ((decode?_eq_some_iff.mpr rfl).symm.trans decoded)

/-! ### Texts put together -/

theorem encode_append (text more : List Char) : encode (text ++ more) = encode text ++ encode more :=
  List.flatMap_append

theorem exists_form_encodeChar (c : Char) : ∃ code, Form (String.utf8EncodeChar c) code := by
  obtain ⟨code, form, _⟩ := (spells_iff.mpr rfl : Spells _ c).exists_form
  exact ⟨code, form⟩

/-- An ASCII byte is in the bytes of a text only as a character of its own. -/
theorem mem_encode_of_ascii {text : List Char} {b : UInt8} (ascii : b.toNat < 0x80)
    (member : b ∈ encode text) : Char.ofNat b.toNat ∈ text := by
  obtain ⟨c, inText, inChar⟩ := List.mem_flatMap.mp member
  obtain ⟨code, form, rfl⟩ := (spells_iff.mpr rfl : Spells _ c).exists_form
  obtain ⟨_, rfl⟩ := form.eq_singleton ascii inChar
  exact inText

/-- An ASCII byte at the beginning of a text is the first character of the text. -/
theorem encode_eq_cons_iff {text : List Char} {bytes : List UInt8} {b : UInt8} (ascii : b.toNat < 0x80) :
    encode text = b :: bytes ↔ ∃ rest, text = Char.ofNat b.toNat :: rest ∧ encode rest = bytes := by
  constructor
  · intro h
    cases text with
    | nil => simp [encode] at h
    | cons c rest =>
        obtain ⟨code, form, rfl⟩ := (spells_iff.mpr rfl : Spells _ c).exists_form
        obtain ⟨a, more, shape, _⟩ := form.exists_cons
        rw [encode, List.flatMap_cons, shape] at h
        obtain ⟨rfl, _⟩ := List.cons.inj h
        obtain ⟨single, rfl⟩ := form.eq_singleton ascii (by rw [shape]; exact List.mem_cons_self)
        rw [← shape, single] at h
        exact ⟨rest, rfl, (List.cons.inj h).2⟩
  · rintro ⟨rest, rfl, rfl⟩
    rw [encode, List.flatMap_cons, (Form.one ascii).encodeChar]
    rfl

/-- The bytes of one character do not end with those of another. -/
theorem eq_nil_of_encodeChar_eq_append {c d : Char} {front : List UInt8}
    (h : String.utf8EncodeChar d = front ++ String.utf8EncodeChar c) : front = [] := by
  obtain ⟨_, formOne⟩ := exists_form_encodeChar c
  obtain ⟨_, formTwo⟩ := exists_form_encodeChar d
  obtain ⟨a, more, one, lead, _⟩ := formOne.exists_cons
  obtain ⟨b, others, two, _, tails⟩ := formTwo.exists_cons
  rw [one, two] at h
  cases front with
  | nil => rfl
  | cons first front =>
      obtain ⟨_, rfl⟩ := List.cons.inj h
      exact absurd (tails a (by simp)) lead

/-- The bytes of a character at the end of a text are its last character. -/
theorem encode_eq_append_encodeChar_iff {text : List Char} {bytes : List UInt8} {c : Char} :
    encode text = bytes ++ String.utf8EncodeChar c ↔
      ∃ front, text = front ++ [c] ∧ encode front = bytes := by
  have single : ∀ d, encode [d] = String.utf8EncodeChar d := fun d => by simp [encode]
  constructor
  · intro h
    obtain rfl | ⟨front, d, rfl⟩ := List.eq_nil_or_concat text
    · obtain ⟨_, form⟩ := exists_form_encodeChar c
      obtain ⟨a, more, shape, _⟩ := form.exists_cons
      simp [encode, shape] at h
    · rw [List.concat_eq_append] at h ⊢
      rw [encode_append, single, List.append_eq_append_iff] at h
      rcases h with ⟨more, rfl, same⟩ | ⟨more, other, same⟩
      · obtain rfl := eq_nil_of_encodeChar_eq_append same
        rw [List.nil_append, ← single, ← single] at same
        exact ⟨front, by rw [encode_inj same], (List.append_nil _).symm⟩
      · obtain rfl := eq_nil_of_encodeChar_eq_append same
        rw [List.nil_append, ← single, ← single] at same
        exact ⟨front, by rw [encode_inj same], other.trans (List.append_nil _)⟩
  · rintro ⟨front, rfl, rfl⟩
    rw [encode_append, single]

/-- An ASCII byte at the end of a text is the last character of the text. -/
theorem encode_eq_concat_iff {text : List Char} {bytes : List UInt8} {b : UInt8}
    (ascii : b.toNat < 0x80) :
    encode text = bytes ++ [b] ↔
      ∃ front, text = front ++ [Char.ofNat b.toNat] ∧ encode front = bytes := by
  rw [← encode_eq_append_encodeChar_iff, (Form.one ascii).encodeChar]

theorem encode_eq_append_encode_iff {text after : List Char} {bytes : List UInt8} :
    encode text = bytes ++ encode after ↔ ∃ front, text = front ++ after ∧ encode front = bytes := by
  induction after using List.reverseRecOn generalizing text with
  | nil => simp [encode]
  | append_singleton after c ih =>
      rw [encode_append, ← List.append_assoc, show encode [c] = String.utf8EncodeChar c by simp [encode],
        encode_eq_append_encodeChar_iff]
      simp only [ih]
      constructor
      · rintro ⟨_, rfl, front, rfl, rfl⟩
        exact ⟨front, List.append_assoc _ _ _, rfl⟩
      · rintro ⟨front, rfl, rfl⟩
        exact ⟨front ++ after, (List.append_assoc _ _ _).symm, front, rfl, rfl⟩

theorem pieces_encode_append (before : List Char) (bytes : List UInt8) :
    pieces (encode before ++ bytes) = before.map Piece.char ++ pieces bytes := by
  unfold pieces encode
  induction before with
  | nil => rfl
  | cons c before ih =>
      rw [List.flatMap_cons, List.append_assoc, (spells_iff.mpr rfl : Spells _ c).read_append, ih]
      rfl

/-- Behind a text, bytes are decoded as they are alone. -/
theorem decode?_encode_append (before : List Char) (bytes : List UInt8) :
    decode? (encode before ++ bytes) = (decode? bytes).map (before ++ ·) := by
  apply Option.ext
  intro text
  simp only [decode?, mapM_char?_eq_some_iff, Option.map_eq_some_iff, pieces_encode_append]
  constructor
  · intro h
    obtain ⟨front, back, rfl, one, two⟩ := List.append_eq_map_iff.mp h
    have same : front = before := (List.map_inj_right fun _ _ => Piece.char.inj).mp one
    exact ⟨back, two.symm, by rw [same]⟩
  · rintro ⟨back, two, rfl⟩
    rw [two, List.map_append]

/-- In front of a text, bytes are decoded as they are alone: a character that has begun is not finished by it. -/
theorem decode?_append_encode (bytes : List UInt8) (after : List Char) :
    decode? (bytes ++ encode after) = (decode? bytes).map (· ++ after) := by
  apply Option.ext
  intro text
  simp only [Option.map_eq_some_iff, decode?_eq_some_iff]
  rw [eq_comm, encode_eq_append_encode_iff]
  constructor
  · rintro ⟨front, rfl, rfl⟩
    exact ⟨front, rfl, rfl⟩
  · rintro ⟨front, rfl, rfl⟩
    exact ⟨front, rfl, rfl⟩

end GameClient.Text.Utf8
