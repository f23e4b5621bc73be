import GameClient.Proofs.Utf8
import Mathlib.Data.List.Infix
import Mathlib.Data.Set.List
/-!
Lossy decoding. Where no character stands, the invalid part is the longest run of bytes that begins a character,
or one byte if none does. `Cuts` says so of whole texts, in the words of the encoding alone; every sequence of
bytes is cut in one way, which is the one that the reader finds, and lossy decoding changes the invalid parts and
nothing else.
-/

namespace GameClient.Text.Utf8

/-- A character begins with the bytes and goes on behind them. -/
def Begins (units : List UInt8) : Prop :=
  ∃ c more, more ≠ [] ∧ String.utf8EncodeChar c = units ++ more

/-- The part is invalid where the rest follows it: no character stands there, and as much is taken as begins
one, but at least one byte. -/
structure IsInvalidPart (part rest : List UInt8) : Prop where
  nonempty : part ≠ []
  noChar : ∀ c, ¬ String.utf8EncodeChar c <+: part ++ rest
  begins : Begins part ∨ part.length = 1
  longest : ∀ longer, longer <+: part ++ rest → Begins longer → longer.length ≤ part.length

/-- The bytes are the characters and the invalid parts, one behind the other. -/
inductive Cuts : List UInt8 → List Piece → Prop where
  | nil : Cuts [] []
  | char {c : Char} {rest : List UInt8} {found : List Piece} (cuts : Cuts rest found) :
      Cuts (String.utf8EncodeChar c ++ rest) (.char c :: found)
  | invalid {part rest : List UInt8} {found : List Piece} (isPart : IsInvalidPart part rest)
      (cuts : Cuts rest found) : Cuts (part ++ rest) (.invalid :: found)

/-! ### The bytes of a character that has begun -/

namespace Pending

/-- Bytes that go on with a character, up to a place inside it. -/
inductive Leads : Pending → List UInt8 → Pending → Prop where
  | here {p : Pending} : Leads p [] p
  | next {p q r : Pending} {b : UInt8} {more : List UInt8} (fits : p.accepts b = true)
      (added : p.add b = .more q) (leads : Leads q more r) : Leads p (b :: more) r

/-- The character can go on with the least byte between its bounds. -/
def IsOpen (p : Pending) : Prop :=
  p.accepts p.lo = true

variable {p q : Pending} {b : UInt8} {units more : List UInt8} {c : Char}

theorem isOpen_of_start (started : start b = .more p) : p.IsOpen := by
  unfold start at started
  repeat' split at started
  all_goals
    cases started
    try rfl

theorem isOpen_of_add (added : p.add b = .more q) : q.IsOpen := by
  unfold add at added
  cases owed : p.owed with
  | zero => simp [owed] at added
  | succ n =>
      simp only [owed, Progress.more.injEq] at added
      rw [← added]
      rfl

theorem exists_char_of_add {piece : Piece} (added : p.add b = .piece piece) : ∃ c, piece = .char c := by
  unfold add at added
  cases owed : p.owed with
  | zero =>
      simp only [owed, Progress.piece.injEq] at added
      exact ⟨_, added.symm⟩
  | succ n => simp [owed] at added

theorem Leads.isOpen (leads : p.Leads units q) (isOpen : p.IsOpen) : q.IsOpen := by
  induction leads with
  | here => exact isOpen
  | next _ added _ ih => exact ih (isOpen_of_add added)

/-- A character that can go on can be finished. -/
theorem IsOpen.exists_finishes (isOpen : p.IsOpen) : ∃ more c, p.Finishes more c := by
  obtain ⟨code, owed, lo, hi⟩ := p
  induction owed generalizing code lo hi with
  | zero => exact ⟨[lo], _, .last isOpen rfl⟩
  | succ owed ih =>
      have later : IsOpen ⟨code * 64 + lo.toNat % 64, owed, 0x80, 0xBF⟩ := rfl
      obtain ⟨more, c, finishes⟩ := ih _ _ _ later
      exact ⟨lo :: more, c, .next isOpen rfl finishes⟩

/-- A character that has begun is finished by at least one byte more. -/
theorem Finishes.exists_cons (finishes : p.Finishes units c) :
    ∃ b more, units = b :: more ∧ p.accepts b = true := by
  cases finishes with
  | last fits _ => exact ⟨_, _, rfl, fits⟩
  | next fits _ _ => exact ⟨_, _, rfl, fits⟩

theorem Finishes.of_add (finishes : p.Finishes (b :: more) c) (added : p.add b = .more q) :
    q.Finishes more c := by
  cases finishes with
  | last _ added' => simp [added] at added'
  | next _ added' finishes =>
      rw [added, Progress.more.injEq] at added'
      rwa [added']

/-- Behind bytes that lead to a place inside a character, the character is finished from there. -/
theorem Leads.finishes_append_iff (leads : p.Leads units q) :
    p.Finishes (units ++ more) c ↔ q.Finishes more c := by
  induction leads with
  | here => rfl
  | next fits added _ ih =>
      rw [← ih]
      constructor
      · intro finishes
        exact finishes.of_add added
      · intro finishes
        exact .next fits added finishes

/-- Bytes that finish a character do not also lead to a place inside it. -/
theorem Finishes.not_leads (finishes : p.Finishes units c) : ¬ p.Leads (units ++ more) q := by
  induction finishes with
  | last _ added =>
      intro leads
      cases leads with
      | next _ added' _ => simp [added] at added'
  | next _ added _ ih =>
      intro leads
      cases leads with
      | next _ added' leads =>
          rw [added, Progress.more.injEq] at added'
          exact ih (added' ▸ leads)

/-- No character goes beyond the place at which the next byte does not fit. -/
theorem Leads.length_le {rest longer : List UInt8} (leads : p.Leads units q)
    (stop : ∀ d ∈ rest.head?, q.accepts d = false) (inside : longer <+: units ++ rest)
    (finishes : p.Finishes (longer ++ more) c) : longer.length ≤ units.length := by
  by_contra beyond
  obtain ⟨after, rfl⟩ : units <+: longer :=
    List.prefix_of_prefix_length_le (List.prefix_append units rest) inside (by omega)
  obtain ⟨d, later, rfl⟩ : ∃ d later, after = d :: later := by
    cases after with
    | nil => simp at beyond
    | cons d later => exact ⟨d, later, rfl⟩
  rw [List.append_assoc, leads.finishes_append_iff] at finishes
  obtain ⟨_, _, shape, fits⟩ := finishes.exists_cons
  obtain ⟨rfl, _⟩ := List.cons.inj shape
  have first : rest.head? = some d := by
    obtain ⟨tail, same⟩ := inside
    rw [List.append_assoc, List.append_cancel_left_eq] at same
    rw [← same]
    rfl
  rw [stop d first] at fits
  exact Bool.noConfusion fits

end Pending

section Start

variable {b : UInt8} {p q : Pending} {more rest : List UInt8} {c : Char}

theorem Spells.exists_cons {units : List UInt8} (spells : Spells units c) :
    ∃ b more, units = b :: more := by
  cases spells <;> exact ⟨_, _, rfl⟩

theorem Spells.finishes (spells : Spells (b :: more) c) (started : start b = .more p) :
    p.Finishes more c := by
  cases spells with
  | alone started' => simp [started] at started'
  | started started' finishes =>
      rw [started, Progress.more.injEq] at started'
      rwa [started']

theorem not_spells_of_start (started : start b = .piece .invalid) : ¬ Spells (b :: more) c := by
  intro spells
  cases spells with
  | alone started' => simp [started] at started'
  | started started' _ => simp [started] at started'

/-- A byte that starts nothing is an invalid part. -/
theorem isInvalidPart_of_start (started : start b = .piece .invalid) : IsInvalidPart [b] rest where
  nonempty := by simp
  noChar := by
    intro c inside
    obtain ⟨d, more, units⟩ := (spells_iff.mpr rfl : Spells _ c).exists_cons
    rw [units, List.singleton_append, List.cons_prefix_cons] at inside
    rw [inside.1] at units
    exact not_spells_of_start started (spells_iff.mpr units.symm)
  begins := Or.inr rfl
  longest := by
    rintro longer inside ⟨c, more, _, units⟩
    cases longer with
    | nil => simp
    | cons d later =>
        rw [List.singleton_append, List.cons_prefix_cons] at inside
        rw [inside.1, List.cons_append] at units
        exact absurd (spells_iff.mpr units.symm) (not_spells_of_start started)

/-- The bytes of a character up to one that does not fit are an invalid part. -/
theorem isInvalidPart_of_leads (started : start b = .more p) (leads : p.Leads more q)
    (stop : ∀ d ∈ rest.head?, q.accepts d = false) : IsInvalidPart (b :: more) rest where
  nonempty := by simp
  noChar := by
    intro c inside
    obtain ⟨d, later, units⟩ := (spells_iff.mpr rfl : Spells _ c).exists_cons
    rw [units, List.cons_append, List.cons_prefix_cons] at inside
    obtain ⟨rfl, inside⟩ := inside
    have finishes := (spells_iff.mpr units.symm).finishes started
    have whole : p.Finishes (later ++ []) c := by rwa [List.append_nil]
    have short := leads.length_le stop inside whole
    obtain ⟨tail, rfl⟩ : later <+: more :=
      List.prefix_of_prefix_length_le inside (List.prefix_append more rest) short
    exact finishes.not_leads leads
  begins := by
    obtain ⟨after, c, finishes⟩ := (leads.isOpen (Pending.isOpen_of_start started)).exists_finishes
    obtain ⟨_, _, shape, _⟩ := finishes.exists_cons
    have spells : Spells (b :: (more ++ after)) c :=
      .started started (leads.finishes_append_iff.mpr finishes)
    exact Or.inl ⟨c, after, by simp [shape], (spells_iff.mp spells).symm⟩
  longest := by
    rintro longer inside ⟨c, after, _, units⟩
    cases longer with
    | nil => simp
    | cons d later =>
        rw [List.cons_append, List.cons_prefix_cons] at inside
        obtain ⟨rfl, inside⟩ := inside
        have finishes := (spells_iff.mpr units.symm).finishes started
        simpa using leads.length_le stop inside finishes

end Start

/-! ### The pieces that the reader finds -/

/-- From inside a character the reader finishes it, or it comes to a byte that does not fit. -/
theorem read_some_cases (p : Pending) (bytes : List UInt8) :
    (∃ units rest c, p.Finishes units c ∧ bytes = units ++ rest) ∨
      ∃ units rest q, p.Leads units q ∧ (∀ d ∈ rest.head?, q.accepts d = false) ∧
        bytes = units ++ rest ∧ read (some p) bytes = .invalid :: read none rest := by
  induction bytes generalizing p with
  | nil => exact Or.inr ⟨[], [], p, .here, by simp, rfl, by simp [read]⟩
  | cons b bytes ih =>
      by_cases fits : p.accepts b = true
      · cases added : p.add b with
        | piece piece =>
            obtain ⟨c, rfl⟩ := Pending.exists_char_of_add added
            exact Or.inl ⟨[b], bytes, c, .last fits added, rfl⟩
        | more q =>
            rcases ih q with ⟨units, rest, c, finishes, rfl⟩ | ⟨units, rest, r, leads, stop, rfl, found⟩
            · exact Or.inl ⟨b :: units, rest, c, .next fits added finishes, rfl⟩
            · refine Or.inr ⟨b :: units, rest, r, .next fits added leads, stop, rfl, ?_⟩
              simpa [read, fits, added] using found
      · refine Or.inr ⟨[], b :: bytes, p, .here, by simpa using fits, rfl, ?_⟩
        cases started : start b <;> simp [read, fits, started]

/-- The reader finds a character, or it finds an invalid part. -/
theorem read_none_cases {bytes : List UInt8} (nonempty : bytes ≠ []) :
    (∃ c rest, bytes = String.utf8EncodeChar c ++ rest) ∨
      ∃ part rest, IsInvalidPart part rest ∧ bytes = part ++ rest ∧
        read none bytes = .invalid :: read none rest := by
  obtain ⟨b, bytes, rfl⟩ := List.exists_cons_of_ne_nil nonempty
  cases started : start b with
  | piece piece =>
      cases piece with
      | char c =>
          have units := spells_iff.mp (.alone started)
          exact Or.inl ⟨c, bytes, by rw [← units]; rfl⟩
      | invalid =>
          exact Or.inr ⟨[b], bytes, isInvalidPart_of_start started, rfl, by simp [read, started]⟩
  | more p =>
      rcases read_some_cases p bytes with
        ⟨units, rest, c, finishes, rfl⟩ | ⟨units, rest, q, leads, stop, rfl, found⟩
      · have all := spells_iff.mp (.started started finishes)
        exact Or.inl ⟨c, rest, by rw [← all]; rfl⟩
      · refine Or.inr ⟨b :: units, rest, isInvalidPart_of_leads started leads stop, rfl, ?_⟩
        simpa [read, started] using found

theorem IsInvalidPart.length_le {part rest part' rest' : List UInt8} (h : IsInvalidPart part rest)
    (h' : IsInvalidPart part' rest') (same : part ++ rest = part' ++ rest') :
    part'.length ≤ part.length := by
  rcases h'.begins with begins | single
  · exact h.longest part' (by rw [same]; exact List.prefix_append part' rest') begins
  · rw [single]
    exact List.length_pos_iff.mpr h.nonempty

/-- There is one invalid part at a place. -/
theorem IsInvalidPart.unique {part rest part' rest' : List UInt8} (h : IsInvalidPart part rest)
    (h' : IsInvalidPart part' rest') (same : part ++ rest = part' ++ rest') :
    part = part' ∧ rest = rest' :=
  List.append_inj same (Nat.le_antisymm (h'.length_le h same.symm) (h.length_le h' same))

theorem cuts_pieces (bytes : List UInt8) : Cuts bytes (pieces bytes) := by
  -- By induction on the number of bytes: behind a character or an invalid part fewer are left.
  unfold pieces
  induction length : bytes.length using Nat.strongRecOn generalizing bytes with
  | ind n ih =>
      by_cases empty : bytes = []
      · rw [empty]
        exact .nil
      · rcases read_none_cases empty with ⟨c, rest, rfl⟩ | ⟨part, rest, isPart, rfl, found⟩
        · rw [(spells_iff.mpr rfl).read_append rest]
          refine .char (ih rest.length ?_ rest rfl)
          obtain ⟨b, more, units⟩ := (spells_iff.mpr rfl : Spells _ c).exists_cons
          simp only [← length, units, List.length_append, List.length_cons]
          omega
        · rw [found]
          refine .invalid isPart (ih rest.length ?_ rest rfl)
          have positive := List.length_pos_iff.mpr isPart.nonempty
          simp only [← length, List.length_append]
          omega

/-- The reader finds the only pieces into which the bytes are cut. -/
theorem cuts_iff {bytes : List UInt8} {found : List Piece} : Cuts bytes found ↔ pieces bytes = found := by
  constructor
  · intro cuts
    unfold pieces
    induction cuts with
    | nil => rfl
    | char _ ih => rw [(spells_iff.mpr rfl).read_append, ih]
    | invalid isPart _ ih =>
        rcases read_none_cases (List.append_ne_nil_of_left_ne_nil isPart.nonempty _) with
          ⟨c, rest, same⟩ | ⟨part, rest, isPart', same, found⟩
        · exact absurd ⟨rest, same.symm⟩ (isPart.noChar c)
        · obtain ⟨rfl, rfl⟩ := isPart.unique isPart' same
          rw [found, ih]
  · intro found
    rw [← found]
    exact cuts_pieces bytes

/-- A list is the image of another one exactly if each of its members is an image. -/
theorem exists_eq_map_iff {α β : Type} {f : α → β} {images : List β} :
    (∃ items : List α, images = items.map f) ↔ ∀ image ∈ images, ∃ item, image = f item := by
  have range := Set.ext_iff.mp (Set.range_list_map f) images
  simpa only [Set.mem_range, Set.mem_ofPred_eq, eq_comm] using range

/-- Bytes encode a text exactly if no part of them is invalid. -/
theorem invalid_mem_pieces_iff {bytes : List UInt8} :
    .invalid ∈ pieces bytes ↔ ¬ ∃ text, bytes = encode text := by
  simp only [← pieces_eq_map_char_iff, exists_eq_map_iff]
  constructor
  · intro invalid every
    obtain ⟨c, same⟩ := every _ invalid
    exact Piece.noConfusion same
  · intro notEvery
    by_contra missing
    apply notEvery
    intro piece member
    cases piece with
    | char c => exact ⟨c, rfl⟩
    | invalid => exact absurd member missing

/-- Lossy decoding shows where bytes encode no text. -/
theorem replacement_mem_decodeLossy {bytes : List UInt8} (garbled : ¬ ∃ text, bytes = encode text) :
    '\ufffd' ∈ decodeLossy bytes := by
  have invalid := invalid_mem_pieces_iff.mpr garbled
  exact List.mem_map_of_mem (f := Piece.orReplacement) invalid

end GameClient.Text.Utf8
