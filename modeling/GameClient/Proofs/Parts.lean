import GameClient.Address.Parts
import GameClient.Proofs.Cut
/-!
The cutting of a text into the parts of an address. Nothing is lost by it, each part is free of the
marks that end it, and parts that are so are found again in the text that they make.
-/

namespace GameClient.Address

open Text

namespace Target

/-- Each part of the target is free of the marks that end it. -/
structure WellFormed (target : Target) : Prop where
  path_free : ∀ c ∈ target.path, endsPath c = false
  query_free : ∀ query ∈ target.query, '#' ∉ query

/-- The text is empty or starts with the mark. -/
def BeginsAt (mark : Char) (text : List Char) : Prop :=
  ∀ c ∈ text.head?, c = mark

theorem withMark_marked {mark : Char} {text : List Char} (h : BeginsAt mark text) :
    withMark mark (marked mark text) = text := by
  cases text with
  | nil => rfl
  | cons c rest =>
      have here : c = mark := h c rfl
      simp [marked, withMark, here]

theorem marked_withMark (mark : Char) (part : Option (List Char)) :
    marked mark (withMark mark part) = part := by
  cases part <;> simp [marked, withMark]

/-- What is left behind a path is cut in two at the first `#`. -/
theorem beginsAt_of_stops {rest : List Char} (stop : Stops (fun c => !endsPath c) rest) :
    BeginsAt '?' (rest.takeWhile fun c => c != '#') ∧
      BeginsAt '#' (rest.dropWhile fun c => c != '#') := by
  constructor
  · cases rest with
    | nil => simp [BeginsAt]
    | cons c rest =>
        have mark : c = '?' ∨ c = '#' := by
          have ends := stops_cons.mp stop
          simp only [endsPath, Bool.not_eq_false', Bool.or_eq_true, beq_iff_eq] at ends
          exact ends
        rcases mark with rfl | rfl <;> simp [BeginsAt]
  · intro c first
    have fits := stops_dropWhile (fun c => c != '#') rest c first
    simpa using fits

theorem text_split (text : List Char) : (split text).text = text := by
  have marks := beginsAt_of_stops (stops_dropWhile (fun c => !endsPath c) text)
  simp only [split, Target.text, withMark_marked marks.1, withMark_marked marks.2,
    List.append_assoc, List.takeWhile_append_dropWhile]

theorem wellFormed_split (text : List Char) : (split text).WellFormed where
  path_free c member := by
    simpa using List.mem_takeWhile_imp member
  query_free query found hash := by
    have marks := beginsAt_of_stops (stops_dropWhile (fun c => !endsPath c) text)
    have part := withMark_marked marks.1
    rw [show marked '?' _ = some query from found] at part
    have member : '#' ∈ withMark '?' (some query) := List.mem_cons_of_mem _ hash
    rw [part] at member
    simpa using List.mem_takeWhile_imp member

/-- A path ends where the marks behind it begin. -/
theorem stops_marks (query fragment : Option (List Char)) :
    Stops (fun c => !endsPath c) (withMark '?' query ++ withMark '#' fragment) := by
  cases query <;> cases fragment <;> simp [Stops, withMark, endsPath]

theorem split_text {target : Target} (h : target.WellFormed) : split target.text = target := by
  have stopPath := stops_marks target.query target.fragment
  have freePath : ∀ c ∈ target.path, (!endsPath c) = true := by
    simpa using h.path_free
  have freeQuery : ∀ c ∈ withMark '?' target.query, (c != '#') = true := by
    intro c member
    cases found : target.query with
    | none => simp [found, withMark] at member
    | some query =>
        rw [found, withMark, List.mem_cons] at member
        rcases member with rfl | later
        · decide
        · have free := h.query_free query found
          simp only [bne_iff_ne]
          rintro rfl
          exact free later
  have stopQuery : Stops (fun c => c != '#') (withMark '#' target.fragment) := by
    cases target.fragment <;> simp [Stops, withMark]
  simp only [split, Target.text, List.append_assoc, takeWhile_append_of_stops freePath stopPath,
    dropWhile_append_of_stops freePath stopPath, takeWhile_append_of_stops freeQuery stopQuery,
    dropWhile_append_of_stops freeQuery stopQuery, marked_withMark]

end Target

namespace Parts

/-- The text has a scheme: `name` stands before its first colon, and before any `/`, `?` or `#`. -/
structure SchemePart (text name rest : List Char) : Prop where
  shape : text = name ++ ':' :: rest
  nonempty : name ≠ []
  free : ∀ c ∈ name, endsScheme c = false

theorem splitScheme_of_schemePart {text name rest : List Char} (h : SchemePart text name rest) :
    splitScheme text = (some name, rest) := by
  have fits : ∀ c ∈ name, (!endsScheme c) = true := by
    simpa using h.free
  have stop : Stops (fun c => !endsScheme c) (':' :: rest) := by
    simp [Stops, endsScheme]
  unfold splitScheme
  rw [h.shape, takeWhile_append_of_stops fits stop, dropWhile_append_of_stops fits stop]
  cases name with
  | nil => exact absurd rfl h.nonempty
  | cons c name => rfl

theorem splitScheme_eq_some_iff {text name rest : List Char} :
    splitScheme text = (some name, rest) ↔ SchemePart text name rest := by
  constructor
  · intro h
    have whole := List.takeWhile_append_dropWhile (p := fun c => !endsScheme c) (l := text)
    unfold splitScheme at h
    split at h
    · next c name' rest' run left =>
        rw [run, left] at whole
        cases h
        refine ⟨whole.symm, by simp, fun d member => ?_⟩
        rw [← run] at member
        simpa using List.mem_takeWhile_imp member
    · simp at h
  · exact splitScheme_of_schemePart

theorem splitScheme_eq_none_iff {text : List Char} :
    (splitScheme text).1 = none ↔ ∀ name rest, ¬ SchemePart text name rest := by
  constructor
  · intro h name rest part
    rw [splitScheme_of_schemePart part] at h
    simp at h
  · intro without
    cases cut : splitScheme text with
    | mk scheme rest =>
        cases scheme with
        | none => rfl
        | some name => exact absurd (splitScheme_eq_some_iff.mp cut) (without name rest)

/-- Without a scheme nothing is cut off. -/
theorem splitScheme_of_none {text : List Char} (h : (splitScheme text).1 = none) :
    splitScheme text = (none, text) := by
  unfold splitScheme at h ⊢
  split at h
  · simp at h
  · rfl

theorem endsAuthority_iff {c : Char} : endsAuthority c = true ↔ c = '/' ∨ c = '?' ∨ c = '#' := by
  simp only [endsAuthority, Bool.or_eq_true, beq_iff_eq, or_assoc]

/-- The text starts with two slashes and an authority, which goes up to the next `/`, `?` or `#`. -/
structure AuthorityPart (text authority rest : List Char) : Prop where
  shape : text = '/' :: '/' :: (authority ++ rest)
  free : ∀ c ∈ authority, endsAuthority c = false
  stop : Stops (fun c => !endsAuthority c) rest

theorem splitAuthority_of_authorityPart {text authority rest : List Char}
    (h : AuthorityPart text authority rest) : splitAuthority text = (some authority, rest) := by
  have fits : ∀ c ∈ authority, (!endsAuthority c) = true := by
    simpa using h.free
  rw [h.shape, splitAuthority, takeWhile_append_of_stops fits h.stop,
    dropWhile_append_of_stops fits h.stop]

theorem splitAuthority_eq_some_iff {text authority rest : List Char} :
    splitAuthority text = (some authority, rest) ↔ AuthorityPart text authority rest := by
  constructor
  · intro h
    unfold splitAuthority at h
    split at h
    · next after =>
        cases h
        refine ⟨by rw [List.takeWhile_append_dropWhile], fun c member => ?_,
          stops_dropWhile _ _⟩
        simpa using List.mem_takeWhile_imp member
    · simp at h
  · exact splitAuthority_of_authorityPart

/-- Without two slashes there is no authority, and nothing is cut off. -/
theorem splitAuthority_of_no_slashes {text : List Char} (h : ¬ ['/', '/'] <+: text) :
    splitAuthority text = (none, text) := by
  unfold splitAuthority
  split
  · next rest => exact absurd ⟨rest, rfl⟩ h
  · rfl

theorem exists_authorityPart {text : List Char} (h : ['/', '/'] <+: text) :
    ∃ authority rest, AuthorityPart text authority rest := by
  obtain ⟨after, rfl⟩ := h
  exact ⟨_, _, splitAuthority_eq_some_iff.mp rfl⟩

/-- The authority behind a scheme; without two slashes it is the empty text. -/
def ServerPart (after server : List Char) : Prop :=
  (∃ rest, AuthorityPart after server rest) ∨ (¬ ['/', '/'] <+: after ∧ server = [])

theorem serverPart_splitAuthority (after : List Char) :
    ServerPart after ((splitAuthority after).1.getD []) := by
  by_cases slashes : ['/', '/'] <+: after
  · obtain ⟨server, rest, part⟩ := exists_authorityPart slashes
    rw [splitAuthority_of_authorityPart part]
    exact Or.inl ⟨rest, part⟩
  · rw [splitAuthority_of_no_slashes slashes]
    exact Or.inr ⟨slashes, rfl⟩

theorem serverPart_iff {after server : List Char} :
    ServerPart after server ↔ (splitAuthority after).1.getD [] = server := by
  constructor
  · intro h
    rcases h with ⟨rest, part⟩ | ⟨without, rfl⟩
    · rw [splitAuthority_of_authorityPart part]
      rfl
    · rw [splitAuthority_of_no_slashes without]
      rfl
  · intro h
    rw [← h]
    exact serverPart_splitAuthority after

theorem ServerPart.unique {after one two : List Char} (h : ServerPart after one)
    (h' : ServerPart after two) : one = two := by
  rw [← serverPart_iff.mp h, serverPart_iff.mp h']

theorem SchemePart.unique {text name name' rest rest' : List Char}
    (one : SchemePart text name rest) (two : SchemePart text name' rest') :
    name = name' ∧ rest = rest' := by
  have same := splitScheme_of_schemePart one
  rw [splitScheme_of_schemePart two] at same
  simpa [eq_comm] using same

theorem AuthorityPart.unique {text authority authority' rest rest' : List Char}
    (one : AuthorityPart text authority rest) (two : AuthorityPart text authority' rest') :
    authority = authority' ∧ rest = rest' := by
  have same := splitAuthority_of_authorityPart one
  rw [splitAuthority_of_authorityPart two] at same
  simpa [eq_comm] using same

/-- A text with a scheme and an authority is cut at both, and the rest of it is a target. -/
theorem split_of_parts {text name after authority rest : List Char}
    (scheme : SchemePart text name after) (server : AuthorityPart after authority rest) :
    split text = ⟨some name, some authority, Target.split rest⟩ := by
  simp only [split, splitScheme_of_schemePart scheme, splitAuthority_of_authorityPart server]

end Parts

end GameClient.Address
