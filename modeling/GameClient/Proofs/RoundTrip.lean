import GameClient.Address.Basic
import GameClient.Proofs.Blank
import GameClient.Proofs.Legal
import GameClient.Proofs.Reading
/-!
Addresses that are read back from their own text. `WellFormed` holds of every address that the reader
gives, and reading the text of a well-formed address gives that address again: no part of it can be
taken for a part of another kind.
-/

namespace GameClient.Address

open Text Parts

namespace Target

/-- A target is legal when its parts are, since each mark between them may be cut at. -/
theorem isLegal_text_iff {target : Target} :
    isLegal target.text = true ↔
      isLegal target.path = true ∧ (∀ query ∈ target.query, isLegal query = true) ∧
        ∀ fragment ∈ target.fragment, isLegal fragment = true := by
  have question : isMark '?' = true := by decide
  have hash : isMark '#' = true := by decide
  obtain ⟨path, query, fragment⟩ := target
  cases query <;> cases fragment <;>
    simp [Target.text, withMark, isLegal_append_mark question, isLegal_append_mark hash]

end Target

/-- The parts of the address are free of the marks around them, and their characters are legal. -/
structure WellFormed (address : Address) : Prop where
  spelled : Authority.Spells address.authority.text address.authority
  authority_free : ∀ c ∈ address.authority.text, endsAuthority c = false
  authority_legal : isLegal address.authority.text = true
  target : address.target.WellFormed
  target_legal : isLegal address.target.text = true
  rooted : ∀ c ∈ address.target.path.head?, c = '/'

/-! ### From an address to its text and back -/

/-- A target starts with one of the marks that end an authority. -/
theorem Target.stops_text {target : Target} (rooted : ∀ c ∈ target.path.head?, c = '/') :
    Stops (fun c => !endsAuthority c) target.text := by
  obtain ⟨path, query, fragment⟩ := target
  cases path with
  | nil => cases query <;> cases fragment <;> simp [Stops, Target.text, withMark, endsAuthority]
  | cons c rest =>
      have slash : c = '/' := rooted c rfl
      simp [Stops, Target.text, slash, endsAuthority]

namespace WellFormed

variable {address : Address}

theorem isLegal_text (h : address.WellFormed) : isLegal address.text = true := by
  have scheme : isLegal (address.scheme.text ++ [':', '/', '/']) = true := by
    cases address.scheme <;> decide
  exact isLegal_append (isLegal_append scheme h.authority_legal) h.target_legal

theorem isWellSpelled_text (h : address.WellFormed) : isWellSpelled address.text = true := by
  have first : address.text.head? = some 'h' := by
    unfold Address.text
    cases address.scheme <;> rfl
  rw [isWellSpelled, first, h.isLegal_text]
  decide

theorem schemePart_text (address : Address) :
    SchemePart address.text address.scheme.text
      ('/' :: '/' :: (address.authority.text ++ address.target.text)) where
  shape := by simp [Address.text]
  nonempty := by cases address.scheme <;> decide
  free := by cases address.scheme <;> simp [Scheme.text, endsScheme]

theorem authorityPart_text (h : address.WellFormed) :
    AuthorityPart ('/' :: '/' :: (address.authority.text ++ address.target.text))
      address.authority.text address.target.text where
  shape := rfl
  free := h.authority_free
  stop := Target.stops_text h.rooted

/-- The text of a well-formed address gives the address back. -/
theorem read_text (h : address.WellFormed) : read address.text = .ok address := by
  have parts : split address.text =
      ⟨some address.scheme.text, some address.authority.text, address.target⟩ := by
    rw [split_of_parts (schemePart_text address) h.authorityPart_text, Target.split_text h.target]
  have scheme : Scheme.ofText? address.scheme.text = some address.scheme :=
    Scheme.ofText?_eq_some_iff.mpr rfl
  have authority : Authority.read address.authority.text = some address.authority :=
    Authority.read_eq_some_iff.mpr h.spelled
  simp [read, ofParts, h.isWellSpelled_text, parts, Scheme.isName_text, scheme, authority]

/-- There is no white space in the text, so none goes with trimming. -/
theorem trim_toString (h : address.WellFormed) : trim address.toString.toList = address.text := by
  rw [Address.toString, String.toList_ofList]
  exact trim_eq_self (isBlank_eq_false_of_isLegal h.isLegal_text)

end WellFormed

/-! ### From a text to an address -/

namespace Authority

theorem isPlain_of_isHostChar {c : Char} (h : Host.isHostChar c = true) : isPlain c = true := by
  simp only [Host.isHostChar, Host.isNameChar, Host.isLabelChar, Bool.or_eq_true, beq_iff_eq] at h
  rcases h with ((((alphanum | rfl) | rfl) | rfl) | rfl) | rfl
  · simp [isPlain, alphanum]
  all_goals decide

theorem isPlain_of_mem_port {text : List Char} {port : Option Nat} (h : SpellsPort text port)
    {c : Char} (member : c ∈ text) : isPlain c = true := by
  rcases h.mem member with rfl | digit
  · decide
  · simp [isPlain, Host.isAlphanum_of_isDigit digit]

theorem endsAuthority_of_mem_port {text : List Char} {port : Option Nat} (h : SpellsPort text port)
    {c : Char} (member : c ∈ text) : endsAuthority c = false := by
  rw [Bool.eq_false_iff]
  intro ends
  rcases endsAuthority_iff.mp ends with rfl | rfl | rfl
  all_goals exact h.not_mem (by decide) (by decide) member

theorem endsAuthority_of_isHostChar {c : Char} (h : Host.isHostChar c = true) :
    endsAuthority c = false := by
  rw [Bool.eq_false_iff]
  intro ends
  rcases endsAuthority_iff.mp ends with rfl | rfl | rfl
  all_goals exact absurd h (by decide)

/-- Printing changes only the port, so it keeps an authority free of the marks around it. -/
theorem free_text_of_spells {server : List Char} {authority : Authority}
    (spells : Spells server authority) (free : ∀ c ∈ server, endsAuthority c = false) :
    ∀ c ∈ authority.text, endsAuthority c = false := by
  obtain ⟨isServer, port, spelled, shape⟩ := spells
  intro c member
  simp only [text_eq, List.mem_append] at member
  rcases member with user | inHost | inPort
  · apply free
    simp [shape, user]
  · apply free
    simp [shape, inHost]
  · exact endsAuthority_of_mem_port spelled.portMark inPort

/-- Printing keeps an authority legal. -/
theorem isLegal_text_of_spells {server : List Char} {authority : Authority}
    (spells : Spells server authority) (legal : isLegal server = true) :
    isLegal authority.text = true := by
  obtain ⟨isServer, port, spelled, shape⟩ := spells
  have host : isLegal (authority.host ++ portMark authority.port) = true := by
    apply isLegal_of_forall_isPlain
    intro c member
    rcases List.mem_append.mp member with inHost | inPort
    · exact isPlain_of_isHostChar (Host.isHostChar_of_mem isServer inHost)
    · exact isPlain_of_mem_port spelled.portMark inPort
  have user : isLegal (userMark authority.userinfo) = true := by
    cases found : authority.userinfo with
    | none => rfl
    | some user =>
        have cut : isLegal (user ++ '@' :: (authority.host ++ port)) = true := by
          simpa [shape, found, userMark] using legal
        have before := ((isLegal_append_mark (by decide) _ _).mp cut).1
        exact isLegal_append before (by decide)
  rw [text_eq]
  exact isLegal_append user host

end Authority

/-- Behind an authority, a path is empty or starts with a slash. -/
theorem rooted_of_stops {rest : List Char} (stop : Stops (fun c => !endsAuthority c) rest) :
    ∀ c ∈ (Target.split rest).path.head?, c = '/' := by
  cases rest with
  | nil => simp [Target.split]
  | cons d rest =>
      have ends : endsAuthority d = true := by
        simpa using stops_cons.mp stop
      rcases endsAuthority_iff.mp ends with rfl | rfl | rfl <;>
        simp [Target.split, Target.endsPath]

/-- No escape goes across the end of an authority. -/
theorem isHexDigit_of_endsAuthority (c : Char) (h : (!endsAuthority c) = false) :
    c.isHexDigit = false := by
  have ends : endsAuthority c = true := by
    simpa using h
  rcases endsAuthority_iff.mp ends with rfl | rfl | rfl <;> rfl

/-- What the reader gives is well formed. -/
theorem wellFormed_of_read {text : List Char} {address : Address} (h : read text = .ok address) :
    address.WellFormed := by
  have reading := reading_read text
  rw [h] at reading
  cases reading with
  | @complete scheme after server rest authority spelled part place spells =>
      have legal : isLegal text = true := by
        simp only [isWellSpelled, Bool.and_eq_true] at spelled
        exact spelled.2
      have legalServer : isLegal (server ++ rest) = true := by
        rw [part.shape, isLegal_append_mark (by decide), place.shape] at legal
        have first := (isLegal_cons_of_ne (by decide) _).mp legal.2
        exact ((isLegal_cons_of_ne (by decide) _).mp first.2).2
      have stop : Stops Char.isHexDigit rest := place.stop.mono isHexDigit_of_endsAuthority
      have both := (isLegal_append_iff stop).mp legalServer
      exact
        { spelled := spells.text
          authority_free := Authority.free_text_of_spells spells place.free
          authority_legal := Authority.isLegal_text_of_spells spells both.1
          target := Target.wellFormed_split rest
          target_legal := by rw [Target.text_split]; exact both.2
          rooted := rooted_of_stops place.stop }

end GameClient.Address
