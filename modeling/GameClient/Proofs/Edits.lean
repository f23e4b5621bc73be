import GameClient.Proofs.AuthorityGrammar
import GameClient.Proofs.Faults
/-!
What normalizing changes. The text that is read falls into consecutive pieces, and the normal form is made
of the same pieces, but for two: the port is written as a decimal numeral, or left out if it is empty, and
the path loses one slash at its end. All other text stays as it is, marks before empty parts included.
-/

namespace GameClient.Address

open Text Parts

/-- The pieces of an address in their order, each with its own marks. -/
@[ext]
structure Pieces where
  scheme : List Char
  user : List Char
  host : List Char
  port : List Char
  path : List Char
  /-- The query and the fragment. -/
  tail : List Char

namespace Pieces

/-- The text of the authority. -/
def server (pieces : Pieces) : List Char :=
  pieces.user ++ (pieces.host ++ pieces.port)

/-- The pieces one after the other, with nothing between them but the mark behind the scheme. -/
def text (pieces : Pieces) : List Char :=
  pieces.scheme ++ (':' :: '/' :: '/' :: (pieces.server ++ (pieces.path ++ pieces.tail)))

/-- Each piece is one that an address has in its place. The authority goes up to the first `/`, `?` or `#`,
its user part up to the last `@` in it, and the path up to the first `?` or `#`. -/
structure Placed (pieces : Pieces) : Prop where
  scheme : pieces.scheme = "http".toList ∨ pieces.scheme = "https".toList
  server : ∀ c ∈ pieces.server, c ≠ '/' ∧ c ≠ '?' ∧ c ≠ '#'
  user : pieces.user = [] ∨ ∃ name, pieces.user = name ++ ['@']
  userless : '@' ∉ pieces.host ++ pieces.port
  host : Host.IsHost pieces.host
  port : ∃ value, Authority.IsPort pieces.port value
  path : pieces.path = [] ∨ ∃ rest, pieces.path = '/' :: rest
  path_free : ∀ c ∈ pieces.path, c ≠ '?' ∧ c ≠ '#'
  tail : pieces.tail = [] ∨ ∃ rest, pieces.tail = '?' :: rest ∨ pieces.tail = '#' :: rest

end Pieces

/-- The edit of a port, its colon included: no port stays none, a colon alone is left out, and digits
become the decimal numeral of their value. -/
inductive PortEdit : List Char → List Char → Prop where
  | absent : PortEdit [] []
  | empty : PortEdit [':'] []
  | digits {digits numeral : List Char} (nonempty : digits ≠ [])
      (fits : ∀ c ∈ digits, c.isDigit = true)
      (decimal : Numeral.IsDecimal numeral (Nat.ofDigitChars 10 digits 0)) :
      PortEdit (':' :: digits) (':' :: numeral)

/-- The edit of a path: one slash at its end is dropped if something is in front of it. -/
inductive PathEdit : List Char → List Char → Prop where
  | dropped {path : List Char} (nonempty : path ≠ []) : PathEdit (path ++ ['/']) path
  | kept {path : List Char} (settled : ¬ (1 < path.length ∧ path.getLast? = some '/')) :
      PathEdit path path

/-- The two texts differ in nothing but the edits of their port and of their path. -/
def Edited (before after : List Char) : Prop :=
  ∃ pieces : Pieces, pieces.Placed ∧ before = pieces.text ∧
    ∃ port path, PortEdit pieces.port port ∧ PathEdit pieces.path path ∧
      after = { pieces with port := port, path := path }.text

/-! ### The pieces of a text -/

theorem Target.tail_cases (target : Target) :
    withMark '?' target.query ++ withMark '#' target.fragment = [] ∨
      ∃ rest, withMark '?' target.query ++ withMark '#' target.fragment = '?' :: rest ∨
        withMark '?' target.query ++ withMark '#' target.fragment = '#' :: rest := by
  cases target.query with
  | none =>
      cases target.fragment with
      | none => exact Or.inl rfl
      | some fragment => exact Or.inr ⟨fragment, Or.inr rfl⟩
  | some query => exact Or.inr ⟨_, Or.inl rfl⟩

/-- The pieces of a text with a scheme, an authority and a target. -/
def piecesOf (address : Address) (port : List Char) : Pieces where
  scheme := address.scheme.text
  user := Authority.userMark address.authority.userinfo
  host := address.authority.host
  port := port
  path := address.target.path
  tail := Target.withMark '?' address.target.query ++ Target.withMark '#' address.target.fragment

theorem placed_piecesOf {address : Address} (h : address.WellFormed) {port : List Char}
    (spelled : Authority.SpellsPort port address.authority.port) : (piecesOf address port).Placed where
  scheme := by
    unfold piecesOf
    cases address.scheme with
    | http => exact Or.inl rfl
    | https => exact Or.inr rfl
  server := by
    intro c member
    have free : endsAuthority c = false := by
      rw [Pieces.server, ← List.append_assoc] at member
      rcases List.mem_append.mp member with before | inPort
      · apply h.authority_free
        rw [Authority.text_eq, ← List.append_assoc]
        exact List.mem_append_left _ before
      · exact Authority.endsAuthority_of_mem_port spelled inPort
    simpa [endsAuthority, and_assoc] using free
  user := by
    unfold piecesOf
    cases address.authority.userinfo with
    | none => exact Or.inl rfl
    | some name => exact Or.inr ⟨name, rfl⟩
  userless := Authority.at_not_mem h.spelled.server spelled
  host := Host.isServer_iff.mp h.spelled.server
  port := ⟨_, Authority.spellsPort_iff.mp spelled⟩
  path := by
    unfold piecesOf
    cases path : address.target.path with
    | nil => exact Or.inl rfl
    | cons c rest =>
        have slash : c = '/' := h.rooted c (by rw [path]; rfl)
        exact Or.inr ⟨rest, by rw [slash]⟩
  path_free := by
    intro c member
    simpa [Target.endsPath] using h.target.path_free c member
  tail := address.target.tail_cases

/-- A text that is read consists of the pieces of the address that it gives, with its own way to write the
port. -/
theorem exists_pieces_of_read {text : List Char} {address : Address} (h : read text = .ok address) :
    ∃ port, Authority.SpellsPort port address.authority.port ∧
      (piecesOf address port).Placed ∧ text = (piecesOf address port).text := by
  have wellFormed := wellFormed_of_read h
  have reading := reading_read text
  rw [h] at reading
  cases reading with
  | @complete scheme after server rest authority _ part place spells =>
      obtain ⟨_, port, spelled, shape⟩ := spells
      refine ⟨port, spelled, placed_piecesOf wellFormed spelled, ?_⟩
      have target := Target.text_split rest
      rw [Target.text, List.append_assoc] at target
      rw [part.shape, place.shape, shape]
      simp only [Pieces.text, Pieces.server, piecesOf, target, List.append_assoc]

/-- The printed address consists of its pieces, with the port as it is printed. -/
theorem text_eq_pieces (address : Address) :
    address.text = (piecesOf address (Authority.portMark address.authority.port)).text := by
  simp [Address.text, Authority.text_eq, Target.text, Pieces.text, Pieces.server, piecesOf]

/-! ### One way to cut a text -/

namespace Pieces.Placed

variable {pieces : Pieces}

theorem schemePart (h : pieces.Placed) :
    SchemePart pieces.text pieces.scheme
      ('/' :: '/' :: (pieces.server ++ (pieces.path ++ pieces.tail))) where
  shape := rfl
  nonempty := by rcases h.scheme with http | https <;> simp [*]
  free := by rcases h.scheme with http | https <;> simp [*, endsScheme]

theorem authorityPart (h : pieces.Placed) :
    AuthorityPart ('/' :: '/' :: (pieces.server ++ (pieces.path ++ pieces.tail))) pieces.server
      (pieces.path ++ pieces.tail) where
  shape := rfl
  free := by
    intro c member
    simpa [endsAuthority, and_assoc] using h.server c member
  stop := by
    rcases h.path with path | ⟨rest, path⟩
    · rcases h.tail with tail | ⟨rest, tail | tail⟩ <;> simp [path, tail, Stops, endsAuthority]
    · simp [path, Stops, endsAuthority]

theorem splitUserinfo_server (h : pieces.Placed) :
    Authority.userMark (Authority.splitUserinfo pieces.server).1 = pieces.user ∧
      (Authority.splitUserinfo pieces.server).2 = pieces.host ++ pieces.port := by
  obtain ⟨user, mark⟩ : ∃ user, pieces.user = Authority.userMark user := by
    rcases h.user with userless | ⟨name, named⟩
    · exact ⟨none, userless⟩
    · exact ⟨some name, named⟩
  rw [Pieces.server, mark, Authority.splitUserinfo_append h.userless user]
  exact ⟨rfl, rfl⟩

theorem splitHost_host (h : pieces.Placed) :
    Authority.splitHost (pieces.host ++ pieces.port) = some (pieces.host, pieces.port.tail) := by
  obtain ⟨value, port⟩ := h.port
  exact Authority.splitHost_append (Host.isServer_iff.mpr h.host) (Authority.spellsPort_iff.mpr port)

theorem takeWhile_path (h : pieces.Placed) :
    (pieces.path ++ pieces.tail).takeWhile (fun c => !Target.endsPath c) = pieces.path := by
  apply takeWhile_append_of_stops
  · intro c member
    simpa [Target.endsPath] using h.path_free c member
  · rcases h.tail with tail | ⟨rest, tail | tail⟩ <;> simp [tail, Stops, Target.endsPath]

/-- A text falls into pieces in one way only. -/
theorem unique {other : Pieces} (h : pieces.Placed) (h' : other.Placed)
    (same : pieces.text = other.text) : pieces = other := by
  have whole := h'.schemePart
  rw [← same] at whole
  obtain ⟨scheme, behind⟩ := h.schemePart.unique whole
  have place := h'.authorityPart
  rw [← behind] at place
  obtain ⟨server, rest⟩ := h.authorityPart.unique place
  have user : pieces.user = other.user := by
    rw [← h.splitUserinfo_server.1, server, h'.splitUserinfo_server.1]
  have served : pieces.host ++ pieces.port = other.host ++ other.port := by
    rw [← h.splitUserinfo_server.2, server, h'.splitUserinfo_server.2]
  have host : pieces.host = other.host := by
    have cut := h.splitHost_host
    rw [served, h'.splitHost_host, Option.some.injEq, Prod.mk.injEq] at cut
    exact cut.1.symm
  have path : pieces.path = other.path := by
    rw [← h.takeWhile_path, rest, h'.takeWhile_path]
  apply Pieces.ext scheme user host
  · rwa [host, List.append_cancel_left_eq] at served
  · exact path
  · rwa [path, List.append_cancel_left_eq] at rest

end Pieces.Placed

/-! ### The edits -/

theorem PortEdit.unique {before one two : List Char} (h : PortEdit before one)
    (h' : PortEdit before two) : one = two := by
  cases h with
  | absent => cases h'; rfl
  | empty =>
      cases h' with
      | empty => rfl
      | digits nonempty => exact absurd rfl nonempty
  | digits nonempty _ decimal =>
      cases h' with
      | empty => exact absurd rfl nonempty
      | digits _ _ decimal' =>
          rw [Numeral.isDecimal_iff.mp decimal, Numeral.isDecimal_iff.mp decimal']

theorem pathEdit_iff {before after : List Char} : PathEdit before after ↔ after = dropSlash before := by
  constructor
  · intro edit
    cases edit with
    | dropped nonempty => rw [dropSlash_append nonempty]
    | kept settled => rw [dropSlash_of_not_hasFinalSlash settled]
  · rintro rfl
    by_cases final : HasFinalSlash before
    · obtain ⟨path, nonempty, rfl⟩ := hasFinalSlash_iff.mp final
      rw [dropSlash_append nonempty]
      exact .dropped nonempty
    · rw [dropSlash_of_not_hasFinalSlash final]
      exact .kept final

/-- A text can be edited in one way only. -/
theorem Edited.unique {before one two : List Char} (h : Edited before one)
    (h' : Edited before two) : one = two := by
  obtain ⟨pieces, placed, rfl, port, path, portEdit, pathEdit, rfl⟩ := h
  obtain ⟨pieces', placed', same, port', path', portEdit', pathEdit', rfl⟩ := h'
  obtain rfl := placed.unique placed' same
  rw [portEdit.unique portEdit', pathEdit_iff.mp pathEdit, pathEdit_iff.mp pathEdit']

theorem portEdit_of_spellsPort {text : List Char} {port : Option Nat}
    (h : Authority.SpellsPort text port) : PortEdit text (Authority.portMark port) := by
  cases h with
  | absent => exact .absent
  | empty => exact .empty
  | numeral value small =>
      obtain ⟨nonempty, fits, rfl⟩ := Numeral.read_eq_some_iff.mp value
      exact .digits nonempty fits (Numeral.isDecimal_write _)

/-- The normal form is the text that is read, edited in its port and at the end of its path only. -/
theorem edited_iff_of_normalize {given : String} {normal : Address} (h : normalize given = .ok normal) :
    ∀ after, Edited (candidate given) after ↔ after = normal.toString.toList := by
  obtain ⟨_, address, found, rfl⟩ := normalize_eq_ok_iff.mp h
  rw [withScheme_trim] at found
  obtain ⟨port, spelled, placed, shape⟩ := exists_pieces_of_read found
  have edited : Edited (candidate given) address.trimPath.toString.toList := by
    refine ⟨piecesOf address port, placed, shape, _, _, portEdit_of_spellsPort spelled,
      pathEdit_iff.mpr rfl, ?_⟩
    rw [Address.toString, String.toList_ofList]
    exact text_eq_pieces address.trimPath
  intro after
  constructor
  · intro other
    exact other.unique edited
  · rintro rfl
    exact edited

/-- Nothing is edited but the zeros of the port and the last slash of the path: the user part, the query
and the fragment are empty and stay so, and the slashes in the middle stay too. -/
theorem edited_of_normalize_with_empty_parts :
    ∃ normal, normalize " @[::1]:0080//a//?#/ " = .ok normal ∧
      normal.toString = "http://@[::1]:80//a/?#/" ∧
      Edited "http://@[::1]:0080//a//?#/".toList "http://@[::1]:80//a/?#/".toList := by
  let normal : Address :=
    ⟨.http, ⟨some [], "[::1]".toList, some 80⟩, ⟨"//a/".toList, some [], some ['/']⟩⟩
  have found : normalize " @[::1]:0080//a//?#/ " = .ok normal := by decide
  have text : normal.toString = "http://@[::1]:80//a/?#/" := by decide
  have before : candidate " @[::1]:0080//a//?#/ " = "http://@[::1]:0080//a//?#/".toList := by decide
  refine ⟨normal, found, text, ?_⟩
  rw [← before]
  apply (edited_iff_of_normalize found _).mpr
  rw [text]

end GameClient.Address
