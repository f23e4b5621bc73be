import GameClient.Proofs.Authority
import Mathlib.Data.List.Basic
/-!
The grammar of authorities down to their characters: hosts, ports and the place of the user part are said
by their letters, digits and marks alone. Reading succeeds exactly on the texts of this grammar, and gives
the parts that the grammar names.
-/

namespace GameClient.Address

open Text

namespace Host

/-- One to three digits with a value of at most 255. -/
structure IsOctet (part : List Char) : Prop where
  nonempty : part ≠ []
  short : part.length ≤ 3
  digits : ∀ c ∈ part, c.isDigit = true
  small : Nat.ofDigitChars 10 part 0 ≤ 255

/-- A letter or a digit alone, or two of them with letters, digits and hyphens between. -/
inductive IsLabel : List Char → Prop where
  | single {c : Char} (only : c.isAlphanum = true) : IsLabel [c]
  | long {first last : Char} {inner : List Char} (opens : first.isAlphanum = true)
      (inside : ∀ c ∈ inner, c.isAlphanum = true ∨ c = '-') (closes : last.isAlphanum = true) :
      IsLabel (first :: (inner ++ [last]))

/-- What may stand in the place of a host. Of several labels, the last begins with a letter. -/
inductive IsHost : List Char → Prop where
  | bracketed {body : List Char} (nonempty : body ≠ [])
      (fits : ∀ c ∈ body, c.isHexDigit = true ∨ c = ':' ∨ c = '.') :
      IsHost ('[' :: (body ++ [']']))
  | quad {a b c d : List Char} (octets : ∀ part ∈ [a, b, c, d], IsOctet part) :
      IsHost (a ++ '.' :: (b ++ '.' :: (c ++ '.' :: d)))
  | name {labels : List (List Char)} {last final : List Char}
      (fits : ∀ label ∈ labels ++ [last], IsLabel label)
      (top : labels ≠ [] → ∃ c rest, last = c :: rest ∧ c.isAlpha = true)
      (dot : final = [] ∨ final = ['.']) :
      IsHost (['.'].intercalate (labels ++ [last]) ++ final)

/-! ### The checks and the grammar -/

theorem isOctet_iff {part : List Char} : isOctet part = true ↔ IsOctet part := by
  simp only [isOctet, Bool.and_eq_true, Option.any_eq_true, decide_eq_true_eq,
    Numeral.read_eq_some_iff]
  constructor
  · intro checked
    obtain ⟨short, _, ⟨nonempty, digits, rfl⟩, small⟩ := checked
    exact ⟨nonempty, short, digits, small⟩
  · intro octet
    exact ⟨octet.short, _, ⟨octet.nonempty, octet.digits, rfl⟩, octet.small⟩

theorem isLabelChar_iff {c : Char} : isLabelChar c = true ↔ c.isAlphanum = true ∨ c = '-' := by
  rw [isLabelChar, Bool.or_eq_true, beq_iff_eq]

theorem isLabel_iff {label : List Char} : isLabel label = true ↔ IsLabel label := by
  simp only [isLabel, Bool.and_eq_true, List.all_eq_true, isLabelChar_iff]
  constructor
  · intro checked
    obtain ⟨⟨fits, opens⟩, closes⟩ := checked
    cases label with
    | nil => simp at opens
    | cons first rest =>
        -- The last character is the first one, or it stands behind it and what is between.
        rcases List.eq_nil_or_concat' rest with rfl | ⟨inner, last, rfl⟩
        · exact .single opens
        · apply IsLabel.long opens
          · intro c member
            apply fits
            simp [member]
          · simpa [List.getLast?_cons] using closes
  · intro label
    cases label with
    | single only => simp [only]
    | long opens inside closes =>
        refine ⟨⟨?_, opens⟩, ?_⟩
        · intro c member
          simp only [List.mem_cons, List.mem_append, List.not_mem_nil, or_false] at member
          rcases member with rfl | between | rfl
          · exact Or.inl opens
          · exact inside c between
          · exact Or.inl closes
        · simp [List.getLast?_cons, closes]

theorem hasTopLabel_append_iff {labels : List (List Char)} {last : List Char} :
    hasTopLabel (labels ++ [last]) = true ↔
      (labels ≠ [] → ∃ c rest, last = c :: rest ∧ c.isAlpha = true) := by
  have top : last.head?.any Char.isAlpha = true ↔ ∃ c rest, last = c :: rest ∧ c.isAlpha = true := by
    cases last <;> simp
  rw [hasTopLabel, List.getLast?_concat, Option.any_some, Bool.or_eq_true, top]
  cases labels with
  | nil => simp
  | cons label others => simp

theorem isBracketed_iff {host : List Char} :
    IsBracketed host ↔ ∃ body, body ≠ [] ∧
      (∀ c ∈ body, c.isHexDigit = true ∨ c = ':' ∨ c = '.') ∧ host = '[' :: (body ++ [']']) := by
  simp only [IsBracketed, isBracketedBody, isBracketedChar, Bool.and_eq_true, bne_iff_ne, ne_eq,
    List.all_eq_true, Bool.or_eq_true, beq_iff_eq, or_assoc, and_assoc]

theorem isQuad_iff {host : List Char} :
    IsQuad host ↔ ∃ a b c d, (∀ part ∈ [a, b, c, d], IsOctet part) ∧
      host = a ++ '.' :: (b ++ '.' :: (c ++ '.' :: d)) := by
  simp only [IsQuad, isOctet_iff, List.intercalate_cons_cons, List.intercalate_singleton,
    List.append_assoc, List.singleton_append]

theorem isName_iff {host : List Char} :
    IsName host ↔ ∃ labels last final, (∀ label ∈ labels ++ [last], IsLabel label) ∧
      (labels ≠ [] → ∃ c rest, last = c :: rest ∧ c.isAlpha = true) ∧
      (final = [] ∨ final = ['.']) ∧ host = ['.'].intercalate (labels ++ [last]) ++ final := by
  constructor
  · intro name
    obtain ⟨every, nonempty, fits, top, shape⟩ := name
    obtain ⟨labels, last, rfl⟩ := (List.eq_nil_or_concat' every).resolve_left nonempty
    have spelled : ∀ label ∈ labels ++ [last], IsLabel label :=
      fun label member => isLabel_iff.mp (fits label member)
    rcases shape with rfl | rfl
    · exact ⟨labels, last, [], spelled, hasTopLabel_append_iff.mp top, Or.inl rfl, by simp⟩
    · exact ⟨labels, last, ['.'], spelled, hasTopLabel_append_iff.mp top, Or.inr rfl, rfl⟩
  · intro name
    obtain ⟨labels, last, final, fits, top, dot, rfl⟩ := name
    refine ⟨labels ++ [last], by simp, fun label member => isLabel_iff.mpr (fits label member),
      hasTopLabel_append_iff.mpr top, ?_⟩
    rcases dot with rfl | rfl
    · exact Or.inl (by simp)
    · exact Or.inr rfl

/-- The hosts that name a server are those of the grammar. -/
theorem isServer_iff {host : List Char} : IsServer host ↔ IsHost host := by
  constructor
  · intro server
    rcases server with bracketed | quad | named
    · obtain ⟨body, nonempty, fits, rfl⟩ := isBracketed_iff.mp bracketed
      exact .bracketed nonempty fits
    · obtain ⟨a, b, c, d, octets, rfl⟩ := isQuad_iff.mp quad
      exact .quad octets
    · obtain ⟨labels, last, final, fits, top, dot, rfl⟩ := isName_iff.mp named
      exact .name fits top dot
  · intro host
    cases host with
    | bracketed nonempty fits => exact Or.inl (isBracketed_iff.mpr ⟨_, nonempty, fits, rfl⟩)
    | quad octets => exact Or.inr (Or.inl (isQuad_iff.mpr ⟨_, _, _, _, octets, rfl⟩))
    | name fits top dot => exact Or.inr (Or.inr (isName_iff.mpr ⟨_, _, _, fits, top, dot, rfl⟩))

end Host

namespace Authority

/-- What may stand behind a host, and the port that it gives: any digits with a value of at most 32 bits,
however many zeros are in front. -/
inductive IsPort : List Char → Option Nat → Prop where
  | absent : IsPort [] none
  | empty : IsPort [':'] none
  | digits {digits : List Char} (nonempty : digits ≠ []) (fits : ∀ c ∈ digits, c.isDigit = true)
      (small : Nat.ofDigitChars 10 digits 0 < UInt32.size) :
      IsPort (':' :: digits) (some (Nat.ofDigitChars 10 digits 0))

/-- The text behind the last `@` and the user part in front of it; without an `@`, the whole text. -/
inductive BehindUser : List Char → Option (List Char) → List Char → Prop where
  | userless {text : List Char} (free : '@' ∉ text) : BehindUser text none text
  | user {user rest : List Char} (free : '@' ∉ rest) :
      BehindUser (user ++ '@' :: rest) (some user) rest

theorem spellsPort_iff {text : List Char} {port : Option Nat} :
    SpellsPort text port ↔ IsPort text port := by
  have limit : portLimit = UInt32.size := by decide
  constructor
  · intro spelled
    cases spelled with
    | absent => exact .absent
    | empty => exact .empty
    | numeral value small =>
        obtain ⟨nonempty, fits, rfl⟩ := Numeral.read_eq_some_iff.mp value
        exact .digits nonempty fits (limit ▸ small)
  · intro port
    cases port with
    | absent => exact .absent
    | empty => exact .empty
    | digits nonempty fits small =>
        exact .numeral (Numeral.read_eq_some_iff.mpr ⟨nonempty, fits, rfl⟩) (limit ▸ small)

theorem behindUser_iff {text rest : List Char} {user : Option (List Char)} :
    BehindUser text user rest ↔ text = userMark user ++ rest ∧ '@' ∉ rest := by
  constructor
  · intro behind
    cases behind with
    | userless free => exact ⟨rfl, free⟩
    | user free => exact ⟨by simp [userMark], free⟩
  · intro cut
    obtain ⟨rfl, free⟩ := cut
    cases user with
    | none => exact .userless free
    | some user =>
        have shape : userMark (some user) ++ rest = user ++ '@' :: rest := by simp [userMark]
        rw [shape]
        exact .user free

/-- Reading succeeds exactly if a host and a port stand behind the last `@`, and it gives what is in
front of that `@`, the host as it is written, and the value of the port. -/
theorem read_iff_grammar (text : List Char) :
    ((∃ authority, read text = some authority) ↔
      ∃ user host port value, BehindUser text user (host ++ port) ∧ Host.IsHost host ∧
        IsPort port value) ∧
    ∀ user host value, read text = some ⟨user, host, value⟩ ↔
      ∃ port, BehindUser text user (host ++ port) ∧ Host.IsHost host ∧ IsPort port value := by
  have exact_parts : ∀ user host value, read text = some ⟨user, host, value⟩ ↔
      ∃ port, BehindUser text user (host ++ port) ∧ Host.IsHost host ∧ IsPort port value := by
    intro user host value
    rw [read_eq_some_iff]
    constructor
    · intro spells
      obtain ⟨server, port, spelled, shape⟩ := spells
      exact ⟨port, behindUser_iff.mpr ⟨shape, at_not_mem server spelled⟩, Host.isServer_iff.mp server,
        spellsPort_iff.mp spelled⟩
    · intro parts
      obtain ⟨port, behind, isHost, isPort⟩ := parts
      exact ⟨Host.isServer_iff.mpr isHost, port, spellsPort_iff.mpr isPort,
        (behindUser_iff.mp behind).1⟩
  refine ⟨?_, exact_parts⟩
  constructor
  · intro found
    obtain ⟨⟨user, host, value⟩, found⟩ := found
    obtain ⟨port, parts⟩ := (exact_parts user host value).mp found
    exact ⟨user, host, port, value, parts⟩
  · intro parts
    obtain ⟨user, host, port, value, parts⟩ := parts
    exact ⟨_, (exact_parts user host value).mpr ⟨port, parts⟩⟩

/-- With a dot behind them, four numbers are labels, of which the last begins with no letter; a label alone
may begin with a digit. -/
example : read "1.2.3.4.".toList = none ∧
    read "a@b@8080.:00000000000080".toList = some ⟨some "a@b".toList, "8080.".toList, some 80⟩ := by
  decide

end Authority

end GameClient.Address
