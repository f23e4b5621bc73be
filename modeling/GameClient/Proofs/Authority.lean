import GameClient.Address.Authority
import GameClient.Proofs.ServerName
/-!
Which texts are the authority of a server. `Spells` says it as a grammar: perhaps a user part and an
`@`, a host, perhaps a colon and perhaps a number behind it. The reader accepts exactly the texts of the
grammar, and what is printed for an authority spells it again.
-/

namespace GameClient.Address.Authority

open Text

/-- The text of a port, its colon included. -/
inductive SpellsPort : List Char → Option Nat → Prop where
  | absent : SpellsPort [] none
  | empty : SpellsPort [':'] none
  | numeral {digits : List Char} {port : Nat} (value : Numeral.read digits = some port)
      (small : port < portLimit) : SpellsPort (':' :: digits) (some port)

/-- The text of a user part, its `@` included. -/
def userMark : Option (List Char) → List Char
  | none => []
  | some user => user ++ ['@']

/-- The text of a port as it is printed. -/
def portMark : Option Nat → List Char
  | none => []
  | some port => ':' :: Numeral.write port

/-- The text spells the authority. -/
structure Spells (text : List Char) (authority : Authority) : Prop where
  server : Host.IsServer authority.host
  shape : ∃ port, SpellsPort port authority.port ∧
    text = userMark authority.userinfo ++ (authority.host ++ port)

/-! ### The port -/

theorem readPort_eq_some_iff {text : List Char} {port : Option Nat} :
    readPort text = some port ↔
      (text = [] ∧ port = none) ∨
        ∃ n, Numeral.read text = some n ∧ n < portLimit ∧ port = some n := by
  unfold readPort
  by_cases empty : text = []
  · subst empty
    have unread : Numeral.read [] = none := rfl
    simp [unread, eq_comm]
  · cases value : Numeral.read text with
    | none => simp [empty]
    | some n =>
        by_cases small : n < portLimit <;> simp [empty, small, eq_comm]

theorem SpellsPort.readPort_tail {text : List Char} {port : Option Nat} (h : SpellsPort text port) :
    readPort text.tail = some port := by
  apply readPort_eq_some_iff.mpr
  cases h with
  | absent => exact Or.inl ⟨rfl, rfl⟩
  | empty => exact Or.inl ⟨rfl, rfl⟩
  | numeral value small => exact Or.inr ⟨_, value, small, rfl⟩

theorem SpellsPort.of_readPort {text : List Char} {port : Option Nat}
    (h : readPort text = some port) : SpellsPort (':' :: text) port := by
  rcases readPort_eq_some_iff.mp h with ⟨rfl, rfl⟩ | ⟨n, value, small, rfl⟩
  · exact .empty
  · exact .numeral value small

theorem SpellsPort.of_readPort_nil {port : Option Nat} (h : readPort [] = some port) :
    SpellsPort [] port := by
  have none : port = none := by
    simpa [readPort, eq_comm] using h
  rw [none]
  exact .absent

theorem SpellsPort.write {port : Nat} (small : port < portLimit) :
    SpellsPort (':' :: Numeral.write port) (some port) :=
  .numeral (Numeral.read_write port) small

theorem SpellsPort.portMark {text : List Char} {port : Option Nat} (h : SpellsPort text port) :
    SpellsPort (portMark port) port := by
  cases h with
  | absent => exact .absent
  | empty => exact .absent
  | numeral value small => exact .write small

/-- A port is a colon and digits, so it holds none of the marks around it. -/
theorem SpellsPort.tail_isDigit {text : List Char} {port : Option Nat} (h : SpellsPort text port) :
    ∀ c ∈ text.tail, c.isDigit = true := by
  cases h with
  | absent => simp
  | empty => simp
  | numeral value small => exact (Numeral.read_eq_some_iff.mp value).2.1

theorem SpellsPort.head_eq {text : List Char} {port : Option Nat} (h : SpellsPort text port) :
    ∀ c ∈ text.head?, c = ':' := by
  cases h <;> simp

theorem SpellsPort.mem {text : List Char} {port : Option Nat} (h : SpellsPort text port) {c : Char}
    (member : c ∈ text) : c = ':' ∨ c.isDigit = true := by
  cases text with
  | nil => simp at member
  | cons d rest =>
      rcases List.mem_cons.mp member with rfl | later
      · exact Or.inl (h.head_eq c rfl)
      · exact Or.inr (h.tail_isDigit c later)

theorem SpellsPort.not_mem {text : List Char} {port : Option Nat} (h : SpellsPort text port)
    {c : Char} (noColon : c ≠ ':') (noDigit : c.isDigit = false) : c ∉ text := by
  intro member
  rcases h.mem member with colon | digit
  · exact noColon colon
  · rw [noDigit] at digit
    exact Bool.noConfusion digit

/-! ### The host -/

/-- Without an opening bracket the last colon, if any, ends the host. -/
theorem splitHost_of_ne {text : List Char} (h : ∀ c ∈ text.head?, c ≠ '[') :
    splitHost text =
      if Host.isServerName ((cutLast ':' text).getD (text, [])).1 then
        some ((cutLast ':' text).getD (text, []))
      else none := by
  unfold splitHost
  split
  · next inner => exact absurd rfl (h '[' rfl)
  · rfl

theorem portText_of_spellsPort {text : List Char} {port : Option Nat} (h : SpellsPort text port) :
    portText text = some text.tail := by
  cases h <;> rfl

theorem SpellsPort.of_portText {text after : List Char} {port : Option Nat}
    (found : portText text = some after) (value : readPort after = some port) :
    SpellsPort text port := by
  cases text with
  | nil =>
      simp only [portText, Option.some.injEq] at found
      rw [← found] at value
      exact .of_readPort_nil value
  | cons c rest =>
      by_cases colon : c = ':'
      · simp only [portText, if_pos colon, Option.some.injEq] at found
        rw [colon, found]
        exact .of_readPort value
      · simp [portText, colon] at found

/-- A bracketed host goes up to the first closing bracket, since there is none inside it. -/
theorem splitHost_bracketed {host text : List Char} {port : Option Nat}
    (bracketed : Host.IsBracketed host) (h : SpellsPort text port) :
    splitHost (host ++ text) = some (host, text.tail) := by
  obtain ⟨body, fits, rfl⟩ := bracketed
  have free : ']' ∉ body := by
    intro member
    simp only [Host.isBracketedBody, Bool.and_eq_true, List.all_eq_true] at fits
    exact absurd (fits.2 _ member) (by decide)
  have shape : '[' :: (body ++ [']']) ++ text = '[' :: (body ++ ']' :: text) := by
    simp
  rw [shape, splitHost, cutFirst_append_cons free text]
  simp [fits, portText_of_spellsPort h]

/-- A name goes up to the only colon, if there is one. -/
theorem splitHost_named {host text : List Char} {port : Option Nat}
    (named : Host.IsQuad host ∨ Host.IsName host) (h : SpellsPort text port) :
    splitHost (host ++ text) = some (host, text.tail) := by
  have chars : ∀ c ∈ host, Host.isNameChar c = true :=
    fun c member => Host.isNameChar_of_mem named member
  have noBracket : ∀ c ∈ (host ++ text).head?, c ≠ '[' := by
    intro c first opening
    subst opening
    rcases List.mem_append.mp (List.mem_of_mem_head? first) with inside | behind
    · exact absurd (chars _ inside) (by decide)
    · exact h.not_mem (by decide) (by decide) behind
  have noColon : ':' ∉ host := by
    intro member
    exact absurd (chars _ member) (by decide)
  have cut : (cutLast ':' (host ++ text)).getD (host ++ text, []) = (host, text.tail) := by
    cases text with
    | nil => simp [cutLast_eq_none_iff.mpr noColon]
    | cons c rest =>
        have colon : c = ':' := h.head_eq c rfl
        have free : ':' ∉ rest := by
          intro member
          exact absurd (h.tail_isDigit _ member) (by decide)
        rw [colon, cutLast_append_cons host free]
        rfl
  rw [splitHost_of_ne noBracket, cut]
  exact if_pos (Host.isServerName_iff.mpr named)

/-- A host with a port behind it is cut between the two. -/
theorem splitHost_append {host text : List Char} {port : Option Nat} (server : Host.IsServer host)
    (h : SpellsPort text port) : splitHost (host ++ text) = some (host, text.tail) := by
  rcases server with bracketed | named
  · exact splitHost_bracketed bracketed h
  · exact splitHost_named named h

theorem bracketed_of_splitHost {inner host after : List Char}
    (cut : splitHost ('[' :: inner) = some (host, after)) :
    Host.IsBracketed host ∧
      ∃ behind, portText behind = some after ∧ '[' :: inner = host ++ behind := by
  rw [splitHost] at cut
  cases first : cutFirst ']' inner with
  | none => simp [first] at cut
  | some parts =>
      obtain ⟨body, behind⟩ := parts
      obtain ⟨rfl, _⟩ := cutFirst_eq_some_iff.mp first
      simp only [first] at cut
      by_cases fits : Host.isBracketedBody body = true
      · simp only [fits, if_true, Option.map_eq_some_iff, Prod.mk.injEq] at cut
        obtain ⟨_, found, rfl, rfl⟩ := cut
        exact ⟨⟨body, fits, rfl⟩, behind, found, by simp⟩
      · simp [fits] at cut

theorem named_of_splitHost {text host after : List Char} (noBracket : ∀ c ∈ text.head?, c ≠ '[')
    (cut : splitHost text = some (host, after)) :
    (Host.IsQuad host ∨ Host.IsName host) ∧
      (text = host ∧ after = [] ∨ text = host ++ ':' :: after) := by
  rw [splitHost_of_ne noBracket] at cut
  by_cases name : Host.isServerName ((cutLast ':' text).getD (text, [])).1 = true
  · rw [if_pos name, Option.some.injEq] at cut
    rw [cut] at name
    refine ⟨Host.isServerName_iff.mp name, ?_⟩
    cases last : cutLast ':' text with
    | none =>
        rw [last, Option.getD_none, Prod.mk.injEq] at cut
        exact Or.inl ⟨cut.1, cut.2.symm⟩
    | some parts =>
        rw [last, Option.getD_some] at cut
        subst cut
        exact Or.inr (cutLast_eq_some_iff.mp last).1
  · rw [if_neg name] at cut
    simp at cut

/-- What is cut off as a host is the host of a server, if what is behind it is a port. -/
theorem isServer_of_splitHost {text host after : List Char} {port : Option Nat}
    (cut : splitHost text = some (host, after)) (value : readPort after = some port) :
    Host.IsServer host ∧ ∃ portText, SpellsPort portText port ∧ text = host ++ portText := by
  by_cases bracket : ∃ inner, text = '[' :: inner
  · obtain ⟨inner, rfl⟩ := bracket
    obtain ⟨bracketed, behind, found, shape⟩ := bracketed_of_splitHost cut
    exact ⟨Or.inl bracketed, behind, .of_portText found value, shape⟩
  · have noBracket : ∀ c ∈ text.head?, c ≠ '[' := by
      intro c first opening
      obtain ⟨rest, rfl⟩ := List.head?_eq_some_iff.mp first
      exact bracket ⟨rest, by rw [opening]⟩
    obtain ⟨named, ⟨rfl, rfl⟩ | shape⟩ := named_of_splitHost noBracket cut
    · exact ⟨Or.inr named, [], .of_readPort_nil value, by simp⟩
    · exact ⟨Or.inr named, ':' :: after, .of_readPort value, shape⟩

/-! ### The whole authority -/

theorem text_eq (authority : Authority) :
    authority.text = userMark authority.userinfo ++ (authority.host ++ portMark authority.port) := by
  obtain ⟨userinfo, host, port⟩ := authority
  cases userinfo <;> cases port <;> simp [text, userMark, portMark]

theorem at_not_mem {host text : List Char} {port : Option Nat} (server : Host.IsServer host)
    (h : SpellsPort text port) : '@' ∉ host ++ text := by
  intro member
  rcases List.mem_append.mp member with inside | behind
  · exact absurd (Host.isHostChar_of_mem server inside) (by decide)
  · exact h.not_mem (by decide) (by decide) behind

/-- The last `@` ends the user part, since there is none in a host and a port. -/
theorem splitUserinfo_append {rest : List Char} (free : '@' ∉ rest) (user : Option (List Char)) :
    splitUserinfo (userMark user ++ rest) = (user, rest) := by
  cases user with
  | none => simp [userMark, splitUserinfo, cutLast_eq_none_iff.mpr free]
  | some user => simp [userMark, splitUserinfo, cutLast_append_cons user free]

theorem userMark_splitUserinfo (text : List Char) :
    text = userMark (splitUserinfo text).1 ++ (splitUserinfo text).2 := by
  unfold splitUserinfo
  cases cut : cutLast '@' text with
  | none => simp [userMark]
  | some parts =>
      obtain ⟨user, rest⟩ := parts
      simpa [userMark] using (cutLast_eq_some_iff.mp cut).1

/-- The reader accepts exactly the texts that spell an authority, and gives the one spelled. -/
theorem read_eq_some_iff {text : List Char} {authority : Authority} :
    read text = some authority ↔ Spells text authority := by
  constructor
  · intro h
    unfold read at h
    cases cut : splitHost (splitUserinfo text).2 with
    | none => simp [cut] at h
    | some parts =>
        obtain ⟨host, after⟩ := parts
        simp only [cut, Option.map_eq_some_iff] at h
        obtain ⟨port, value, rfl⟩ := h
        obtain ⟨server, portText, spelled, shape⟩ := isServer_of_splitHost cut value
        refine ⟨server, portText, spelled, ?_⟩
        rw [← shape]
        exact userMark_splitUserinfo text
  · intro h
    obtain ⟨server, port, spelled, shape⟩ := h
    unfold read
    rw [shape, splitUserinfo_append (at_not_mem server spelled)]
    simp only [splitHost_append server spelled, spelled.readPort_tail, Option.map_some]

/-- What is printed for an authority that some text spells, spells it too. -/
theorem Spells.text {text : List Char} {authority : Authority} (h : Spells text authority) :
    Spells authority.text authority := by
  obtain ⟨server, port, spelled, _⟩ := h
  exact ⟨server, portMark authority.port, spelled.portMark, text_eq authority⟩

end GameClient.Address.Authority
