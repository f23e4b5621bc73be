import GameClient.Proofs.Normal
import Mathlib.Data.List.Infix
/-!
What is wrong with a text that has no normal form. Each fault is a property of the text alone, and the
property of the first fault in the order blank, malformed, unknown scheme, no host decides the error;
a text with none of them has a normal form.
-/

namespace GameClient.Address

open Text Parts

/-! ### The faults of a text -/

/-- A character may not stand where it does in the text: a percent sign because no two hexadecimal
digits follow it, another character wherever it stands. -/
def HasIllegal (text : List Char) : Prop :=
  ∃ before c after, text = before ++ c :: after ∧
    if c = '%' then
      ¬ ∃ a b rest, after = a :: b :: rest ∧ a.isHexDigit = true ∧ b.isHexDigit = true
    else isPlain c = false

/-- A letter, and behind it letters, digits, `+`, `.` and `-`. -/
def IsSchemeName (name : List Char) : Prop :=
  ∃ c rest, name = c :: rest ∧ c.isAlpha = true ∧
    ∀ d ∈ rest, d.isAlphanum = true ∨ d = '+' ∨ d = '.' ∨ d = '-'

/-- The text names a server, and can say who asks and at which port. -/
def IsAuthority (text : List Char) : Prop :=
  ∃ authority, Authority.Spells text authority

/-- The text does not have the form of an address. -/
inductive Malformed (text : List Char) : Prop where
  | colon (first : text.head? = some ':')
  | illegal (illegal : HasIllegal text)
  | misnamed {name after : List Char} (part : SchemePart text name after)
      (noName : ¬ IsSchemeName name)
  | bracketed {scheme : Scheme} {after server : List Char}
      (part : SchemePart text scheme.text after) (place : ServerPart after server)
      (bracket : '[' ∈ server ∨ ']' ∈ server) (noServer : ¬ IsAuthority server)

/-- The text has no scheme, or one that cannot be opened. -/
def LacksScheme (text : List Char) : Prop :=
  ∀ scheme : Scheme, ∀ after, ¬ SchemePart text scheme.text after

/-- The scheme of the text can be opened, but no server is named behind it. -/
def LacksHost (text : List Char) : Prop :=
  ∃ scheme : Scheme, ∃ after server,
    SchemePart text scheme.text after ∧ ServerPart after server ∧ ¬ IsAuthority server

/-- What the result of reading a text says about it. -/
def Verdict (text : List Char) : Except Fault Address → Prop
  | .error .malformed => Malformed text
  | .error .unknownScheme => ¬ Malformed text ∧ LacksScheme text
  | .error .noHost => ¬ Malformed text ∧ ¬ LacksScheme text ∧ LacksHost text
  | .ok _ => ¬ Malformed text ∧ ¬ LacksScheme text ∧ ¬ LacksHost text

/-! ### The checks on the form -/

theorem hasIllegal_cons {c : Char} {rest : List Char} :
    HasIllegal (c :: rest) ↔
      (if c = '%' then startsWithHexPair rest = false else isPlain c = false) ∨ HasIllegal rest := by
  have here : (if c = '%' then startsWithHexPair rest = false else isPlain c = false) ↔
      if c = '%' then
        ¬ ∃ a b more, rest = a :: b :: more ∧ a.isHexDigit = true ∧ b.isHexDigit = true
      else isPlain c = false := by
    rw [← startsWithHexPair_iff, Bool.not_eq_true]
  rw [here]
  constructor
  · intro h
    obtain ⟨before, d, after, shape, wrong⟩ := h
    cases before with
    | nil =>
        injection shape with first others
        subst first others
        exact Or.inl wrong
    | cons b before =>
        injection shape with _ others
        exact Or.inr ⟨before, d, after, others, wrong⟩
  · intro h
    rcases h with wrong | ⟨before, d, after, shape, wrong⟩
    · exact ⟨[], c, rest, rfl, wrong⟩
    · exact ⟨c :: before, d, after, by rw [shape, List.cons_append], wrong⟩

theorem isLegal_eq_true_iff {text : List Char} : isLegal text = true ↔ ¬ HasIllegal text := by
  induction text with
  | nil => simp [isLegal, HasIllegal]
  | cons c rest ih =>
      rw [hasIllegal_cons, not_or, ← ih]
      by_cases percent : c = '%'
      · subst percent
        simp [isLegal_percent]
      · simp [isLegal_cons_of_ne percent, percent]

theorem isWellSpelled_iff {text : List Char} :
    isWellSpelled text = true ↔ text.head? ≠ some ':' ∧ ¬ HasIllegal text := by
  rw [isWellSpelled, Bool.and_eq_true, bne_iff_ne, isLegal_eq_true_iff]

theorem isName_iff {name : List Char} : Scheme.isName name = true ↔ IsSchemeName name := by
  cases name with
  | nil => simp [Scheme.isName, IsSchemeName]
  | cons c rest =>
      simp only [Scheme.isName, Scheme.isNameChar, Bool.and_eq_true, List.all_eq_true,
        Bool.or_eq_true, beq_iff_eq, IsSchemeName, List.cons.injEq, or_assoc]
      constructor
      · intro h
        exact ⟨c, rest, ⟨rfl, rfl⟩, h⟩
      · intro h
        obtain ⟨_, _, ⟨rfl, rfl⟩, first, others⟩ := h
        exact ⟨first, others⟩

theorem hasBracket_iff {text : List Char} :
    hasBracket text = true ↔ '[' ∈ text ∨ ']' ∈ text := by
  simp [hasBracket]

/-! ### The result of reading -/

/-- A text is well formed if it is well spelled and what stands in the place of a scheme and of a
server with a bracket has the form of one. -/
theorem not_malformed {text : List Char} (spelled : isWellSpelled text = true)
    (names : ∀ name after, SchemePart text name after → IsSchemeName name)
    (servers : ∀ (scheme : Scheme) after server, SchemePart text scheme.text after →
      ServerPart after server → ('[' ∈ server ∨ ']' ∈ server) → IsAuthority server) :
    ¬ Malformed text := by
  obtain ⟨noColon, legal⟩ := isWellSpelled_iff.mp spelled
  intro h
  cases h with
  | colon first => exact noColon first
  | illegal illegal => exact legal illegal
  | misnamed part noName => exact noName (names _ _ part)
  | bracketed part place bracket noServer => exact noServer (servers _ _ _ part place bracket)

/-- With a scheme that can be opened, only the authority can be wrong. -/
theorem not_malformed_of_schemePart {text after server : List Char} {scheme : Scheme}
    (spelled : isWellSpelled text = true) (part : SchemePart text scheme.text after)
    (place : ServerPart after server)
    (fits : ('[' ∈ server ∨ ']' ∈ server) → IsAuthority server) : ¬ Malformed text := by
  apply not_malformed spelled
  · intro name other found
    rw [(found.unique part).1]
    exact isName_iff.mp scheme.isName_text
  · intro other behind server' found place' bracket
    rw [(found.unique part).2] at place'
    rw [place'.unique place] at bracket ⊢
    exact fits bracket

theorem not_lacksScheme {text after : List Char} {scheme : Scheme}
    (part : SchemePart text scheme.text after) : ¬ LacksScheme text := by
  intro lacks
  exact lacks scheme after part

theorem Reading.verdict {text : List Char} {result : Except Fault Address}
    (h : Reading text result) : Verdict text result := by
  cases h with
  | misspelled misspelled =>
      have wrong : ¬ (text.head? ≠ some ':' ∧ ¬ HasIllegal text) := by
        rw [← isWellSpelled_iff, misspelled]
        exact Bool.false_ne_true
      by_cases first : text.head? = some ':'
      · exact .colon first
      · exact .illegal (not_not.mp fun legal => wrong ⟨first, legal⟩)
  | schemeless spelled without =>
      refine ⟨not_malformed spelled ?_ ?_, fun scheme after => without scheme.text after⟩
      · intro name after part
        exact absurd part (without name after)
      · intro scheme after _ part
        exact absurd part (without scheme.text after)
  | misnamed spelled part noName =>
      refine .misnamed part fun named => ?_
      rw [isName_iff.mpr named] at noName
      exact Bool.noConfusion noName
  | foreign spelled part named unknown =>
      have lacks : LacksScheme text := by
        intro scheme after found
        exact unknown scheme (part.unique found).1
      refine ⟨not_malformed spelled ?_ ?_, lacks⟩
      · intro name after found
        rw [(found.unique part).1]
        exact isName_iff.mp named
      · intro scheme after _ found
        exact absurd found (lacks scheme after)
  | @serverless scheme after server spelled part place unspelled =>
      have noServer : ¬ IsAuthority server := by
        intro names
        obtain ⟨authority, spells⟩ := names
        exact unspelled authority spells
      unfold authorityFault
      by_cases bracket : hasBracket server = true
      · rw [if_pos bracket]
        exact .bracketed part place (hasBracket_iff.mp bracket) noServer
      · rw [if_neg bracket]
        rw [hasBracket_iff] at bracket
        exact ⟨not_malformed_of_schemePart spelled part place fun found => absurd found bracket,
          not_lacksScheme part, scheme, after, server, part, place, noServer⟩
  | @complete scheme after server rest authority spelled part place spells =>
      have found : ServerPart after server := Or.inl ⟨rest, place⟩
      refine ⟨not_malformed_of_schemePart spelled part found fun _ => ⟨authority, spells⟩,
        not_lacksScheme part, ?_⟩
      intro lacks
      obtain ⟨_, _, server', part', place', noServer⟩ := lacks
      rw [(part'.unique part).2] at place'
      rw [place'.unique found] at noServer
      exact noServer ⟨authority, spells⟩

/-! ### The result of normalizing -/

/-- The text that is read for the one that the user gave. -/
def candidate (given : String) : List Char :=
  if [':', '/', '/'] <:+: trim given.toList then trim given.toList
  else "http://".toList ++ trim given.toList

theorem withScheme_trim (given : String) : withScheme (trim given.toList) = candidate given := by
  unfold withScheme candidate
  simp only [hasSchemeMark_iff]
  rfl

theorem normalize_of_ne_nil {given : String} (h : trim given.toList ≠ []) :
    normalize given =
      match read (candidate given) with
      | .error fault => .error (fault.report given)
      | .ok address => .ok address.trimPath := by
  rw [← withScheme_trim]
  unfold normalize
  cases shape : trim given.toList with
  | nil => exact absurd shape h
  | cons c rest => rfl

/-- Which error is given, and when there is none. -/
theorem normalize_iff (given : String) :
    (normalize given = .error .blank ↔ trim given.toList = []) ∧
    (∀ reported, normalize given = .error (.malformed reported) ↔
      trim given.toList ≠ [] ∧ Malformed (candidate given) ∧ reported = given) ∧
    (normalize given = .error .unknownScheme ↔
      trim given.toList ≠ [] ∧ ¬ Malformed (candidate given) ∧ LacksScheme (candidate given)) ∧
    (normalize given = .error .noHost ↔
      trim given.toList ≠ [] ∧ ¬ Malformed (candidate given) ∧ ¬ LacksScheme (candidate given) ∧
        LacksHost (candidate given)) ∧
    ((∃ address, normalize given = .ok address) ↔
      trim given.toList ≠ [] ∧ ¬ Malformed (candidate given) ∧ ¬ LacksScheme (candidate given) ∧
        ¬ LacksHost (candidate given)) := by
  by_cases blank : trim given.toList = []
  · have result : normalize given = .error .blank := by
      rw [normalize, blank]
    simp [result, blank]
  · rw [normalize_of_ne_nil blank]
    have verdict := (reading_read (candidate given)).verdict
    cases result : read (candidate given) with
    | ok address =>
        rw [result] at verdict
        obtain ⟨formed, opened, named⟩ := verdict
        simp [blank, formed, opened, named]
    | error fault =>
        rw [result] at verdict
        cases fault with
        | malformed =>
            have malformed : Malformed (candidate given) := verdict
            simp [Fault.report, blank, malformed, eq_comm]
        | unknownScheme =>
            obtain ⟨formed, lacks⟩ := verdict
            simp [Fault.report, blank, formed, lacks]
        | noHost =>
            obtain ⟨formed, opened, lacks⟩ := verdict
            simp [Fault.report, blank, formed, opened, lacks]

end GameClient.Address
