import GameClient.Proofs.Pattern
import GameClient.Proofs.RoundTrip
/-!
The expression of RFC 3986, appendix B, for the parts of an address. A text of legal characters is matched to its
end, and the groups capture the parts that `Parts.split` cuts. Its parts are free of the marks that end them and
give the text back; whoever cuts the text in another way with such parts goes without the scheme or without the
authority that the expression finds.
-/

namespace GameClient.Address

open Text Pattern

/-- The scheme in front of a colon, `(?:([^:/?#]+):)?`. -/
def schemePattern : Pattern :=
  .optional (.both (.group 1 (atLeastOne [':', '/', '?', '#'])) (.literal [':']))

/-- The authority behind two slashes, `(?://([^/?#]*))?`. -/
def authorityPattern : Pattern :=
  marked ['/', '/'] 2 ['/', '?', '#']

/-- The path, the query and the fragment, `([^?#]*)(?:\?([^#]*))?(?:#(.*))?$`. The dot stands for all characters
but the line feed. -/
def targetPattern : Pattern :=
  .both (.group 3 (.others ['?', '#']))
    (.both (marked ['?'] 4 ['#']) (.both (marked ['#'] 5 ['\n']) .finish))

/-- The whole expression, `^(?:([^:/?#]+):)?(?://([^/?#]*))?([^?#]*)(?:\?([^#]*))?(?:#(.*))?$`. It is looked for
at the front of a text only. -/
def uriPattern : Pattern :=
  .both schemePattern (.both authorityPattern targetPattern)

namespace Parts

/-- The parts that a match has captured. -/
def ofMatch (found : Match) : Parts :=
  ⟨found.group? 1, found.group? 2, ⟨(found.group? 3).getD [], found.group? 4, found.group? 5⟩⟩

/-- The parts are free of the marks that end them, and a path behind an authority is empty or starts with a
slash. -/
structure Separated (parts : Parts) : Prop where
  scheme : ∀ name ∈ parts.scheme, ∀ c ∈ name, c ≠ ':' ∧ c ≠ '/' ∧ c ≠ '?' ∧ c ≠ '#'
  authority : ∀ server ∈ parts.authority, ∀ c ∈ server, c ≠ '/' ∧ c ≠ '?' ∧ c ≠ '#'
  path : ∀ c ∈ parts.target.path, c ≠ '?' ∧ c ≠ '#'
  query : ∀ query ∈ parts.target.query, '#' ∉ query
  rooted : parts.authority ≠ none → parts.target.path = [] ∨ ∃ rest, parts.target.path = '/' :: rest

/-- The first parts go without a scheme that the second ones have or, with the same scheme, without an
authority. -/
def Forgoes (parts others : Parts) : Prop :=
  parts.scheme = none ∧ others.scheme ≠ none ∨
    parts.scheme = others.scheme ∧ parts.authority = none ∧ others.authority ≠ none

/-- The text of a scheme with its mark. -/
def schemeText : Option (List Char) → List Char
  | none => []
  | some name => name ++ [':']

/-- The text of an authority with its mark. -/
def authorityText : Option (List Char) → List Char
  | none => []
  | some server => '/' :: '/' :: server

/-- The captures of a match that finds these parts. -/
def captures (parts : Parts) : List (Nat × List Char) :=
  captured 1 parts.scheme ++ (captured 2 parts.authority ++ ((3, parts.target.path) ::
    (captured 4 parts.target.query ++ captured 5 parts.target.fragment)))

theorem text_eq (parts : Parts) :
    parts.text = schemeText parts.scheme ++ (authorityText parts.authority ++ parts.target.text) := by
  obtain ⟨scheme, authority, target⟩ := parts
  cases scheme <;> cases authority <;> simp [Parts.text, schemeText, authorityText]

theorem ofMatch_captures (parts : Parts) (taken rest : List Char) :
    ofMatch ⟨parts.captures, taken, rest⟩ = parts := by
  obtain ⟨scheme, authority, path, query, fragment⟩ := parts
  cases scheme <;> cases authority <;> cases query <;> cases fragment <;> rfl

end Parts

open Parts

/-! ### The classes of the expression -/

theorem isOther_scheme : isOther [':', '/', '?', '#'] = fun c => !endsScheme c := by
  funext c
  simp only [isOther, endsScheme, List.contains_cons, List.contains_nil, Bool.or_false, Bool.or_assoc]

theorem isOther_authority : isOther ['/', '?', '#'] = fun c => !endsAuthority c := by
  funext c
  simp only [isOther, endsAuthority, List.contains_cons, List.contains_nil, Bool.or_false, Bool.or_assoc]

theorem isOther_path : isOther ['?', '#'] = fun c => !Target.endsPath c := by
  funext c
  simp only [isOther, Target.endsPath, List.contains_cons, List.contains_nil, Bool.or_false]

theorem isOther_singleton_iff {excluded c : Char} : isOther [excluded] c = true ↔ c ≠ excluded := by
  simp [isOther]

/-! ### The groups one after the other -/

theorem first?_schemePattern_of_schemePart {text name rest : List Char} (h : SchemePart text name rest) :
    schemePattern.first? text = some ⟨captured 1 (some name), name ++ [':'], rest⟩ := by
  have fits : ∀ c ∈ name, isOther [':', '/', '?', '#'] c = true := by
    simpa [isOther_scheme] using h.free
  have stop : Stops (isOther [':', '/', '?', '#']) (':' :: rest) := stops_cons.mpr (by decide)
  have named := first?_group 1 (first?_atLeastOne h.nonempty fits stop)
  rw [h.shape]
  exact first?_optional (first?_both named (first?_literal [':'] rest))

/-- Any name that is captured in front of a colon is a scheme, so without one the group takes no part. -/
theorem first?_schemePattern_of_none {text : List Char} (h : ∀ name rest, ¬ SchemePart text name rest) :
    schemePattern.first? text = some { rest := text } := by
  apply first?_optional_of_none
  apply first?_both_eq_none
  intro found member
  apply first?_literal_eq_none
  rintro ⟨rest, colon⟩
  -- The group may have given characters back, but what is left of its name stands in front of the colon.
  have whole := append_of_mem_ways member
  obtain ⟨name, inside, rfl⟩ := List.mem_map.mp member
  obtain ⟨nonempty, others⟩ := of_mem_ways_atLeastOne inside
  rw [← colon] at whole
  rw [isOther_scheme] at others
  exact h name.taken rest ⟨whole.symm, nonempty, by simpa using others⟩

theorem first?_schemePattern (text : List Char) :
    schemePattern.first? text =
      some ⟨captured 1 (splitScheme text).1, schemeText (splitScheme text).1, (splitScheme text).2⟩ := by
  cases scheme : (splitScheme text).1 with
  | some name => exact first?_schemePattern_of_schemePart (splitScheme_eq_some_iff.mp (Prod.ext scheme rfl))
  | none =>
      rw [splitScheme_of_none scheme]
      exact first?_schemePattern_of_none (splitScheme_eq_none_iff.mp scheme)

theorem first?_authorityPattern (text : List Char) :
    authorityPattern.first? text =
      some ⟨captured 2 (splitAuthority text).1, authorityText (splitAuthority text).1,
        (splitAuthority text).2⟩ := by
  by_cases slashes : ['/', '/'] <+: text
  · obtain ⟨server, rest, part⟩ := exists_authorityPart slashes
    have fits : ∀ c ∈ server, isOther ['/', '?', '#'] c = true := by
      simpa [isOther_authority] using part.free
    have stop : Stops (isOther ['/', '?', '#']) rest := by
      rw [isOther_authority]
      exact part.stop
    rw [splitAuthority_of_authorityPart part, part.shape]
    exact first?_marked ['/', '/'] 2 fits stop
  · rw [splitAuthority_of_no_slashes slashes]
    exact first?_marked_of_absent 2 ['/', '?', '#'] slashes

/-- A part behind a mark goes up to the one character that it must not hold. -/
theorem first?_withMark (mark : Char) (number : Nat) {excluded : Char} {part : Option (List Char)} {rest : List Char}
    (free : ∀ run ∈ part, excluded ∉ run) (stop : ∀ c ∈ rest.head?, c = excluded) (ne : excluded ≠ mark) :
    (marked [mark] number [excluded]).first? (Target.withMark mark part ++ rest) =
      some ⟨captured number part, Target.withMark mark part, rest⟩ := by
  cases part with
  | none =>
      have absent : ¬ [mark] <+: rest := by
        rintro ⟨more, shape⟩
        exact ne (stop mark (by rw [← shape]; rfl)).symm
      exact first?_marked_of_absent number [excluded] absent
  | some run =>
      have fits : ∀ c ∈ run, isOther [excluded] c = true := by
        intro c member
        rw [isOther_singleton_iff]
        rintro rfl
        exact free run rfl member
      have stop : Stops (isOther [excluded]) rest := by
        intro c first
        rw [stop c first]
        simp [isOther]
      exact first?_marked [mark] number fits stop

theorem first?_targetPattern {target : Target} (h : target.WellFormed)
    (line : ∀ fragment ∈ target.fragment, '\n' ∉ fragment) :
    targetPattern.first? target.text =
      some ⟨(3, target.path) :: (captured 4 target.query ++ captured 5 target.fragment), target.text, []⟩ := by
  obtain ⟨path, query, fragment⟩ := target
  have fits : ∀ c ∈ path, isOther ['?', '#'] c = true := by
    simpa [isOther_path] using h.path_free
  have stop : Stops (isOther ['?', '#']) (Target.withMark '?' query ++ Target.withMark '#' fragment) := by
    rw [isOther_path]
    exact Target.stops_marks query fragment
  have hash : ∀ c ∈ (Target.withMark '#' fragment).head?, c = '#' := by
    cases fragment <;> simp [Target.withMark]
  have behind : ∀ c ∈ ([] : List Char).head?, c = '\n' := by simp
  have inPath := first?_group 3 (first?_others fits stop)
  have inQuery := first?_withMark '?' 4 h.query_free hash (by decide)
  have inFragment := first?_withMark '#' 5 line behind (by decide)
  rw [List.append_nil] at inFragment
  have ended := first?_both inFragment first?_finish
  have found := first?_both inPath (first?_both inQuery ended)
  simpa [targetPattern, Target.text, Match.append] using found

/-! ### The whole expression -/

theorem Parts.text_split (text : List Char) : (split text).text = text := by
  have scheme := append_of_first? (first?_schemePattern text)
  have authority := append_of_first? (first?_authorityPattern (splitScheme text).2)
  rw [text_eq, split, Target.text_split, authority, scheme]

/-- A text is matched to its end, unless there is a line feed in its fragment. -/
theorem first?_uriPattern {text : List Char}
    (line : ∀ fragment ∈ (split text).target.fragment, '\n' ∉ fragment) :
    uriPattern.first? text = some ⟨(split text).captures, text, []⟩ := by
  have target := first?_targetPattern (Target.wellFormed_split _) line
  rw [Target.text_split] at target
  have found := first?_both (first?_schemePattern text) (first?_both (first?_authorityPattern _) target)
  have whole := (List.append_nil _).symm.trans (append_of_first? found)
  exact found.trans (congrArg some (Match.ext rfl whole rfl))

theorem Parts.separated_split (text : List Char) : (split text).Separated where
  scheme := by
    intro name found c member
    have part : SchemePart text name (splitScheme text).2 := splitScheme_eq_some_iff.mp (Prod.ext found rfl)
    simpa [endsScheme, and_assoc] using part.free c member
  authority := by
    intro server found c member
    have part := splitAuthority_eq_some_iff.mp (Prod.ext found rfl)
    simpa [endsAuthority, and_assoc] using part.free c member
  path := by
    intro c member
    simpa [Target.endsPath] using (Target.wellFormed_split _).path_free c member
  query := (Target.wellFormed_split _).query_free
  rooted := by
    intro present
    obtain ⟨server, found⟩ := Option.ne_none_iff_exists'.mp present
    have part := splitAuthority_eq_some_iff.mp (Prod.ext found rfl)
    have rooted := rooted_of_stops part.stop
    cases path : (split text).target.path with
    | nil => exact Or.inl rfl
    | cons c rest =>
        have slash : c = '/' := rooted c (congrArg List.head? path)
        exact Or.inr ⟨rest, by rw [slash]⟩

/-! ### No other way to cut a text -/

namespace Parts.Separated

variable {parts : Parts}

theorem wellFormed (h : parts.Separated) : parts.target.WellFormed where
  path_free := by
    intro c member
    simpa [Target.endsPath] using h.path c member
  query_free := h.query

theorem schemePart (h : parts.Separated) {name : List Char} (found : parts.scheme = some name)
    (nonempty : name ≠ []) :
    SchemePart parts.text name (authorityText parts.authority ++ parts.target.text) where
  shape := by
    rw [text_eq, found, schemeText, List.append_assoc]
    rfl
  nonempty := nonempty
  free := by
    intro c member
    simpa [endsScheme, and_assoc] using h.scheme name found c member

theorem authorityPart (h : parts.Separated) {server : List Char} (found : parts.authority = some server) :
    AuthorityPart (authorityText parts.authority ++ parts.target.text) server parts.target.text where
  shape := by
    rw [found]
    rfl
  free := by
    intro c member
    simpa [endsAuthority, and_assoc] using h.authority server found c member
  stop := by
    apply Target.stops_text
    rcases h.rooted (by simp [found]) with path | ⟨rest, path⟩ <;> simp [path]

/-- The scheme of the parts is the one that is found, unless they go without it. -/
theorem splitScheme_text (h : parts.Separated) (start : parts.text.head? ≠ some ':') :
    splitScheme parts.text = (parts.scheme, authorityText parts.authority ++ parts.target.text) ∨
      parts.scheme = none ∧ (splitScheme parts.text).1 ≠ none := by
  cases scheme : parts.scheme with
  | none =>
      by_cases without : (splitScheme parts.text).1 = none
      · have whole : parts.text = authorityText parts.authority ++ parts.target.text := by
          rw [text_eq, scheme]
          rfl
        rw [splitScheme_of_none without, whole]
        exact Or.inl rfl
      · exact Or.inr ⟨rfl, without⟩
  | some name =>
      have nonempty : name ≠ [] := by
        rintro rfl
        simp [text_eq, scheme, schemeText] at start
      exact Or.inl (splitScheme_of_schemePart (h.schemePart scheme nonempty))

/-- The authority of the parts is the one that is found, unless they go without it. -/
theorem splitAuthority_text (h : parts.Separated) :
    splitAuthority (authorityText parts.authority ++ parts.target.text) =
        (parts.authority, parts.target.text) ∨
      parts.authority = none ∧
        (splitAuthority (authorityText parts.authority ++ parts.target.text)).1 ≠ none := by
  cases authority : parts.authority with
  | none =>
      rw [authorityText, List.nil_append]
      by_cases slashes : ['/', '/'] <+: parts.target.text
      · obtain ⟨server, rest, part⟩ := exists_authorityPart slashes
        rw [splitAuthority_of_authorityPart part]
        exact Or.inr ⟨rfl, Option.some_ne_none server⟩
      · exact Or.inl (splitAuthority_of_no_slashes slashes)
  | some server =>
      have part := h.authorityPart authority
      rw [authority] at part
      exact Or.inl (splitAuthority_of_authorityPart part)

/-- Parts that do not go without the scheme or the authority of their text are those that `split` finds. -/
theorem eq_split_or_forgoes (h : parts.Separated) (start : parts.text.head? ≠ some ':') :
    parts = split parts.text ∨ parts.Forgoes (split parts.text) := by
  rcases h.splitScheme_text start with scheme | without
  · rcases h.splitAuthority_text with authority | ⟨without, found⟩
    · left
      rw [split, scheme, authority, Target.split_text h.wellFormed]
    · right
      right
      rw [split, scheme]
      exact ⟨rfl, without, found⟩
  · exact Or.inr (Or.inl without)

end Parts.Separated

/-! ### Reading with the expression -/

/-- Reading by way of the expression, with the answer to a text that it does not match. -/
def readMatched (unmatched : Except Fault Address) (text : List Char) : Except Fault Address :=
  if isWellSpelled text then
    match uriPattern.first? text with
    | none => unmatched
    | some found => ofParts (ofMatch found)
  else .error .malformed

/-- No line feed is legal, so none is in the fragment. -/
theorem line_of_isWellSpelled {text : List Char} (h : isWellSpelled text = true) :
    ∀ fragment ∈ (split text).target.fragment, '\n' ∉ fragment := by
  intro fragment found member
  have legal : isLegal text = true := (Bool.and_eq_true_iff.mp h).2
  have inText : '\n' ∈ text := by
    rw [← text_split text, text_eq, Target.text, Option.mem_def.mp found, Target.withMark]
    simp [member]
  exact not_isControl_of_isLegal legal _ inText (by decide)

/-- The answer to an unmatched text is never given. -/
theorem readMatched_eq (unmatched : Except Fault Address) (text : List Char) :
    readMatched unmatched text = read text := by
  unfold readMatched
  by_cases spelled : isWellSpelled text = true
  · rw [if_pos spelled, first?_uriPattern (line_of_isWellSpelled spelled)]
    simp only [ofMatch_captures]
    rw [read, if_pos spelled]
  · rw [if_neg spelled, read, if_neg spelled]

/-- The expression matches every well-spelled text. Its groups capture the parts that the reader finds, which give
the text back and are free of the marks that end them; other such parts of the text go without a scheme or without
an authority. -/
theorem first?_uriPattern_of_isWellSpelled {text : List Char} (h : isWellSpelled text = true) :
    ∃ found, uriPattern.first? text = some found ∧ ofMatch found = split text ∧
      (ofMatch found).text = text ∧ (ofMatch found).Separated ∧
      (∀ parts : Parts, parts.text = text → parts.Separated →
        parts = ofMatch found ∨ parts.Forgoes (ofMatch found)) ∧
      ∀ unmatched, readMatched unmatched text = read text := by
  refine ⟨_, first?_uriPattern (line_of_isWellSpelled h), ?_⟩
  rw [ofMatch_captures]
  refine ⟨rfl, text_split text, separated_split text, ?_, fun unmatched => readMatched_eq unmatched text⟩
  rintro parts rfl separated
  have start : parts.text.head? ≠ some ':' := bne_iff_ne.mp (Bool.and_eq_true_iff.mp h).1
  exact separated.eq_split_or_forgoes start

/-- Only the first mark of each kind counts. -/
theorem first?_uriPattern_of_repeated_marks :
    ∃ text found, isWellSpelled text = true ∧ uriPattern.first? text = some found ∧
      ofMatch found = ⟨some "http".toList, some "u:@[::1]:8".toList,
        ⟨"//x:y".toList, some "?é/".toList, some "#%41?:".toList⟩⟩ ∧
      (ofMatch found).text = text := by
  let text := "http://u:@[::1]:8//x:y??é/##%41?:".toList
  have spelled : isWellSpelled text = true := by decide
  obtain ⟨found, first, parts, whole, _⟩ := first?_uriPattern_of_isWellSpelled spelled
  refine ⟨text, found, spelled, first, ?_, whole⟩
  rw [parts]
  decide

end GameClient.Address
