import Mathlib.Data.List.Basic
import GameClient.Proofs.Json
/-!
The grammar of JSON is not ambiguous. The first character of a value says which rule spells it, and what is
spelled goes on as far as it can, so that a text spells one value at most.
-/

namespace GameClient.Json

open Text

/-! ### White space, text between quotes and numbers -/

/-- White space can be left in one way only, if none comes behind it. -/
theorem Gap.unique {space : Char → Bool} {text rest rest' : List Char} (one : Gap space text rest)
    (two : Gap space text rest') (stop : Stops space rest) (stop' : Stops space rest') :
    rest = rest' := by
  obtain ⟨run, blank, rfl⟩ := one
  obtain ⟨run', blank', shape⟩ := two
  rw [← dropWhile_append_of_stops blank stop, shape, dropWhile_append_of_stops blank' stop']

theorem IsCode.unique {digits digits' rest rest' : List Char} {n n' : Nat} (one : IsCode digits n)
    (two : IsCode digits' n') (same : digits ++ rest = digits' ++ rest') : n = n' ∧ rest = rest' := by
  obtain ⟨rfl, later⟩ := List.append_inj same (one.four.trans two.four.symm)
  exact ⟨one.value.symm.trans two.value, later⟩

/-- No character has the code of one of the two halves. -/
theorem not_isHigh_toNat (c : Char) : ¬ (0xD800 ≤ c.toNat ∧ c.toNat < 0xDC00) := by
  have valid := c.valid
  simp only [UInt32.isValidChar, Nat.isValidChar] at valid
  unfold Char.toNat
  omega

theorem lookup_u : shortEscapes.lookup 'u' = none :=
  rfl

namespace SpellsChar

variable {text rest rest' : List Char} {c c' : Char}

theorem head?_ne_quote (h : SpellsChar text c rest) : text.head? ≠ some '"' := by
  cases h with
  | plain _ noQuote _ => simpa using noQuote
  | short | code | pair => simp

/-- An escape of one letter is nothing else. -/
theorem of_short {mark : Char} (known : shortEscapes.lookup mark = some c)
    (h : SpellsChar ('\\' :: mark :: rest) c' rest') : c = c' ∧ rest = rest' := by
  have notCode : mark ≠ 'u' := by
    rintro rfl
    simp [lookup_u] at known
  generalize shape : '\\' :: mark :: rest = text at h
  cases h with
  | plain _ _ noBackslash => exact absurd (List.cons.inj shape).1.symm noBackslash
  | short known' =>
      simp only [List.cons.injEq, true_and] at shape
      obtain ⟨rfl, rfl⟩ := shape
      exact ⟨Option.some.inj (known.symm.trans known'), rfl⟩
  | code | pair =>
      simp only [List.cons.injEq, true_and] at shape
      exact absurd shape.1 notCode

/-- An escape by a code gives the code of the character or the two halves of it. -/
theorem of_u (h : SpellsChar ('\\' :: 'u' :: text) c rest) :
    (∃ digits, IsCode digits c.toNat ∧ text = digits ++ rest) ∨
      ∃ digits digits' high low, IsCode digits high ∧ IsCode digits' low ∧
        (0xD800 ≤ high ∧ high < 0xDC00) ∧ c.toNat = joinHalves high low ∧
        text = digits ++ '\\' :: 'u' :: (digits' ++ rest) := by
  generalize shape : '\\' :: 'u' :: text = whole at h
  cases h with
  | plain _ _ noBackslash => exact absurd (List.cons.inj shape).1.symm noBackslash
  | short known =>
      simp only [List.cons.injEq, true_and] at shape
      rw [← shape.1, lookup_u] at known
      simp at known
  | code code =>
      simp only [List.cons.injEq, true_and] at shape
      exact Or.inl ⟨_, code, shape⟩
  | pair first second isHigh _ joined =>
      simp only [List.cons.injEq, true_and] at shape
      exact Or.inr ⟨_, _, _, _, first, second, isHigh, joined, shape⟩

/-- A character is spelled by so much of a text and no more, and it is one character only. -/
theorem unique (one : SpellsChar text c rest) (two : SpellsChar text c' rest') :
    c = c' ∧ rest = rest' := by
  cases one with
  | plain visible noQuote noBackslash =>
      cases two with
      | plain => exact ⟨rfl, rfl⟩
      | short | code | pair => exact absurd rfl noBackslash
  | short known => exact two.of_short known
  | code code =>
      rcases two.of_u with ⟨digits', code', same⟩ | ⟨_, _, high, _, first, _, isHigh, _, same⟩
      · obtain ⟨value, later⟩ := code.unique code' same
        exact ⟨Char.toNat_inj.mp value, later⟩
      · obtain ⟨value, _⟩ := code.unique first same
        rw [← value] at isHigh
        exact absurd isHigh (not_isHigh_toNat c)
  | pair first second isHigh isLow joined =>
      rcases two.of_u with ⟨digits', code', same⟩ | ⟨_, _, _, _, first', second', _, joined', same⟩
      · obtain ⟨value, _⟩ := first.unique code' same
        rw [value] at isHigh
        exact absurd isHigh (not_isHigh_toNat c')
      · obtain ⟨rfl, later⟩ := first.unique first' same
        simp only [List.cons.injEq, true_and] at later
        obtain ⟨rfl, last⟩ := second.unique second' later
        exact ⟨Char.toNat_inj.mp (joined.trans joined'.symm), last⟩

end SpellsChar

/-- A quoted text has one content and one end. -/
theorem Quotes.unique {text content content' rest rest' : List Char} (one : Quotes text content rest)
    (two : Quotes text content' rest') : content = content' ∧ rest = rest' := by
  induction one generalizing content' with
  | @close rest =>
      generalize shape : '"' :: rest = text at two
      cases two with
      | close => exact ⟨rfl, (List.cons.inj shape).2⟩
      | char spelled => exact absurd (by rw [← shape]; rfl) spelled.head?_ne_quote
  | char spelled others ih =>
      cases two with
      | close => exact absurd rfl spelled.head?_ne_quote
      | char spelled' others' =>
          obtain ⟨rfl, rfl⟩ := spelled.unique spelled'
          obtain ⟨rfl, rfl⟩ := ih others'
          exact ⟨rfl, rfl⟩

namespace IsNumber

variable {literal literal' rest rest' : List Char}

/-- A number starts with its sign or with a digit. -/
theorem exists_cons (h : IsNumber literal) :
    ∃ c others, literal = c :: others ∧ (c = '-' ∨ c.isDigit = true) := by
  obtain ⟨signed, isWhole, _, _⟩ := h
  rcases signed with rfl | rfl
  · obtain ⟨c, others, rfl⟩ := List.exists_cons_of_ne_nil isWhole.nonempty
    exact ⟨c, _, rfl, Or.inr (isWhole.digits c (by simp))⟩
  · exact ⟨'-', _, rfl, Or.inl rfl⟩

/-- A number that goes on as far as it can has one end. -/
theorem unique (one : IsNumber literal) (two : IsNumber literal') (stop : Stops isNumberChar rest)
    (stop' : Stops isNumberChar rest') (same : literal ++ rest = literal' ++ rest') :
    literal = literal' ∧ rest = rest' := by
  have literals : literal = literal' := by
    rw [← takeWhile_append_of_stops one.isNumberChar_of_mem stop, same,
      takeWhile_append_of_stops two.isNumberChar_of_mem stop']
  subst literals
  exact ⟨rfl, List.append_cancel_left same⟩

end IsNumber

/-! ### Values -/

/-- The value can start with the character. -/
def opens : Json → Char → Bool
  | .null, c => c == 'n'
  | .bool true, c => c == 't'
  | .bool false, c => c == 'f'
  | .number _, c => c == '-' || c.isDigit
  | .text _, c => c == '"'
  | .array _, c => c == '['
  | .object _, c => c == '\x7b'

/-- The marks between values, and behind the last of them. -/
def marks : List Char :=
  [']', '\x7d', ':', ',']

/-- No value starts with white space or with one of the marks. -/
theorem opens_eq_false (value : Json) : ∀ c ∈ spaces ++ marks, value.opens c = false := by
  cases value with
  | bool value => cases value <;> simp [spaces, marks, opens]
  | null | number | text | array | object => simp [spaces, marks, opens]

theorem isSpace_of_opens {value : Json} {c : Char} (h : value.opens c = true) : isSpace c = false := by
  rw [Bool.eq_false_iff]
  intro space
  rw [isSpace, List.contains_iff_mem] at space
  simp [opens_eq_false value c (List.mem_append_left _ space)] at h

theorem ne_of_opens {value : Json} {c mark : Char} (h : value.opens c = true) (marked : mark ∈ marks) :
    c ≠ mark := by
  rintro rfl
  simp [opens_eq_false value c (List.mem_append_right _ marked)] at h

theorem isSpace_of_mem_marks : ∀ {mark : Char}, mark ∈ marks → isSpace mark = false := by
  simp [marks, isSpace, spaces]

/-- No other value starts like one that is written as a word. -/
theorem eq_of_opens {value other : Json} {c : Char} (word : value.word?.isSome = true)
    (one : value.opens c = true) (two : other.opens c = true) : other = value := by
  have noDigit : ['n', 't', 'f'].all (fun c => !c.isDigit) = true := by decide
  fun_cases word? value <;> fun_cases opens other c <;> simp_all [opens, word?]

namespace Spells

variable {space : Char → Bool} {value value' : Json} {text inner rest rest' : List Char}

theorem exists_opens (h : Spells space (.value value) text rest) :
    ∃ c others, text = c :: others ∧ value.opens c = true := by
  cases h with
  | word known =>
      fun_cases word? value <;> simp only [word?, Option.some.injEq, reduceCtorEq] at known
      all_goals
        subst known
        exact ⟨_, _, rfl, rfl⟩
  | number isNumber =>
      obtain ⟨c, others, rfl, first⟩ := isNumber.exists_cons
      exact ⟨c, _, rfl, by simpa [opens] using first⟩
  | text | emptyArray | array | emptyObject | object => exact ⟨_, _, rfl, rfl⟩

theorem opens_of_cons {c : Char} (h : Spells space (.value value) (c :: inner) rest) :
    value.opens c = true := by
  obtain ⟨d, others, shape, first⟩ := h.exists_opens
  rw [(List.cons.inj shape).1]
  exact first

theorem stops_isSpace (h : Spells space (.value value) text rest) : Stops isSpace text := by
  obtain ⟨c, others, rfl, first⟩ := h.exists_opens
  exact stops_cons.mpr (isSpace_of_opens first)

/-! The first character of a value says which rule spells it. -/

theorem of_quote (h : Spells space (.value value) ('"' :: inner) rest) :
    ∃ content : String, value = .text content ∧ Quotes inner content.toList rest := by
  have first := h.opens_of_cons
  cases value with
  | bool value => cases value <;> simp [opens] at first
  | null | number | array | object => simp [opens] at first
  | text content =>
      generalize shape : '"' :: inner = text at h
      cases h with
      | word known => simp [word?] at known
      | text quoted => exact ⟨content, rfl, (List.cons.inj shape).2 ▸ quoted⟩

theorem of_bracket (h : Spells space (.value value) ('[' :: inner) rest) :
    ∃ values, value = .array values ∧
      (values = [] ∧ Gap space inner (']' :: rest) ∨
        Spells space (.entries (values.map bare)) inner (']' :: rest)) := by
  have first := h.opens_of_cons
  cases value with
  | bool value => cases value <;> simp [opens] at first
  | null | number | text | object => simp [opens] at first
  | array values =>
      generalize shape : '[' :: inner = text at h
      refine ⟨values, rfl, ?_⟩
      cases h with
      | word known => simp [word?] at known
      | emptyArray gap => exact Or.inl ⟨rfl, (List.cons.inj shape).2 ▸ gap⟩
      | array entries => exact Or.inr ((List.cons.inj shape).2 ▸ entries)

theorem of_brace (h : Spells space (.value value) ('\x7b' :: inner) rest) :
    ∃ members, value = .object members ∧
      (members = [] ∧ Gap space inner ('\x7d' :: rest) ∨
        Spells space (.entries (members.map named)) inner ('\x7d' :: rest)) := by
  have first := h.opens_of_cons
  cases value with
  | bool value => cases value <;> simp [opens] at first
  | null | number | text | array => simp [opens] at first
  | object members =>
      generalize shape : '\x7b' :: inner = text at h
      refine ⟨members, rfl, ?_⟩
      cases h with
      | word known => simp [word?] at known
      | emptyObject gap => exact Or.inl ⟨rfl, (List.cons.inj shape).2 ▸ gap⟩
      | object entries => exact Or.inr ((List.cons.inj shape).2 ▸ entries)

theorem of_word {word : List Char} (known : value.word? = some word)
    (h : Spells space (.value value') (word ++ rest) rest') : value' = value ∧ rest' = rest := by
  have spelled : Spells space (.value value) (word ++ rest) rest := .word known
  obtain ⟨c, others, shape, first⟩ := spelled.exists_opens
  have same : value' = value := by
    rw [shape] at h
    exact eq_of_opens (by simp [known]) first h.opens_of_cons
  subst same
  generalize whole : word ++ rest = text at h
  cases h with
  | word known' =>
      obtain rfl := Option.some.inj (known.symm.trans known')
      exact ⟨rfl, (List.append_cancel_left whole).symm⟩
  | number | text | emptyArray | array | emptyObject | object => simp [word?] at known

theorem of_number {literal : List Char} (isNumber : IsNumber literal)
    (h : Spells space (.value value) (literal ++ rest) rest') :
    ∃ literal', value = .number literal' ∧ IsNumber literal' ∧
      literal ++ rest = literal' ++ rest' := by
  obtain ⟨c, others, shape, first⟩ := isNumber.exists_cons
  have opened : value.opens c = true := by
    rw [shape] at h
    exact h.opens_of_cons
  cases value with
  | bool value => cases value <;> simp only [opens, beq_iff_eq] at opened <;> simp [opened] at first
  | null | text | array | object =>
      simp only [opens, beq_iff_eq] at opened
      simp [opened] at first
  | number literal' =>
      generalize whole : literal ++ rest = text at h
      cases h with
      | word known => simp [word?] at known
      | number isNumber' => exact ⟨literal', rfl, isNumber', rfl⟩

theorem exists_start_of_entry {entry : Option String × Json} (h : Spells space (.entry entry) text rest) :
    ∃ c others value, Gap space text (c :: others) ∧ opens value c = true := by
  cases h with
  | entry label before spelled after =>
      cases label with
      | none =>
          obtain ⟨c, others, rfl, first⟩ := spelled.exists_opens
          exact ⟨c, others, _, before, first⟩
      | name front quoted back => exact ⟨'"', _, .text "", front, rfl⟩

theorem exists_start_of_entries {entries : List (Option String × Json)}
    (h : Spells space (.entries entries) text rest) :
    ∃ c others value, Gap space text (c :: others) ∧ opens value c = true := by
  cases h with
  | last one => exact one.exists_start_of_entry
  | more one _ => exact one.exists_start_of_entry

/-- Behind an opening bracket stands an entry or the closing one. -/
theorem not_gap_of_entries {mark : Char} (marked : mark ∈ marks) {entries : List (Option String × Json)}
    (h : Spells isSpace (.entries entries) text rest) (others : List Char) :
    ¬ Gap isSpace text (mark :: others) := by
  intro gap
  obtain ⟨c, more, value, start, first⟩ := h.exists_start_of_entries
  have stop : Stops isSpace (mark :: others) := stops_cons.mpr (isSpace_of_mem_marks marked)
  have same := start.unique gap (stops_cons.mpr (isSpace_of_opens first)) stop
  exact ne_of_opens first marked (List.cons.inj same).1

end Spells

/-- Two forms that a rule can be about in one place. -/
def Form.Alike : Form → Form → Prop
  | .value _, other => ∃ value, other = .value value
  | .entry _, other => ∃ entry, other = .entry entry
  | .entries _, other => ∃ entries, other = .entries entries

/-- What is spelled could go on with the character. -/
def Form.continues : Form → Char → Bool
  | .value _, c => isNumberChar c
  | .entry _, c => isNumberChar c || isSpace c || c == ':'
  | .entries _, c => isNumberChar c || isSpace c || c == ':' || c == ','

theorem bare_injective : Function.Injective bare := by
  intro value value' same
  exact (Prod.mk.inj same).2

theorem named_injective : Function.Injective named := by
  intro member member' same
  obtain ⟨name, value⟩ := Prod.mk.inj same
  exact Prod.ext (Option.some.inj name) value

theorem stops_entry {entry : Option String × Json} {rest : List Char} :
    Stops (Form.entry entry).continues rest ↔
      Stops isNumberChar rest ∧ Stops isSpace rest ∧ rest.head? ≠ some ':' := by
  cases rest <;> simp [Stops, Form.continues, and_assoc]

theorem stops_entries {entries : List (Option String × Json)} {rest : List Char}
    (stop : Stops (Form.entries entries).continues rest) :
    (∀ entry, Stops (Form.entry entry).continues rest) ∧ rest.head? ≠ some ',' := by
  constructor
  · intro entry
    refine stop.mono fun c h => ?_
    exact (Bool.or_eq_false_iff.mp h).1
  · intro comma
    have goesOn := stop ',' comma
    simp [Form.continues] at goesOn

/-- Nothing but white space lies between a value and the end of its entry. -/
theorem Gap.stops_isNumberChar {text rest : List Char} (gap : Gap isSpace text rest)
    (stop : Stops isNumberChar rest) : Stops isNumberChar text := by
  obtain ⟨run, blank, rfl⟩ := gap
  cases run with
  | nil => exact stop
  | cons c run =>
      have space : c ∈ spaces := by simpa [isSpace] using blank c (by simp)
      have every : spaces.all (fun c => !isNumberChar c) = true := by decide
      exact stops_cons.mpr (by simpa using List.all_eq_true.mp every c space)

/-- A name has one content and one end. -/
theorem Label.unique {name name' : String} {text next next' : List Char}
    (one : Label isSpace (some name) text next) (two : Label isSpace (some name') text next') :
    name' = name ∧ next' = next := by
  have noSpace : ∀ {mark : Char}, isSpace mark = false → ∀ rest, Stops isSpace (mark :: rest) :=
    fun h _ => stops_cons.mpr h
  cases one with
  | name before quoted after =>
      cases two with
      | name before' quoted' after' =>
          have inner := before.unique before' (noSpace rfl _) (noSpace rfl _)
          obtain rfl := (List.cons.inj inner).2
          obtain ⟨same, rfl⟩ := quoted.unique quoted'
          have next := after.unique after' (noSpace rfl _) (noSpace rfl _)
          exact ⟨(String.toList_injective same).symm, (List.cons.inj next).2.symm⟩

/-- The text spells a value between white space, and no colon comes behind. -/
structure SpellsBare (value : Json) (text start stop rest : List Char) : Prop where
  before : Gap isSpace text start
  spelled : Spells isSpace (.value value) start stop
  after : Gap isSpace stop rest
  noSpace : Stops isSpace rest
  noColon : rest.head? ≠ some ':'

/-- A text in quotes without a colon behind it is not the name of anything. -/
theorem SpellsBare.not_label {value : Json} {name : String} {text start stop rest next : List Char}
    (bare : SpellsBare value text start stop rest) : ¬ Label isSpace (some name) text next := by
  intro label
  cases label with
  | name before quoted after =>
      obtain rfl := bare.before.unique before bare.spelled.stops_isSpace (stops_cons.mpr rfl)
      obtain ⟨content, rfl, quoted'⟩ := bare.spelled.of_quote
      obtain ⟨_, rfl⟩ := quoted.unique quoted'
      obtain rfl := bare.after.unique after bare.noSpace (stops_cons.mpr rfl)
      exact bare.noColon rfl

theorem Label.unique_of_entries {name name' : Option String} {value value' : Json}
    {text next next' start start' stop stop' rest rest' : List Char}
    (one : Label isSpace name text next) (two : Label isSpace name' text next')
    (entry : SpellsBare value next start stop rest)
    (entry' : SpellsBare value' next' start' stop' rest') : name' = name ∧ next' = next := by
  cases name with
  | none =>
      cases one
      cases name' with
      | none =>
          cases two
          exact ⟨rfl, rfl⟩
      | some name' => exact absurd two entry.not_label
  | some name =>
      cases name' with
      | none =>
          cases two
          exact absurd one entry'.not_label
      | some name' =>
          obtain ⟨rfl, rfl⟩ := one.unique two
          exact ⟨rfl, rfl⟩

/-- What a text spells, and where that ends, if it goes on as far as it can. -/
theorem Spells.unique {form other : Form} {text rest rest' : List Char}
    (one : Spells isSpace form text rest) (two : Spells isSpace other text rest')
    (alike : form.Alike other) (stop : Stops form.continues rest) (stop' : Stops form.continues rest') :
    other = form ∧ rest' = rest := by
  induction one generalizing other rest' with
  | word known =>
      obtain ⟨value', rfl⟩ := alike
      obtain ⟨rfl, rfl⟩ := two.of_word known
      exact ⟨rfl, rfl⟩
  | number isNumber =>
      obtain ⟨value', rfl⟩ := alike
      obtain ⟨literal', rfl, isNumber', same⟩ := two.of_number isNumber
      obtain ⟨rfl, rfl⟩ := isNumber.unique isNumber' stop stop' same
      exact ⟨rfl, rfl⟩
  | text quoted =>
      obtain ⟨value', rfl⟩ := alike
      obtain ⟨content', rfl, quoted'⟩ := two.of_quote
      obtain ⟨same, rfl⟩ := quoted.unique quoted'
      obtain rfl := String.toList_injective same
      exact ⟨rfl, rfl⟩
  | emptyArray gap =>
      obtain ⟨value', rfl⟩ := alike
      obtain ⟨values, rfl, ⟨rfl, gap'⟩ | entries⟩ := two.of_bracket
      · have same := gap.unique gap' (stops_cons.mpr rfl) (stops_cons.mpr rfl)
        exact ⟨rfl, (List.cons.inj same).2.symm⟩
      · exact absurd gap (entries.not_gap_of_entries (by decide) _)
  | array entries ih =>
      obtain ⟨value', rfl⟩ := alike
      obtain ⟨values', rfl, ⟨rfl, gap⟩ | entries'⟩ := two.of_bracket
      · exact absurd gap (entries.not_gap_of_entries (by decide) _)
      · obtain ⟨same, later⟩ := ih entries' ⟨_, rfl⟩ (stops_cons.mpr rfl) (stops_cons.mpr rfl)
        obtain rfl := List.map_injective_iff.mpr bare_injective (Form.entries.inj same)
        exact ⟨rfl, (List.cons.inj later).2⟩
  | emptyObject gap =>
      obtain ⟨value', rfl⟩ := alike
      obtain ⟨members, rfl, ⟨rfl, gap'⟩ | entries⟩ := two.of_brace
      · have same := gap.unique gap' (stops_cons.mpr rfl) (stops_cons.mpr rfl)
        exact ⟨rfl, (List.cons.inj same).2.symm⟩
      · exact absurd gap (entries.not_gap_of_entries (by decide) _)
  | object entries ih =>
      obtain ⟨value', rfl⟩ := alike
      obtain ⟨members', rfl, ⟨rfl, gap⟩ | entries'⟩ := two.of_brace
      · exact absurd gap (entries.not_gap_of_entries (by decide) _)
      · obtain ⟨same, later⟩ := ih entries' ⟨_, rfl⟩ (stops_cons.mpr rfl) (stops_cons.mpr rfl)
        obtain rfl := List.map_injective_iff.mpr named_injective (Form.entries.inj same)
        exact ⟨rfl, (List.cons.inj later).2⟩
  | entry label before spelled after ih =>
      obtain ⟨⟨name', value'⟩, rfl⟩ := alike
      obtain ⟨noNumber, noSpace, noColon⟩ := stops_entry.mp stop
      obtain ⟨noNumber', noSpace', noColon'⟩ := stops_entry.mp stop'
      cases two with
      | entry label' before' spelled' after' =>
          -- Either both have a name or neither has; then the values start in one place.
          obtain ⟨rfl, rfl⟩ := label.unique_of_entries label' ⟨before, spelled, after, noSpace, noColon⟩
            ⟨before', spelled', after', noSpace', noColon'⟩
          obtain rfl := before.unique before' spelled.stops_isSpace spelled'.stops_isSpace
          obtain ⟨same, rfl⟩ := ih spelled' ⟨_, rfl⟩ (after.stops_isNumberChar noNumber)
            (after'.stops_isNumberChar noNumber')
          obtain rfl := after.unique after' noSpace noSpace'
          rw [Form.value.inj same]
          exact ⟨rfl, rfl⟩
  | last one ih =>
      obtain ⟨entries', rfl⟩ := alike
      obtain ⟨ends, noComma⟩ := stops_entries stop
      obtain ⟨ends', _⟩ := stops_entries stop'
      cases two with
      | last one' =>
          obtain ⟨same, rfl⟩ := ih one' ⟨_, rfl⟩ (ends _) (ends' _)
          rw [Form.entry.inj same]
          exact ⟨rfl, rfl⟩
      | more one' others' =>
          obtain ⟨_, rfl⟩ := ih one' ⟨_, rfl⟩ (ends _) (stops_cons.mpr rfl)
          exact absurd rfl noComma
  | more one others ih ih' =>
      obtain ⟨entries', rfl⟩ := alike
      obtain ⟨ends', noComma'⟩ := stops_entries stop'
      cases two with
      | last one' =>
          obtain ⟨_, rfl⟩ := ih one' ⟨_, rfl⟩ (stops_cons.mpr rfl) (ends' _)
          exact absurd rfl noComma'
      | more one' others' =>
          obtain ⟨same, next⟩ := ih one' ⟨_, rfl⟩ (stops_cons.mpr rfl) (stops_cons.mpr rfl)
          obtain rfl := (List.cons.inj next).2
          obtain ⟨same', rfl⟩ := ih' others' ⟨_, rfl⟩ stop stop'
          rw [Form.entry.inj same, Form.entries.inj same']
          exact ⟨rfl, rfl⟩

/-- A text spells one value at most. -/
theorem IsText.unique {text : List Char} {value value' : Json} (one : IsText isSpace text value)
    (two : IsText isSpace text value') : value' = value := by
  obtain ⟨same, _⟩ := Spells.unique one two ⟨_, rfl⟩ (by simp [Stops]) (by simp [Stops])
  exact (Prod.mk.inj (Form.entry.inj same)).2

end GameClient.Json
