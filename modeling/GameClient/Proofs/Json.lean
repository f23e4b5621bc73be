import GameClient.Proofs.Legal
import GameClient.Proofs.Numeral
/-!
The grammar of JSON. Each rule takes what it spells from the front of a text and leaves the rest of it. White
space may stand around every value, name and mark; which characters count as white space is a parameter, so
that a compact text is one that is spelled without any. A compact text has no line break.
-/

namespace GameClient

open Text

/-- A value. A number is kept as it is written: the grammar gives its digits no other meaning. -/
inductive Json where
  | null
  | bool (value : Bool)
  | number (literal : List Char)
  | text (content : String)
  | array (values : List Json)
  | object (members : List (String × Json))

namespace Json

/-! ### White space -/

/-- The white space of the grammar. -/
def spaces : List Char :=
  [' ', '\t', '\n', '\r']

/-- The character is white space of the grammar. -/
def isSpace (c : Char) : Bool :=
  spaces.contains c

/-- `rest` is what some white space leaves of the text. -/
def Gap (space : Char → Bool) (text rest : List Char) : Prop :=
  ∃ run, (∀ c ∈ run, space c = true) ∧ text = run ++ rest

theorem Gap.refl (space : Char → Bool) (text : List Char) : Gap space text text :=
  ⟨[], by simp, rfl⟩

theorem Gap.mono {space other : Char → Bool} (more : ∀ c, space c = true → other c = true)
    {text rest : List Char} (gap : Gap space text rest) : Gap other text rest := by
  obtain ⟨run, blank, shape⟩ := gap
  exact ⟨run, fun c member => more c (blank c member), shape⟩

/-! ### Text between quotes -/

/-- The escapes of one letter, and what they stand for. -/
def shortEscapes : List (Char × Char) :=
  [('"', '"'), ('\\', '\\'), ('/', '/'), ('b', '\x08'), ('f', '\x0c'), ('n', '\n'), ('r', '\r'),
   ('t', '\t')]

/-- The value of a hexadecimal digit. -/
def hexValue (c : Char) : Nat :=
  if c.toNat ≤ 0x39 then c.toNat - 0x30
  else if c.toNat ≤ 0x46 then c.toNat - 0x37
  else c.toNat - 0x57

/-- Four hexadecimal digits with a value. -/
structure IsCode (digits : List Char) (n : Nat) : Prop where
  four : digits.length = 4
  hex : ∀ c ∈ digits, c.isHexDigit = true
  value : digits.foldl (fun sum c => 16 * sum + hexValue c) 0 = n

/-- The code of the character whose code is written in two halves. -/
def joinHalves (high low : Nat) : Nat :=
  0x10000 + (high - 0xD800) * 0x400 + (low - 0xDC00)

/-- The front of the text stands for one character: for itself, unless it is a quote, a backslash or a
control character below U+0020; or by an escape of one letter; or by its code, or the two halves of it. -/
inductive SpellsChar : List Char → Char → List Char → Prop where
  | plain {c : Char} {rest : List Char} (visible : 0x20 ≤ c.toNat) (noQuote : c ≠ '"')
      (noBackslash : c ≠ '\\') : SpellsChar (c :: rest) c rest
  | short {mark c : Char} {rest : List Char} (known : shortEscapes.lookup mark = some c) :
      SpellsChar ('\\' :: mark :: rest) c rest
  | code {digits rest : List Char} {c : Char} (code : IsCode digits c.toNat) :
      SpellsChar ('\\' :: 'u' :: (digits ++ rest)) c rest
  | pair {digits digits' rest : List Char} {high low : Nat} {c : Char} (first : IsCode digits high)
      (second : IsCode digits' low) (isHigh : 0xD800 ≤ high ∧ high < 0xDC00)
      (isLow : 0xDC00 ≤ low ∧ low < 0xE000) (joined : c.toNat = joinHalves high low) :
      SpellsChar ('\\' :: 'u' :: (digits ++ '\\' :: 'u' :: (digits' ++ rest))) c rest

/-- The text up to the first quote that is not escaped stands for the content. -/
inductive Quotes : List Char → List Char → List Char → Prop where
  | close {rest : List Char} : Quotes ('"' :: rest) [] rest
  | char {text next rest content : List Char} {c : Char} (one : SpellsChar text c next)
      (others : Quotes next content rest) : Quotes text (c :: content) rest

/-! ### Numbers -/

/-- One digit or more. -/
def IsDigits (text : List Char) : Prop :=
  text ≠ [] ∧ ∀ c ∈ text, c.isDigit = true

/-- Nothing, or a point and digits. -/
inductive IsFraction : List Char → Prop where
  | none : IsFraction []
  | some {digits : List Char} (isDigits : IsDigits digits) : IsFraction ('.' :: digits)

/-- Nothing, or an `e` in either case, perhaps a sign, and digits. -/
inductive IsExponent : List Char → Prop where
  | none : IsExponent []
  | some {mark : Char} {sign digits : List Char} (marked : mark = 'e' ∨ mark = 'E')
      (signed : sign = [] ∨ sign = ['+'] ∨ sign = ['-']) (isDigits : IsDigits digits) :
      IsExponent (mark :: (sign ++ digits))

/-- A number: perhaps a minus sign, a numeral without leading zeros, perhaps a fraction and perhaps an
exponent. -/
inductive IsNumber : List Char → Prop where
  | mk {sign whole fraction exponent : List Char} {n : Nat} (signed : sign = [] ∨ sign = ['-'])
      (isWhole : Numeral.IsDecimal whole n) (isFraction : IsFraction fraction)
      (isExponent : IsExponent exponent) : IsNumber (sign ++ (whole ++ (fraction ++ exponent)))

/-- The characters of numbers. -/
def isNumberChar (c : Char) : Bool :=
  c.isDigit || c == '-' || c == '+' || c == '.' || c == 'e' || c == 'E'

namespace IsNumber

variable {literal literal' rest rest' : List Char}

theorem isNumberChar_of_mem (h : IsNumber literal) : ∀ c ∈ literal, isNumberChar c = true := by
  have ofDigits : ∀ digits : List Char, (∀ c ∈ digits, c.isDigit = true) →
      ∀ c ∈ digits, isNumberChar c = true := by
    intro digits every c member
    simp [isNumberChar, every c member]
  obtain ⟨signed, isWhole, isFraction, isExponent⟩ := h
  simp only [List.forall_mem_append]
  refine ⟨?sign, ofDigits _ isWhole.digits, ?fraction, ?exponent⟩
  case sign => rcases signed with rfl | rfl <;> simp [isNumberChar]
  case fraction =>
    cases isFraction with
    | none => simp
    | some isDigits => exact List.forall_mem_cons.mpr ⟨by decide, ofDigits _ isDigits.2⟩
  case exponent =>
    cases isExponent with
    | none => simp
    | some marked signed isDigits =>
        rw [List.forall_mem_cons, List.forall_mem_append]
        refine ⟨?_, ?_, ofDigits _ isDigits.2⟩
        · rcases marked with rfl | rfl <;> decide
        · rcases signed with rfl | rfl | rfl <;> simp [isNumberChar]

end IsNumber

/-! ### Values -/

/-- The word for a value, if there is one. -/
def word? : Json → Option (List Char)
  | .null => some ['n', 'u', 'l', 'l']
  | .bool true => some ['t', 'r', 'u', 'e']
  | .bool false => some ['f', 'a', 'l', 's', 'e']
  | _ => none

/-- What a rule is about: a value; one entry of an array or of an object, which is a value and in an object
also its name; or all entries, one at least. -/
inductive Form where
  | value (value : Json)
  | entry (entry : Option String × Json)
  | entries (entries : List (Option String × Json))

/-- An entry of an array. -/
def bare (value : Json) : Option String × Json :=
  (none, value)

/-- An entry of an object. -/
def named (member : String × Json) : Option String × Json :=
  (some member.1, member.2)

/-- The front of the text is the name of an entry and a colon, or nothing if it has none. -/
inductive Label (space : Char → Bool) : Option String → List Char → List Char → Prop where
  | none {text : List Char} : Label space none text text
  | name {name : String} {text inner colon rest : List Char} (before : Gap space text ('"' :: inner))
      (quoted : Quotes inner name.toList colon) (after : Gap space colon (':' :: rest)) :
      Label space (some name) text rest

/-- The front of the text spells what the form says, and `rest` is left. -/
inductive Spells (space : Char → Bool) : Form → List Char → List Char → Prop where
  | word {value : Json} {word rest : List Char} (known : value.word? = some word) :
      Spells space (.value value) (word ++ rest) rest
  | number {literal rest : List Char} (isNumber : IsNumber literal) :
      Spells space (.value (.number literal)) (literal ++ rest) rest
  | text {content : String} {inner rest : List Char} (quoted : Quotes inner content.toList rest) :
      Spells space (.value (.text content)) ('"' :: inner) rest
  | emptyArray {inner rest : List Char} (gap : Gap space inner (']' :: rest)) :
      Spells space (.value (.array [])) ('[' :: inner) rest
  | array {values : List Json} {inner rest : List Char}
      (entries : Spells space (.entries (values.map bare)) inner (']' :: rest)) :
      Spells space (.value (.array values)) ('[' :: inner) rest
  | emptyObject {inner rest : List Char} (gap : Gap space inner ('\x7d' :: rest)) :
      Spells space (.value (.object [])) ('\x7b' :: inner) rest
  | object {members : List (String × Json)} {inner rest : List Char}
      (entries : Spells space (.entries (members.map named)) inner ('\x7d' :: rest)) :
      Spells space (.value (.object members)) ('\x7b' :: inner) rest
  | entry {name : Option String} {value : Json} {text next start stop rest : List Char}
      (label : Label space name text next) (before : Gap space next start)
      (spelled : Spells space (.value value) start stop) (after : Gap space stop rest) :
      Spells space (.entry (name, value)) text rest
  | last {entry : Option String × Json} {text rest : List Char}
      (one : Spells space (.entry entry) text rest) : Spells space (.entries [entry]) text rest
  | more {entry : Option String × Json} {entries : List (Option String × Json)}
      {text next rest : List Char} (one : Spells space (.entry entry) text (',' :: next))
      (others : Spells space (.entries entries) next rest) :
      Spells space (.entries (entry :: entries)) text rest

/-- The whole text spells the value, perhaps between white space. -/
def IsText (space : Char → Bool) (text : List Char) (value : Json) : Prop :=
  Spells space (.entry (none, value)) text []

theorem Label.mono {space other : Char → Bool} (more : ∀ c, space c = true → other c = true)
    {name : Option String} {text rest : List Char} (label : Label space name text rest) :
    Label other name text rest := by
  cases label with
  | none => exact .none
  | name before quoted after => exact .name (before.mono more) quoted (after.mono more)

/-- More characters that count as white space make more texts. -/
theorem Spells.mono {space other : Char → Bool} (more : ∀ c, space c = true → other c = true)
    {form : Form} {text rest : List Char} (h : Spells space form text rest) :
    Spells other form text rest := by
  induction h with
  | word known => exact .word known
  | number isNumber => exact .number isNumber
  | text quoted => exact .text quoted
  | emptyArray gap => exact .emptyArray (gap.mono more)
  | array _ ih => exact .array ih
  | emptyObject gap => exact .emptyObject (gap.mono more)
  | object _ ih => exact .object ih
  | entry label before _ after ih => exact .entry (label.mono more) (before.mono more) ih (after.mono more)
  | last _ ih => exact .last ih
  | more _ _ ih ih' => exact .more ih ih'

/-! ### Compact texts -/

/-- No character counts as white space. -/
def noSpace (_ : Char) : Bool :=
  false

/-- The text holds no control character below U+0020, so no line ends in it. -/
def IsLine (text : List Char) : Prop :=
  ∀ c ∈ text, 0x20 ≤ c.toNat

theorem isLine_cons {c : Char} {text : List Char} : IsLine (c :: text) ↔ 0x20 ≤ c.toNat ∧ IsLine text :=
  List.forall_mem_cons

theorem isLine_append {text rest : List Char} : IsLine (text ++ rest) ↔ IsLine text ∧ IsLine rest :=
  List.forall_mem_append

theorem Gap.eq {text rest : List Char} (gap : Gap noSpace text rest) : text = rest := by
  obtain ⟨run, blank, rfl⟩ := gap
  cases run with
  | nil => rfl
  | cons c run => exact absurd (blank c (by simp)) Bool.false_ne_true

theorem IsCode.isLine {digits : List Char} {n : Nat} (code : IsCode digits n) : IsLine digits := by
  intro c member
  have codes := Address.isHexDigit_iff_toNat.mp (code.hex c member)
  omega

theorem IsNumber.isLine {literal : List Char} (h : IsNumber literal) : IsLine literal := by
  intro c member
  have fits := h.isNumberChar_of_mem c member
  simp only [isNumberChar, Bool.or_eq_true, beq_iff_eq, or_assoc] at fits
  rcases fits with digit | rfl | rfl | rfl | rfl | rfl
  · have hex : c.isHexDigit = true := by simp [Char.isHexDigit, digit]
    have codes := Address.isHexDigit_iff_toNat.mp hex
    omega
  all_goals decide

theorem visible_of_lookup {mark c : Char} (known : shortEscapes.lookup mark = some c) :
    0x20 ≤ mark.toNat := by
  obtain ⟨before, after, shape, _⟩ := List.lookup_eq_some_iff.mp known
  have member : (mark, c) ∈ shortEscapes := by simp [shape]
  have every : shortEscapes.all (fun escape => decide (0x20 ≤ escape.1.toNat)) = true := by decide
  simpa using List.all_eq_true.mp every _ member

theorem SpellsChar.isLine {text rest : List Char} {c : Char} (spelled : SpellsChar text c rest)
    (line : IsLine rest) : IsLine text := by
  have escape : ∀ {mark : Char} {others : List Char}, 0x20 ≤ mark.toNat → IsLine others →
      IsLine ('\\' :: mark :: others) := by
    intro mark others visible later
    exact isLine_cons.mpr ⟨by decide, isLine_cons.mpr ⟨visible, later⟩⟩
  cases spelled with
  | plain visible _ _ => exact isLine_cons.mpr ⟨visible, line⟩
  | short known => exact escape (visible_of_lookup known) line
  | code code => exact escape (by decide) (isLine_append.mpr ⟨code.isLine, line⟩)
  | @pair _ digits _ _ _ _ first second =>
      have later : IsLine ('\\' :: 'u' :: (digits ++ rest)) :=
        escape (by decide) (isLine_append.mpr ⟨second.isLine, line⟩)
      exact escape (by decide) (isLine_append.mpr ⟨first.isLine, later⟩)

theorem Quotes.isLine {text content rest : List Char} (quoted : Quotes text content rest)
    (line : IsLine rest) : IsLine text := by
  induction quoted with
  | close => exact isLine_cons.mpr ⟨by decide, line⟩
  | char one _ ih => exact one.isLine (ih line)

theorem isLine_of_word? {value : Json} {word : List Char} (known : value.word? = some word) :
    IsLine word := by
  fun_cases word? value <;> simp only [word?, Option.some.injEq, reduceCtorEq] at known
  all_goals
    subst known
    simp [IsLine]

theorem Label.isLine {name : Option String} {text rest : List Char} (label : Label noSpace name text rest)
    (line : IsLine rest) : IsLine text := by
  cases label with
  | none => exact line
  | name before quoted after =>
      rw [before.eq]
      have later : IsLine (':' :: rest) := isLine_cons.mpr ⟨by decide, line⟩
      exact isLine_cons.mpr ⟨by decide, quoted.isLine (after.eq ▸ later)⟩

/-- A compact text is one line, if what comes behind is. -/
theorem Spells.isLine {form : Form} {text rest : List Char} (h : Spells noSpace form text rest)
    (line : IsLine rest) : IsLine text := by
  induction h with
  | word known => exact isLine_append.mpr ⟨isLine_of_word? known, line⟩
  | number isNumber => exact isLine_append.mpr ⟨isNumber.isLine, line⟩
  | text quoted => exact isLine_cons.mpr ⟨by decide, quoted.isLine line⟩
  | emptyArray gap =>
      rw [gap.eq]
      exact isLine_cons.mpr ⟨by decide, isLine_cons.mpr ⟨by decide, line⟩⟩
  | array _ ih => exact isLine_cons.mpr ⟨by decide, ih (isLine_cons.mpr ⟨by decide, line⟩)⟩
  | emptyObject gap =>
      rw [gap.eq]
      exact isLine_cons.mpr ⟨by decide, isLine_cons.mpr ⟨by decide, line⟩⟩
  | object _ ih => exact isLine_cons.mpr ⟨by decide, ih (isLine_cons.mpr ⟨by decide, line⟩)⟩
  | entry label before _ after ih => exact label.isLine (before.eq ▸ ih (after.eq ▸ line))
  | last _ ih => exact ih line
  | more _ _ ih ih' => exact ih (isLine_cons.mpr ⟨by decide, ih' line⟩)

end Json

end GameClient
