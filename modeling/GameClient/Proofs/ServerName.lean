import GameClient.Address.Authority
import GameClient.Proofs.Legal
import GameClient.Proofs.Numeral
/-!
The hosts that name a server, as a grammar. The checks on the name of a host accept exactly the dotted
quads and the dotted names of the grammar, and no host holds a mark of the parts around it.
-/

namespace GameClient.Address.Host

open Text

/-- Four octets between dots. -/
def IsQuad (host : List Char) : Prop :=
  ∃ a b c d, (∀ part ∈ [a, b, c, d], isOctet part = true) ∧ host = ['.'].intercalate [a, b, c, d]

/-- Labels between dots, perhaps with one more dot behind the last of them. -/
def IsName (host : List Char) : Prop :=
  ∃ labels, labels ≠ [] ∧ (∀ label ∈ labels, isLabel label = true) ∧ hasTopLabel labels = true ∧
    (host = ['.'].intercalate labels ∨ host = ['.'].intercalate labels ++ ['.'])

/-- The text between two brackets. -/
def IsBracketed (host : List Char) : Prop :=
  ∃ body, isBracketedBody body = true ∧ host = '[' :: (body ++ [']'])

/-- A host that can name a server. -/
def IsServer (host : List Char) : Prop :=
  IsBracketed host ∨ IsQuad host ∨ IsName host

/-! ### Labels and octets -/

theorem isAlphanum_of_isDigit {c : Char} (h : c.isDigit = true) : c.isAlphanum = true := by
  simp [Char.isAlphanum, h]

theorem isAlphanum_of_isHexDigit {c : Char} (h : c.isHexDigit = true) : c.isAlphanum = true := by
  have codes := isHexDigit_iff_toNat.mp h
  exact isAlphanum_iff_toNat.mpr (by omega)

theorem isLabelChar_of_mem {label : List Char} {c : Char} (h : isLabel label = true)
    (member : c ∈ label) : isLabelChar c = true := by
  simp only [isLabel, Bool.and_eq_true, List.all_eq_true] at h
  exact h.1.1 c member

theorem ne_nil_of_isLabel {label : List Char} (h : isLabel label = true) : label ≠ [] := by
  rintro rfl
  exact absurd h (by decide)

theorem dot_not_mem_of_isLabel {label : List Char} (h : isLabel label = true) : '.' ∉ label := by
  intro member
  exact absurd (isLabelChar_of_mem h member) (by decide)

/-- No label ends with a dot, so a dot behind a label is not part of it. -/
theorem getLast?_ne_dot_of_isLabel {label : List Char} (h : isLabel label = true) :
    label.getLast? ≠ some '.' := by
  intro last
  exact dot_not_mem_of_isLabel h (List.mem_of_getLast? last)

theorem isLabel_of_isOctet {part : List Char} (h : isOctet part = true) : isLabel part = true := by
  simp only [isOctet, Bool.and_eq_true, Option.any_eq_true] at h
  obtain ⟨_, value, numeral, _⟩ := h
  obtain ⟨nonempty, digits, _⟩ := Numeral.read_eq_some_iff.mp numeral
  have alphanum : ∀ c ∈ part, c.isAlphanum = true :=
    fun c member => isAlphanum_of_isDigit (digits c member)
  have chars : part.all isLabelChar = true := by
    rw [List.all_eq_true]
    intro c member
    simp [isLabelChar, alphanum c member]
  have first : part.head?.any Char.isAlphanum = true := by
    rw [List.head?_eq_some_head nonempty]
    exact alphanum _ (List.head_mem nonempty)
  have last : part.getLast?.any Char.isAlphanum = true := by
    rw [List.getLast?_eq_some_getLast nonempty]
    exact alphanum _ (List.getLast_mem nonempty)
  simp [isLabel, chars, first, last]

/-! ### Parts between dots -/

theorem getLast?_intercalate_dot {parts : List (List Char)} (every : ∀ part ∈ parts, part ≠ []) :
    (['.'].intercalate parts).getLast? = parts.getLast?.bind List.getLast? := by
  induction parts with
  | nil => rfl
  | cons part rest ih =>
      cases rest with
      | nil => simp
      | cons next rest =>
          have tail := ih fun other member => every other (by simp [member])
          obtain ⟨last, found⟩ : ∃ last, (next :: rest).getLast? = some last :=
            ⟨_, List.getLast?_eq_some_getLast (by simp)⟩
          have nonempty : last ≠ [] :=
            every last (List.mem_cons_of_mem _ (List.mem_of_getLast? found))
          rw [found] at tail
          rw [List.intercalate_cons_cons, List.getLast?_append, tail, List.getLast?_cons_cons, found]
          simp [List.getLast?_eq_some_getLast nonempty]

/-- Labels between dots, and not a dot behind them, are what `labels` gives back. -/
theorem labels_intercalate {labels : List (List Char)} (nonempty : labels ≠ [])
    (every : ∀ label ∈ labels, isLabel label = true) :
    Host.labels (['.'].intercalate labels) = labels ∧
      Host.labels (['.'].intercalate labels ++ ['.']) = labels := by
  have noDot : ∀ label ∈ labels, '.' ∉ label :=
    fun label member => dot_not_mem_of_isLabel (every label member)
  have last : (['.'].intercalate labels).getLast? ≠ some '.' := by
    rw [getLast?_intercalate_dot fun label member => ne_nil_of_isLabel (every label member)]
    intro dot
    obtain ⟨label, found, final⟩ := Option.bind_eq_some_iff.mp dot
    exact getLast?_ne_dot_of_isLabel (every label (List.mem_of_getLast? found)) final
  constructor
  · rw [Host.labels, dropFinal_of_getLast?_ne last, List.splitOn_intercalate '.' noDot nonempty]
  · rw [Host.labels, dropFinal_append, List.splitOn_intercalate '.' noDot nonempty]

theorem isDottedQuad_iff {host : List Char} : isDottedQuad host = true ↔ IsQuad host := by
  constructor
  · intro h
    simp only [isDottedQuad, Bool.and_eq_true, beq_iff_eq, List.all_eq_true] at h
    obtain ⟨a, b, c, d, parts⟩ : ∃ a b c d, host.splitOn '.' = [a, b, c, d] := by
      match host.splitOn '.', h.1 with
      | [a, b, c, d], _ => exact ⟨a, b, c, d, rfl⟩
    refine ⟨a, b, c, d, parts ▸ h.2, ?_⟩
    rw [← parts, List.intercalate_splitOn]
  · intro quad
    obtain ⟨a, b, c, d, octets, rfl⟩ := quad
    have noDot : ∀ part ∈ [a, b, c, d], '.' ∉ part :=
      fun part member => dot_not_mem_of_isLabel (isLabel_of_isOctet (octets part member))
    simp only [isDottedQuad, List.splitOn_intercalate '.' noDot (by simp), Bool.and_eq_true,
      List.all_eq_true]
    exact ⟨rfl, octets⟩

/-- The checks on a name accept the quads and the names of the grammar. -/
theorem isServerName_iff {host : List Char} :
    isServerName host = true ↔ IsQuad host ∨ IsName host := by
  simp only [isServerName, Bool.and_eq_true, Bool.or_eq_true, isDottedQuad_iff, List.all_eq_true]
  constructor
  · intro checked
    rcases checked with ⟨every, quad | top⟩
    · exact Or.inl quad
    · refine Or.inr ⟨Host.labels host, List.splitOn_ne_nil _ _, every, top, ?_⟩
      have whole : ['.'].intercalate (Host.labels host) = dropFinal '.' host :=
        List.intercalate_splitOn '.'
      rw [whole]
      exact eq_dropFinal_or '.' host
  · intro grammar
    rcases grammar with quad | ⟨labels, nonempty, every, top, rfl | rfl⟩
    · refine ⟨?_, Or.inl quad⟩
      obtain ⟨a, b, c, d, octets, rfl⟩ := quad
      have every : ∀ part ∈ [a, b, c, d], isLabel part = true :=
        fun part member => isLabel_of_isOctet (octets part member)
      rw [(labels_intercalate (by simp) every).1]
      exact every
    · rw [(labels_intercalate nonempty every).1]
      exact ⟨every, Or.inr top⟩
    · rw [(labels_intercalate nonempty every).2]
      exact ⟨every, Or.inr top⟩

/-! ### The characters of a host -/

/-- The characters of a host without brackets. -/
def isNameChar (c : Char) : Bool :=
  isLabelChar c || c == '.'

theorem isNameChar_of_mem {host : List Char} (h : IsQuad host ∨ IsName host) {c : Char}
    (member : c ∈ host) : isNameChar c = true := by
  have dotted : ∀ parts : List (List Char), (∀ part ∈ parts, isLabel part = true) →
      c ∈ ['.'].intercalate parts → isNameChar c = true := by
    intro parts every found
    rcases eq_or_mem_of_mem_intercalate found with rfl | ⟨part, one, inside⟩
    · decide
    · simp [isNameChar, isLabelChar_of_mem (every part one) inside]
  rcases h with ⟨a, b, c, d, octets, rfl⟩ | ⟨labels, _, every, _, rfl | rfl⟩
  · exact dotted _ (fun part one => isLabel_of_isOctet (octets part one)) member
  · exact dotted _ every member
  · rcases List.mem_append.mp member with inside | final
    · exact dotted _ every inside
    · rw [List.mem_singleton.mp final]
      decide

/-- The characters of a host. -/
def isHostChar (c : Char) : Bool :=
  isNameChar c || c == ':' || c == '[' || c == ']'

theorem isHostChar_of_isBracketedChar {c : Char} (h : isBracketedChar c = true) :
    isHostChar c = true := by
  simp only [isBracketedChar, Bool.or_eq_true, beq_iff_eq] at h
  rcases h with (hex | rfl) | rfl
  · simp [isHostChar, isNameChar, isLabelChar, isAlphanum_of_isHexDigit hex]
  · decide
  · decide

theorem isHostChar_of_mem {host : List Char} (h : IsServer host) {c : Char} (member : c ∈ host) :
    isHostChar c = true := by
  rcases h with ⟨body, fits, rfl⟩ | named
  · simp only [isBracketedBody, Bool.and_eq_true, List.all_eq_true] at fits
    simp only [List.mem_cons, List.mem_append, List.not_mem_nil, or_false] at member
    rcases member with rfl | inside | rfl
    · decide
    · exact isHostChar_of_isBracketedChar (fits.2 c inside)
    · decide
  · simp [isHostChar, isNameChar_of_mem named member]

end GameClient.Address.Host
