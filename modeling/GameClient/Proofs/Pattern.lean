import GameClient.Proofs.Cut
/-!
Regular expressions as a greedy search reads them. `ways` lists the ways in which an expression matches the
beginning of a text, the preferred one first: more of a repetition before less, an optional part before none.
The search takes the first way, so it gives up a preferred choice only if nothing that follows can go on from it.
-/

namespace GameClient.Text

/-- A regular expression. Its classes are those of all characters but a few, and only classes are repeated. -/
inductive Pattern where
  /-- The characters themselves. -/
  | literal (wanted : List Char)
  /-- One character of a class, `[^…]`. -/
  | other (excluded : List Char)
  /-- Any number of characters of a class, as many as possible, `[^…]*`. -/
  | others (excluded : List Char)
  /-- The body if possible, and otherwise nothing, `(?:…)?`. -/
  | optional (body : Pattern)
  | both (first second : Pattern)
  /-- A group that is captured under a number, `(…)`. -/
  | group (number : Nat) (body : Pattern)
  /-- The end of the text, `$`. -/
  | finish
deriving Repr, DecidableEq

/-- A match at the beginning of a text: what the groups have captured, what is matched, and what is left. -/
@[ext]
structure Match where
  groups : List (Nat × List Char) := []
  taken : List Char := []
  rest : List Char
deriving Repr, DecidableEq

namespace Match

/-- A match and one of the text that it leaves. -/
def append (one two : Match) : Match :=
  ⟨one.groups ++ two.groups, one.taken ++ two.taken, two.rest⟩

/-- What the group with this number has captured, if it has taken part. -/
def group? (found : Match) (number : Nat) : Option (List Char) :=
  found.groups.lookup number

end Match

namespace Pattern

/-- A character of the class that leaves these out. -/
def isOther (excluded : List Char) (c : Char) : Bool :=
  !excluded.contains c

/-- The ways to take characters of a class from the front, the longest first. -/
def runs (excluded : List Char) : List Char → List Match
  | [] => [{ rest := [] }]
  | c :: rest =>
    if isOther excluded c then
      (runs excluded rest).map (Match.append { taken := [c], rest := rest }) ++ [{ rest := c :: rest }]
    else [{ rest := c :: rest }]

/-- The ways to match a beginning of the text, in the order of preference. -/
def ways : Pattern → List Char → List Match
  | .literal wanted, text =>
    if wanted <+: text then [{ taken := wanted, rest := text.drop wanted.length }] else []
  | .other _, [] => []
  | .other excluded, c :: rest => if isOther excluded c then [{ taken := [c], rest := rest }] else []
  | .others excluded, text => runs excluded text
  | .optional body, text => body.ways text ++ [{ rest := text }]
  | .both first second, text =>
    (first.ways text).flatMap fun one => (second.ways one.rest).map one.append
  | .group number body, text =>
    (body.ways text).map fun found => { found with groups := (number, found.taken) :: found.groups }
  | .finish, text => if text = [] then [{ rest := [] }] else []

section Ways

variable {c : Char} {number : Nat} {wanted excluded text rest : List Char} {first second body : Pattern}

theorem ways_literal : (literal wanted).ways text =
    if wanted <+: text then [{ taken := wanted, rest := text.drop wanted.length }] else [] :=
  rfl

theorem ways_other_cons : (other excluded).ways (c :: rest) =
    if isOther excluded c then [{ taken := [c], rest := rest }] else [] :=
  rfl

theorem ways_others : (others excluded).ways text = runs excluded text :=
  rfl

theorem ways_optional : (optional body).ways text = body.ways text ++ [{ rest := text }] :=
  rfl

theorem ways_both : (both first second).ways text =
    (first.ways text).flatMap fun one => (second.ways one.rest).map one.append :=
  rfl

theorem ways_group : (group number body).ways text =
    (body.ways text).map fun found => { found with groups := (number, found.taken) :: found.groups } :=
  rfl

theorem ways_finish : finish.ways text = if text = [] then [{ rest := [] }] else [] :=
  rfl

end Ways

/-- The match at the front of the text that is preferred to all others. -/
def first? (pattern : Pattern) (text : List Char) : Option Match :=
  (pattern.ways text).head?

/-- A repetition gives back what the part behind it needs. -/
example : ((others []).both (.literal ['a'])).first? ['a', 'a', 'b'] = some ⟨[], ['a', 'a'], ['b']⟩ := by
  decide

/-! ### Nothing is lost -/

/-- Characters of the class are taken, and what is taken and what is left are together the text. -/
theorem of_mem_runs {excluded text : List Char} {found : Match} (h : found ∈ runs excluded text) :
    found.taken ++ found.rest = text ∧ ∀ c ∈ found.taken, isOther excluded c = true := by
  induction text generalizing found with
  | nil =>
      rw [runs, List.mem_singleton] at h
      rw [h]
      exact ⟨rfl, List.forall_mem_nil _⟩
  | cons c rest ih =>
      rw [runs] at h
      split at h
      · next fits =>
          rcases List.mem_append.mp h with longer | last
          · obtain ⟨later, member, rfl⟩ := List.mem_map.mp longer
            obtain ⟨whole, others⟩ := ih member
            exact ⟨congrArg (c :: ·) whole, List.forall_mem_cons.mpr ⟨fits, others⟩⟩
          · rw [List.mem_singleton.mp last]
            exact ⟨rfl, List.forall_mem_nil _⟩
      · rw [List.mem_singleton.mp h]
        exact ⟨rfl, List.forall_mem_nil _⟩

/-- Whatever way is taken, what is matched and what is left are together the text. -/
theorem append_of_mem_ways {pattern : Pattern} {text : List Char} {found : Match}
    (h : found ∈ pattern.ways text) : found.taken ++ found.rest = text := by
  induction pattern generalizing text found with
  | literal wanted =>
      rw [ways_literal] at h
      split at h
      · next start =>
          rw [List.mem_singleton.mp h]
          exact List.prefix_iff_eq_append.mp start
      · exact absurd h List.not_mem_nil
  | other excluded =>
      cases text with
      | nil => exact absurd h List.not_mem_nil
      | cons c rest =>
          rw [ways_other_cons] at h
          split at h
          · rw [List.mem_singleton.mp h]
            rfl
          · exact absurd h List.not_mem_nil
  | others excluded => exact (of_mem_runs h).1
  | optional body ih =>
      rcases List.mem_append.mp h with some | none
      · exact ih some
      · rw [List.mem_singleton.mp none]
        rfl
  | both first second ih ih' =>
      obtain ⟨one, member, h⟩ := List.mem_flatMap.mp h
      obtain ⟨two, member', rfl⟩ := List.mem_map.mp h
      rw [Match.append, List.append_assoc, ih' member', ih member]
  | group number body ih =>
      obtain ⟨inner, member, rfl⟩ := List.mem_map.mp h
      have whole := ih member
      exact whole
  | finish =>
      rw [ways_finish] at h
      split at h
      · next same =>
          rw [List.mem_singleton.mp h, same]
          rfl
      · exact absurd h List.not_mem_nil

/-! ### The preferred match

The first way of an expression comes from the first ways of its parts, and an expression has none if no way of
its first part can be gone on from.
-/

section Preferred

variable {first second body : Pattern} {text : List Char} {one two : Match}

theorem first?_eq_none_iff {pattern : Pattern} : pattern.first? text = none ↔ pattern.ways text = [] :=
  List.head?_eq_none_iff

theorem append_of_first? {pattern : Pattern} (h : pattern.first? text = some one) :
    one.taken ++ one.rest = text :=
  append_of_mem_ways (List.mem_of_head? h)

theorem first?_both (h : first.first? text = some one) (h' : second.first? one.rest = some two) :
    (both first second).first? text = some (one.append two) := by
  obtain ⟨others, shape⟩ := List.head?_eq_some_iff.mp h
  obtain ⟨others', shape'⟩ := List.head?_eq_some_iff.mp h'
  rw [first?, ways_both, shape, List.flatMap_cons, shape']
  rfl

theorem first?_both_eq_none (h : ∀ found ∈ first.ways text, second.first? found.rest = none) :
    (both first second).first? text = none := by
  rw [first?_eq_none_iff, ways_both, List.flatMap_eq_nil_iff]
  intro found member
  rw [first?_eq_none_iff.mp (h found member)]
  rfl

theorem first?_optional (h : body.first? text = some one) : (optional body).first? text = some one := by
  obtain ⟨others, shape⟩ := List.head?_eq_some_iff.mp h
  rw [first?, ways_optional, shape]
  rfl

theorem first?_optional_of_none (h : body.first? text = none) :
    (optional body).first? text = some { rest := text } := by
  rw [first?, ways_optional, first?_eq_none_iff.mp h]
  rfl

theorem first?_group (number : Nat) (h : body.first? text = some one) :
    (group number body).first? text = some { one with groups := (number, one.taken) :: one.groups } := by
  obtain ⟨others, shape⟩ := List.head?_eq_some_iff.mp h
  rw [first?, ways_group, shape]
  rfl

theorem first?_literal (wanted rest : List Char) :
    (literal wanted).first? (wanted ++ rest) = some { taken := wanted, rest := rest } := by
  rw [first?, ways_literal, if_pos (List.prefix_append wanted rest), List.drop_left]
  rfl

theorem first?_literal_eq_none {wanted : List Char} (h : ¬ wanted <+: text) :
    (literal wanted).first? text = none := by
  rw [first?, ways_literal, if_neg h]
  rfl

theorem first?_finish : finish.first? [] = some { rest := [] } :=
  rfl

/-- A repetition takes all characters up to the first one that is not of its class. -/
theorem first?_others {excluded run rest : List Char} (fits : ∀ c ∈ run, isOther excluded c = true)
    (stop : Stops (isOther excluded) rest) :
    (others excluded).first? (run ++ rest) = some { taken := run, rest := rest } := by
  rw [first?, ways_others]
  induction run with
  | nil =>
      cases rest with
      | nil => rfl
      | cons c rest =>
          rw [List.nil_append, runs, if_neg (by rw [stops_cons.mp stop]; decide)]
          rfl
  | cons c run ih =>
      rw [List.forall_mem_cons] at fits
      obtain ⟨others, shape⟩ := List.head?_eq_some_iff.mp (ih fits.2)
      rw [List.cons_append, runs, if_pos fits.1, shape]
      rfl

end Preferred

/-! ### A repetition that is not empty -/

/-- At least one character of a class, `[^…]+`. -/
def atLeastOne (excluded : List Char) : Pattern :=
  both (other excluded) (others excluded)

theorem first?_atLeastOne {excluded run rest : List Char} (nonempty : run ≠ [])
    (fits : ∀ c ∈ run, isOther excluded c = true) (stop : Stops (isOther excluded) rest) :
    (atLeastOne excluded).first? (run ++ rest) = some { taken := run, rest := rest } := by
  obtain ⟨c, more, rfl⟩ := List.exists_cons_of_ne_nil nonempty
  rw [List.forall_mem_cons] at fits
  have opens : (other excluded).first? (c :: (more ++ rest)) =
      some { taken := [c], rest := more ++ rest } := by
    rw [first?, ways_other_cons, if_pos fits.1]
    rfl
  exact first?_both opens (first?_others fits.2 stop)

/-- A repetition that is given up in part still takes a character, and only characters of its class. -/
theorem of_mem_ways_atLeastOne {excluded text : List Char} {found : Match}
    (h : found ∈ (atLeastOne excluded).ways text) :
    found.taken ≠ [] ∧ ∀ c ∈ found.taken, isOther excluded c = true := by
  obtain ⟨one, opens, h⟩ := List.mem_flatMap.mp h
  obtain ⟨two, goes, rfl⟩ := List.mem_map.mp h
  cases text with
  | nil => exact absurd opens List.not_mem_nil
  | cons c rest =>
      rw [ways_other_cons] at opens
      split at opens
      · next fits =>
          rw [List.mem_singleton.mp opens]
          exact ⟨List.cons_ne_nil _ _, List.forall_mem_cons.mpr ⟨fits, (of_mem_runs goes).2⟩⟩
      · exact absurd opens List.not_mem_nil

/-! ### An optional part behind its mark -/

/-- A part behind a mark, captured up to the first excluded character, `(?:mark([^…]*))?`. -/
def marked (mark : List Char) (number : Nat) (excluded : List Char) : Pattern :=
  optional (both (literal mark) (group number (others excluded)))

/-- The capture of a part, if there is one. -/
def captured (number : Nat) (part : Option (List Char)) : List (Nat × List Char) :=
  (part.map (number, ·)).toList

theorem first?_marked (mark : List Char) (number : Nat) {excluded run rest : List Char}
    (fits : ∀ c ∈ run, isOther excluded c = true) (stop : Stops (isOther excluded) rest) :
    (marked mark number excluded).first? (mark ++ (run ++ rest)) =
      some ⟨captured number (some run), mark ++ run, rest⟩ := by
  have behind := first?_group number (first?_others fits stop)
  exact first?_optional (first?_both (first?_literal mark (run ++ rest)) behind)

theorem first?_marked_of_absent {mark text : List Char} (number : Nat) (excluded : List Char)
    (absent : ¬ mark <+: text) :
    (marked mark number excluded).first? text = some { rest := text } := by
  apply first?_optional_of_none
  apply first?_both_eq_none
  intro found member
  rw [first?_eq_none_iff.mp (first?_literal_eq_none absent)] at member
  exact absurd member List.not_mem_nil

end Pattern

end GameClient.Text
