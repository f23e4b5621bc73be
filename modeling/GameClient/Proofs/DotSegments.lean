import GameClient.Address.Resolve
import GameClient.Proofs.Legal
import Mathlib.Logic.Relation
/-!
Paths after the removal of dot segments. Such a path starts with a slash, none of its segments is a dot
segment, and it holds nothing but slashes and segments of the path that it was made of. `ResolvesTo` says
by single steps, in any order, what a path with dot segments stands for; the removal gives the only path
that a rooted path resolves to.
-/

namespace GameClient.Address

open Text

theorem joinSegments_eq_intercalate (segments : List (List Char)) :
    joinSegments segments = ['/'].intercalate ([] :: segments) := by
  induction segments with
  | nil => rfl
  | cons segment rest ih =>
      have step : joinSegments (segment :: rest) = '/' :: (segment ++ joinSegments rest) := by
        simp [joinSegments]
      rw [step, ih, List.intercalate_cons_cons]
      cases rest with
      | nil => simp
      | cons next rest => simp [List.intercalate_cons_cons]

theorem joinSegments_append_slash (segments : List (List Char)) :
    joinSegments segments ++ ['/'] = joinSegments (segments ++ [[]]) := by
  simp [joinSegments]

/-- The segments that a path keeps, the last one first, are segments of it and no dot segments. -/
theorem mem_foldl_keepSegment {segments kept : List (List Char)} {segment : List Char}
    (h : segment ∈ segments.foldl keepSegment kept) :
    segment ∈ kept ∨ segment ∈ segments ∧ isDotSegment segment = false := by
  induction segments generalizing kept with
  | nil => exact Or.inl h
  | cons first rest ih =>
      rcases ih h with before | ⟨later, named⟩
      · unfold keepSegment at before
        by_cases dot : first = ['.']
        · rw [if_pos dot] at before
          exact Or.inl before
        · rw [if_neg dot] at before
          by_cases dots : first = ['.', '.']
          · rw [if_pos dots] at before
            exact Or.inl (List.mem_of_mem_tail before)
          · rw [if_neg dots] at before
            rcases List.mem_cons.mp before with rfl | earlier
            · exact Or.inr ⟨by simp, by simp [isDotSegment, dot, dots]⟩
            · exact Or.inl earlier
      · exact Or.inr ⟨by simp [later], named⟩

/-- The result is made of segments of the path, and of one empty segment at its end if the path named a
directory by a dot segment. -/
theorem exists_removeDotSegments (path : List Char) :
    ∃ segments, segments ≠ [] ∧ removeDotSegments path = joinSegments segments ∧
      ∀ segment ∈ segments,
        isDotSegment segment = false ∧ (segment = [] ∨ segment ∈ path.splitOn '/') := by
  let kept := ((path.splitOn '/').tail.foldl keepSegment []).reverse
  have named : ∀ segment ∈ kept,
      isDotSegment segment = false ∧ (segment = [] ∨ segment ∈ path.splitOn '/') := by
    intro segment member
    rcases mem_foldl_keepSegment (List.mem_reverse.mp member) with before | ⟨found, noDots⟩
    · simp at before
    · exact ⟨noDots, Or.inr (List.mem_of_mem_tail found)⟩
  by_cases directory : kept = [] ∨ (path.splitOn '/').tail.getLast?.any isDotSegment
  · refine ⟨kept ++ [[]], by simp, ?_, ?_⟩
    · rw [← joinSegments_append_slash]
      exact if_pos directory
    · intro segment member
      rcases List.mem_append.mp member with inside | final
      · exact named segment inside
      · rw [List.mem_singleton.mp final]
        exact ⟨by decide, Or.inl rfl⟩
  · exact ⟨kept, fun empty => directory (Or.inl empty), if_neg directory, named⟩

theorem head?_removeDotSegments (path : List Char) :
    (removeDotSegments path).head? = some '/' := by
  obtain ⟨segments, nonempty, shape, _⟩ := exists_removeDotSegments path
  cases segments with
  | nil => exact absurd rfl nonempty
  | cons segment rest => simp [shape, joinSegments]

theorem isDotSegment_removeDotSegments (path : List Char) :
    ∀ segment ∈ (removeDotSegments path).splitOn '/', isDotSegment segment = false := by
  obtain ⟨segments, _, shape, named⟩ := exists_removeDotSegments path
  have noSlash : ∀ segment ∈ [] :: segments, '/' ∉ segment := by
    intro segment member
    rcases List.mem_cons.mp member with rfl | inside
    · simp
    · rcases (named segment inside).2 with rfl | found
      · simp
      · exact not_mem_of_mem_splitOn found
  rw [shape, joinSegments_eq_intercalate, List.splitOn_intercalate '/' noSlash (by simp)]
  intro segment member
  rcases List.mem_cons.mp member with rfl | inside
  · decide
  · exact (named segment inside).1

/-- Every character of the result is a slash or comes from the path. -/
theorem mem_of_mem_removeDotSegments {path : List Char} {c : Char}
    (h : c ∈ removeDotSegments path) : c = '/' ∨ c ∈ path := by
  obtain ⟨segments, _, shape, named⟩ := exists_removeDotSegments path
  rw [shape, joinSegments_eq_intercalate] at h
  rcases eq_or_mem_of_mem_intercalate h with slash | ⟨segment, member, inside⟩
  · exact Or.inl slash
  · rcases List.mem_cons.mp member with rfl | among
    · simp at inside
    · rcases (named segment among).2 with rfl | found
      · simp at inside
      · exact Or.inr (mem_of_mem_splitOn found inside)

/-- No escape is broken by the removal, since segments are taken or left as they are. -/
theorem isLegal_removeDotSegments {path : List Char} (h : isLegal path = true) :
    isLegal (removeDotSegments path) = true := by
  obtain ⟨segments, _, shape, named⟩ := exists_removeDotSegments path
  have whole : ['/'].intercalate (path.splitOn '/') = path := List.intercalate_splitOn '/'
  rw [← whole, isLegal_intercalate_iff (by decide)] at h
  rw [shape, joinSegments_eq_intercalate, isLegal_intercalate_iff (by decide)]
  intro segment member
  rcases List.mem_cons.mp member with rfl | inside
  · rfl
  · rcases (named segment inside).2 with rfl | found
    · rfl
    · exact h segment found

/-! ### The path that a path stands for -/

/-- A dot segment goes, and the one for the place above takes the name before it along; nothing lies
above the root. -/
inductive DotStep : List (List Char) → List (List Char) → Prop where
  | here (before after : List (List Char)) : DotStep (before ++ ['.'] :: after) (before ++ after)
  | above {name : List Char} (before after : List (List Char)) (named : isDotSegment name = false) :
      DotStep (before ++ name :: ['.', '.'] :: after) (before ++ after)
  | root (after : List (List Char)) : DotStep (['.', '.'] :: after) after

/-- The segments of a rooted path. Behind a dot segment at its end stands an empty one, since the path
names a directory. -/
def openSegments (path : List Char) : List (List Char) :=
  let segments := (path.splitOn '/').tail
  if segments.getLast?.any isDotSegment then segments ++ [[]] else segments

/-- Single steps lead from the segments of one path to those of the other, which has no dot segments. -/
def ResolvesTo (path resolved : List Char) : Prop :=
  ∃ segments, Relation.ReflTransGen DotStep (openSegments path) segments ∧
    (∀ segment ∈ segments, isDotSegment segment = false) ∧ resolved = joinSegments segments

theorem keepSegment_of_named {segment : List Char} (named : isDotSegment segment = false)
    (kept : List (List Char)) : keepSegment kept segment = segment :: kept := by
  simp only [isDotSegment, Bool.or_eq_false_iff, beq_eq_false_iff_ne] at named
  rw [keepSegment, if_neg named.1, if_neg named.2]

theorem eq_of_isDotSegment {segment : List Char} (h : isDotSegment segment = true) :
    segment = ['.'] ∨ segment = ['.', '.'] := by
  simpa [isDotSegment] using h

/-- Keeping the segments one by one takes single steps: those kept are in front of those to come. -/
theorem dotSteps_foldl_keepSegment {kept : List (List Char)} (segments : List (List Char))
    (named : ∀ segment ∈ kept, isDotSegment segment = false) :
    Relation.ReflTransGen DotStep (kept.reverse ++ segments)
      (segments.foldl keepSegment kept).reverse := by
  induction segments generalizing kept with
  | nil =>
      rw [List.append_nil]
      exact .refl
  | cons segment rest ih =>
      rw [List.foldl_cons]
      cases dot : isDotSegment segment with
      | false =>
          rw [keepSegment_of_named dot]
          have later := ih (List.forall_mem_cons.mpr ⟨dot, named⟩)
          simpa using later
      | true =>
          rcases eq_of_isDotSegment dot with rfl | rfl
          · exact .head (.here kept.reverse rest) (ih named)
          · cases kept with
            | nil => exact .head (.root rest) (ih named)
            | cons name kept =>
                obtain ⟨first, others⟩ := List.forall_mem_cons.mp named
                have step := DotStep.above kept.reverse rest first
                rw [List.reverse_cons, List.append_assoc, List.singleton_append]
                exact .head step (ih others)

/-- A single step does not change what is kept in the end. -/
theorem DotStep.foldl_keepSegment {one two : List (List Char)} (h : DotStep one two) :
    one.foldl keepSegment [] = two.foldl keepSegment [] := by
  cases h with
  | here before after => simp [keepSegment]
  | above before after named =>
      rw [List.foldl_append, List.foldl_append, List.foldl_cons, keepSegment_of_named named]
      simp [keepSegment]
  | root => simp [keepSegment]

theorem foldl_keepSegment_of_dotSteps {one two : List (List Char)}
    (h : Relation.ReflTransGen DotStep one two) :
    one.foldl keepSegment [] = two.foldl keepSegment [] := by
  induction h with
  | refl => rfl
  | tail _ step ih => exact ih.trans step.foldl_keepSegment

/-- Without dot segments, all segments are kept. -/
theorem foldl_keepSegment_of_named {segments : List (List Char)}
    (named : ∀ segment ∈ segments, isDotSegment segment = false) (kept : List (List Char)) :
    segments.foldl keepSegment kept = segments.reverse ++ kept := by
  induction segments generalizing kept with
  | nil => rfl
  | cons segment rest ih =>
      obtain ⟨first, others⟩ := List.forall_mem_cons.mp named
      rw [List.foldl_cons, keepSegment_of_named first, ih others]
      simp

/-- Of a rooted path the removal keeps the segments that `openSegments` gives, and nothing else. -/
theorem removeDotSegments_of_rooted {path : List Char} (rooted : path.head? = some '/') :
    removeDotSegments path = joinSegments ((openSegments path).foldl keepSegment []).reverse := by
  obtain ⟨rest, rfl⟩ := List.head?_eq_some_iff.mp rooted
  have tail : (('/' :: rest).splitOn '/').tail = rest.splitOn '/' := by
    rw [List.splitOn_cons_eq_if_modifyHead]
    rfl
  unfold removeDotSegments openSegments
  simp only [tail]
  by_cases directory : (rest.splitOn '/').getLast?.any isDotSegment = true
  · rw [if_pos (Or.inr directory), if_pos directory, List.foldl_append, List.foldl_cons,
      List.foldl_nil, keepSegment_of_named (by rfl), List.reverse_cons, joinSegments_append_slash]
  · -- The last segment is a name, so at least this one is kept.
    have kept : ((rest.splitOn '/').foldl keepSegment []).reverse ≠ [] := by
      obtain ⟨before, last, split⟩ : ∃ before last, rest.splitOn '/' = before ++ [last] :=
        ⟨_, _, (List.dropLast_concat_getLast (List.splitOn_ne_nil '/' rest)).symm⟩
      have named : isDotSegment last = false := by
        simpa [split] using directory
      rw [split, List.foldl_append, List.foldl_cons, List.foldl_nil, keepSegment_of_named named]
      simp
    have neither : ¬ (((rest.splitOn '/').foldl keepSegment []).reverse = [] ∨
        (rest.splitOn '/').getLast?.any isDotSegment = true) := by
      intro either
      rcases either with empty | dots
      · exact kept empty
      · exact directory dots
    rw [if_neg neither, if_neg directory]

/-- A rooted path resolves to the path that the removal gives, and to no other. -/
theorem resolvesTo_iff {path resolved : List Char} (rooted : path.head? = some '/') :
    ResolvesTo path resolved ↔ resolved = removeDotSegments path := by
  rw [removeDotSegments_of_rooted rooted]
  constructor
  · intro h
    obtain ⟨segments, steps, named, shape⟩ := h
    rw [foldl_keepSegment_of_dotSteps steps, foldl_keepSegment_of_named named]
    simpa using shape
  · intro shape
    have steps : Relation.ReflTransGen DotStep (openSegments path)
        ((openSegments path).foldl keepSegment []).reverse :=
      dotSteps_foldl_keepSegment (openSegments path) (List.forall_mem_nil _)
    refine ⟨_, steps, ?_, shape⟩
    intro segment member
    rcases mem_foldl_keepSegment (List.mem_reverse.mp member) with before | ⟨_, named⟩
    · simp at before
    · exact named

end GameClient.Address
