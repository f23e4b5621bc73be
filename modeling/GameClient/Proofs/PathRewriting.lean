import Mathlib.Data.List.Basic
import GameClient.Proofs.Cut
import GameClient.Proofs.DotSegments
/-!
The removal of dot segments as RFC 3986 writes it down in section 5.2.4: a loop that takes a path from an input
buffer, prefix by prefix, and builds the result in an output buffer. `rewrite` is that loop. At every
turn the output buffer holds the segments kept so far, each after its slash, so that on rooted paths the loop and
`removeDotSegments` give the same path.
-/

namespace GameClient.Address

open Text

/-! ### The loop -/

/-- The output without its last segment and the slash before it, if there is one. -/
def dropSegment (output : List Char) : List Char :=
  ((cutLast '/' output).map Prod.fst).getD []

/-- A character inside a segment. -/
def isInSegment (c : Char) : Bool :=
  c != '/'

/-- The loop of section 5.2.4, with the letters of its rules. -/
def rewrite (input output : List Char) : List Char :=
  match input with
  | [] => output
  -- A
  | '.' :: '.' :: '/' :: rest => rewrite rest output
  | '.' :: '/' :: rest => rewrite rest output
  -- B
  | '/' :: '.' :: '/' :: rest => rewrite ('/' :: rest) output
  | ['/', '.'] => rewrite ['/'] output
  -- C
  | '/' :: '.' :: '.' :: '/' :: rest => rewrite ('/' :: rest) (dropSegment output)
  | ['/', '.', '.'] => rewrite ['/'] (dropSegment output)
  -- D
  | ['.'] => rewrite [] output
  | ['.', '.'] => rewrite [] output
  -- E
  | c :: rest => rewrite (rest.dropWhile isInSegment) (output ++ c :: rest.takeWhile isInSegment)
termination_by input.length
decreasing_by
  all_goals simp only [List.length_cons, List.length_nil]
  any_goals omega
  have shorter := (List.dropWhile_suffix isInSegment (l := rest)).length_le
  omega

/-! ### What the loop does with segments -/

/-- The segments of a rooted path. -/
def segments (path : List Char) : List (List Char) :=
  (path.splitOn '/').tail

theorem segments_append (before rest : List Char) :
    segments (before ++ '/' :: rest) = segments before ++ rest.splitOn '/' := by
  rw [segments, List.splitOn_append_cons_self, List.tail_append_of_ne_nil (List.splitOn_ne_nil _ _)]
  rfl

theorem segments_cons (rest : List Char) : segments ('/' :: rest) = rest.splitOn '/' :=
  segments_append [] rest

theorem segments_of_not_mem {segment : List Char} (whole : '/' ∉ segment) :
    segments ('/' :: segment) = [segment] := by
  rw [segments_cons, List.splitOn_eq_singleton whole]

theorem openSegments_eq (path : List Char) :
    openSegments path =
      if (segments path).getLast?.any isDotSegment then segments path ++ [[]] else segments path :=
  rfl

/-- Which segment is the last one, and so names a directory if it is a dot segment, is not said by what stands
before it. -/
theorem openSegments_append (before rest : List Char) :
    openSegments (before ++ '/' :: rest) = segments before ++ openSegments ('/' :: rest) := by
  have last : (segments before ++ rest.splitOn '/').getLast? = (rest.splitOn '/').getLast? :=
    List.getLast?_append_of_ne_nil _ (List.splitOn_ne_nil '/' rest)
  rw [openSegments_eq, openSegments_eq, segments_append, segments_cons, last]
  split
  · rw [List.append_assoc]
  · rfl

theorem openSegments_cons (segment : List Char) (whole : '/' ∉ segment) (rest : List Char) :
    openSegments ('/' :: segment ++ '/' :: rest) = segment :: openSegments ('/' :: rest) := by
  rw [openSegments_append, segments_of_not_mem whole]
  rfl

theorem openSegments_of_not_mem {segment : List Char} (whole : '/' ∉ segment) :
    openSegments ('/' :: segment) = if isDotSegment segment then [segment, []] else [segment] := by
  rw [openSegments_eq, segments_of_not_mem whole]
  rfl

/-- What rule E moves is the first segment. -/
theorem not_mem_takeWhile_isInSegment (text : List Char) : '/' ∉ text.takeWhile isInSegment := by
  intro member
  simpa [isInSegment] using List.mem_takeWhile_imp member

/-- Behind the first segment nothing is left, or a rooted path. -/
theorem dropWhile_isInSegment_cases (text : List Char) :
    (text.dropWhile isInSegment = [] ∧ text = text.takeWhile isInSegment) ∨
      ∃ after, text.dropWhile isInSegment = '/' :: after ∧
        text = text.takeWhile isInSegment ++ '/' :: after := by
  have parts : text.takeWhile isInSegment ++ text.dropWhile isInSegment = text :=
    List.takeWhile_append_dropWhile
  cases left : text.dropWhile isInSegment with
  | nil =>
      rw [left, List.append_nil] at parts
      exact Or.inl ⟨rfl, parts.symm⟩
  | cons c after =>
      have stop : isInSegment c = false := stops_dropWhile isInSegment text c (by rw [left]; rfl)
      obtain rfl : c = '/' := by simpa [isInSegment] using stop
      rw [left] at parts
      exact Or.inr ⟨after, rfl, parts.symm⟩

theorem rooted_dropWhile_isInSegment (text : List Char) :
    text.dropWhile isInSegment = [] ∨ (text.dropWhile isInSegment).head? = some '/' := by
  rcases dropWhile_isInSegment_cases text with ⟨left, _⟩ | ⟨after, left, _⟩
  · exact Or.inl left
  · exact Or.inr (by rw [left]; rfl)

theorem openSegments_eq_cons {rest : List Char}
    (named : isDotSegment (rest.takeWhile isInSegment) = false) :
    openSegments ('/' :: rest) =
      rest.takeWhile isInSegment :: openSegments (rest.dropWhile isInSegment) := by
  have whole := not_mem_takeWhile_isInSegment rest
  rcases dropWhile_isInSegment_cases rest with ⟨left, parts⟩ | ⟨after, left, parts⟩
  · have last := openSegments_of_not_mem whole
    rw [named, ← parts] at last
    rw [left, last, ← parts]
    rfl
  · have first := openSegments_cons _ whole after
    rw [List.cons_append, ← parts] at first
    rw [left, first]

/-- The output loses the segment that is kept last. -/
theorem dropSegment_joinSegments {kept : List (List Char)} (whole : ∀ segment ∈ kept, '/' ∉ segment) :
    dropSegment (joinSegments kept.reverse) = joinSegments kept.tail.reverse := by
  cases kept with
  | nil => rfl
  | cons last others =>
      have shape : joinSegments (last :: others).reverse = joinSegments others.reverse ++ '/' :: last := by
        simp [joinSegments]
      rw [shape, dropSegment, cutLast_append_cons _ (whole last List.mem_cons_self)]
      rfl

/-- The input of the loop is empty or a rooted path, and the output holds the segments kept so far. What the loop
gives is what keeping the segments of the input gives. -/
theorem rewrite_joinSegments {input : List Char} (rooted : input = [] ∨ input.head? = some '/')
    {kept : List (List Char)} (whole : ∀ segment ∈ kept, '/' ∉ segment) :
    rewrite input (joinSegments kept.reverse) =
      joinSegments ((openSegments input).foldl keepSegment kept).reverse := by
  generalize shown : joinSegments kept.reverse = output
  fun_induction rewrite input output generalizing kept with
  | case1 output =>
      rw [← shown]
      rfl
  | case2 output rest ih => simp at rooted
  | case3 output rest ih => simp at rooted
  | case4 output rest ih =>
      have first : openSegments ('/' :: '.' :: '/' :: rest) = ['.'] :: openSegments ('/' :: rest) :=
        openSegments_cons ['.'] (by decide) rest
      rw [ih (Or.inr rfl) whole shown, first]
      rfl
  | case5 output ih =>
      rw [ih (Or.inr rfl) whole shown]
      rfl
  | case6 output rest ih =>
      have fewer : ∀ segment ∈ kept.tail, '/' ∉ segment :=
        fun segment member => whole segment (List.mem_of_mem_tail member)
      have first : openSegments ('/' :: '.' :: '.' :: '/' :: rest) =
          ['.', '.'] :: openSegments ('/' :: rest) :=
        openSegments_cons ['.', '.'] (by decide) rest
      rw [ih (Or.inr rfl) fewer (by rw [← shown, dropSegment_joinSegments whole]), first]
      rfl
  | case7 output ih =>
      have fewer : ∀ segment ∈ kept.tail, '/' ∉ segment :=
        fun segment member => whole segment (List.mem_of_mem_tail member)
      rw [ih (Or.inr rfl) fewer (by rw [← shown, dropSegment_joinSegments whole])]
      rfl
  | case8 output ih => simp at rooted
  | case9 output ih => simp at rooted
  | case10 output c rest _ _ inner last innerTwo lastTwo _ _ ih =>
      obtain rfl : c = '/' := by simpa using rooted
      -- Rules B and C take every dot segment, so the segment that is moved is a name.
      have named : isDotSegment (rest.takeWhile isInSegment) = false := by
        by_contra dots
        rw [Bool.not_eq_false] at dots
        rcases dropWhile_isInSegment_cases rest with ⟨_, parts⟩ | ⟨after, _, parts⟩
        · rcases eq_of_isDotSegment dots with one | two
          · exact last rfl (parts.trans one)
          · exact lastTwo rfl (parts.trans two)
        · rcases eq_of_isDotSegment dots with one | two
          · exact inner after rfl (by rw [parts, one]; rfl)
          · exact innerTwo after rfl (by rw [parts, two]; rfl)
      rw [openSegments_eq_cons named, List.foldl_cons, keepSegment_of_named named]
      refine ih (rooted_dropWhile_isInSegment rest) ?_ ?_
      · exact List.forall_mem_cons.mpr ⟨not_mem_takeWhile_isInSegment rest, whole⟩
      · rw [← shown]
        simp [joinSegments]

/-! ### What stays and what goes -/

/-- A rooted path is made of its segments. -/
theorem joinSegments_segments {path : List Char} (rooted : path.head? = some '/') :
    joinSegments (segments path) = path := by
  obtain ⟨rest, rfl⟩ := List.head?_eq_some_iff.mp rooted
  obtain ⟨first, others, split⟩ := List.exists_cons_of_ne_nil (List.splitOn_ne_nil '/' rest)
  have parts : ['/'].intercalate (rest.splitOn '/') = rest := List.intercalate_splitOn '/'
  rw [segments_cons, joinSegments_eq_intercalate, split, List.intercalate_cons_cons, ← split, parts]
  rfl

/-- Without dot segments a rooted path is left as it is, with its empty segments. -/
theorem removeDotSegments_eq_self {path : List Char} (rooted : path.head? = some '/')
    (named : ∀ segment ∈ segments path, isDotSegment segment = false) :
    removeDotSegments path = path := by
  have opened : openSegments path = segments path := by
    refine if_neg fun dots => ?_
    obtain ⟨last, final, dot⟩ := (Option.any_eq_true _ _).mp dots
    simp [named last (List.mem_of_getLast? final)] at dot
  rw [removeDotSegments_of_rooted rooted, opened, foldl_keepSegment_of_named named, List.append_nil,
    List.reverse_reverse, joinSegments_segments rooted]

/-- Only a segment for the place above takes an empty segment away, and only one. -/
theorem count_nil_foldl_keepSegment (segments kept : List (List Char)) :
    kept.count [] + segments.count [] ≤
      (segments.foldl keepSegment kept).count [] + segments.count ['.', '.'] := by
  induction segments generalizing kept with
  | nil => simp
  | cons segment rest ih =>
      rw [List.foldl_cons]
      have later := ih (keepSegment kept segment)
      cases dot : isDotSegment segment with
      | false =>
          rw [keepSegment_of_named dot] at later ⊢
          simp only [List.count_cons] at later ⊢
          omega
      | true =>
          rcases eq_of_isDotSegment dot with rfl | rfl
          · simpa [keepSegment] using later
          · cases kept with
            | nil => simpa [keepSegment, Nat.add_assoc] using Nat.le_succ_of_le later
            | cons name kept =>
                have kind : keepSegment (name :: kept) ['.', '.'] = kept := rfl
                rw [kind] at later ⊢
                simp only [List.count_cons] at later ⊢
                split <;> simp <;> omega

theorem not_mem_of_mem_segments {path segment : List Char} (member : segment ∈ segments path) :
    '/' ∉ segment :=
  not_mem_of_mem_splitOn (List.mem_of_mem_tail member)

theorem not_mem_of_mem_openSegments {path segment : List Char} (member : segment ∈ openSegments path) :
    '/' ∉ segment := by
  rw [openSegments_eq] at member
  split at member
  · rcases List.mem_append.mp member with inside | final
    · exact not_mem_of_mem_segments inside
    · rw [List.mem_singleton.mp final]
      exact List.not_mem_nil
  · exact not_mem_of_mem_segments member

theorem segments_joinSegments {kept : List (List Char)} (whole : ∀ segment ∈ kept, '/' ∉ segment) :
    segments (joinSegments kept) = kept := by
  have every : ∀ segment ∈ [] :: kept, '/' ∉ segment :=
    List.forall_mem_cons.mpr ⟨List.not_mem_nil, whole⟩
  rw [joinSegments_eq_intercalate, segments, List.splitOn_intercalate '/' every (by simp)]
  rfl

/-- The segments of the result are those that are kept. -/
theorem segments_removeDotSegments {path : List Char} (rooted : path.head? = some '/') :
    segments (removeDotSegments path) = ((openSegments path).foldl keepSegment []).reverse := by
  rw [removeDotSegments_of_rooted rooted]
  refine segments_joinSegments ?_
  intro segment member
  rcases mem_foldl_keepSegment (List.mem_reverse.mp member) with before | ⟨found, _⟩
  · simp at before
  · exact not_mem_of_mem_openSegments found

/-- Of a path that leads to the root at most one empty segment is kept, so that none is left above it. -/
theorem tail_foldl_keepSegment_of_root {path : List Char} (rooted : path = [] ∨ path.head? = some '/')
    (root : removeDotSegments path = ['/']) : ((segments path).foldl keepSegment []).tail = [] := by
  rcases rooted with rfl | rooted
  · rfl
  · have kept : (openSegments path).foldl keepSegment [] = [[]] := by
      have reversed := segments_removeDotSegments rooted
      rw [root] at reversed
      exact (List.reverse_eq_cons_iff.mp reversed.symm)
    rw [openSegments_eq] at kept
    split at kept
    · rw [List.foldl_append, List.foldl_cons, List.foldl_nil, keepSegment_of_named (by rfl)] at kept
      rw [(List.cons.inj kept).2]
      rfl
    · rw [kept]
      rfl

/-- At the root, the segment for the place above leads to the root again. -/
theorem removeDotSegments_above_root {before after : List Char}
    (path : (before ++ ['/', '.', '.'] ++ after).head? = some '/')
    (rooted : after = [] ∨ after.head? = some '/') (root : removeDotSegments before = ['/']) :
    removeDotSegments (before ++ ['/', '.', '.'] ++ after) = removeDotSegments after := by
  have beforeRooted : before = [] ∨ before.head? = some '/' := by
    cases before with
    | nil => exact Or.inl rfl
    | cons c rest => exact Or.inr path
  have kept : keepSegment ((segments before).foldl keepSegment []) ['.', '.'] = [] :=
    tail_foldl_keepSegment_of_root beforeRooted root
  have through : segments (before ++ ['/', '.', '.']) = segments before ++ [['.', '.']] :=
    segments_append before ['.', '.']
  rw [removeDotSegments_of_rooted path]
  rcases rooted with rfl | rooted
  · have last : openSegments ['/', '.', '.'] = [['.', '.'], []] := by decide
    rw [List.append_nil, openSegments_append, last, List.foldl_append, List.foldl_cons, kept]
    decide
  · rw [removeDotSegments_of_rooted rooted]
    obtain ⟨rest, rfl⟩ := List.head?_eq_some_iff.mp rooted
    rw [openSegments_append, through, List.foldl_append, List.foldl_append, List.foldl_cons,
      List.foldl_nil, kept]

/-- An empty segment is lost only to a segment for the place above, each of which takes one at most. -/
theorem count_nil_segments {path : List Char} (rooted : path.head? = some '/') :
    (segments path).count [] ≤
      (segments (removeDotSegments path)).count [] + (segments path).count ['.', '.'] := by
  have kept := count_nil_foldl_keepSegment (openSegments path) []
  rw [segments_removeDotSegments rooted, List.count_reverse]
  have atEnd : (openSegments path).count [] = (segments path).count [] +
      (if (segments path).getLast?.any isDotSegment then 1 else 0) ∧
      (openSegments path).count ['.', '.'] = (segments path).count ['.', '.'] := by
    rw [openSegments_eq]
    split <;> simp
  rw [atEnd.1, atEnd.2, List.count_nil] at kept
  omega

/-- On rooted paths the removal of dot segments is the loop of RFC 3986. The result is rooted again and has no dot
segments; at the root, the segment for the place above leads to the root again; an empty segment counts as a name,
which only a segment for the place above takes away; and once there are no dot segments the path stays as it is. -/
theorem removeDotSegments_eq_rewrite {path : List Char} (rooted : path.head? = some '/') :
    removeDotSegments path = rewrite path [] ∧
      (removeDotSegments path).head? = some '/' ∧
      (∀ segment ∈ (removeDotSegments path).splitOn '/', isDotSegment segment = false) ∧
      (∀ before after, path = before ++ ['/', '.', '.'] ++ after →
        after = [] ∨ after.head? = some '/' → removeDotSegments before = ['/'] →
          removeDotSegments path = removeDotSegments after) ∧
      (segments path).count [] ≤
        (segments (removeDotSegments path)).count [] + (segments path).count ['.', '.'] ∧
      ((∀ segment ∈ segments path, isDotSegment segment = false) → removeDotSegments path = path) ∧
      removeDotSegments (removeDotSegments path) = removeDotSegments path := by
  have first := head?_removeDotSegments path
  have named := isDotSegment_removeDotSegments path
  refine ⟨?_, first, named, ?_, count_nil_segments rooted, removeDotSegments_eq_self rooted, ?_⟩
  · have loop := rewrite_joinSegments (Or.inr rooted) (List.forall_mem_nil _)
    rw [removeDotSegments_of_rooted rooted]
    exact loop.symm
  · rintro before after rfl
    exact removeDotSegments_above_root rooted
  · refine removeDotSegments_eq_self first ?_
    intro segment member
    exact named segment (List.mem_of_mem_tail member)

/-- A segment for the place above takes the empty segment before it, the next one finds nothing to take, and the
empty segment behind the name stays. -/
theorem removeDotSegments_eq_rewrite_of_excess :
    ∃ path before after : List Char, path.head? = some '/' ∧
      path = before ++ ['/', '.', '.'] ++ after ∧ removeDotSegments before = ['/'] ∧
      rewrite path [] = ['/', 'b', '/', '/'] ∧
      removeDotSegments (rewrite path []) = rewrite path [] ∧
      rewrite path [] = removeDotSegments after := by
  let before : List Char := ['/', 'a', '/', '.', '.', '/', '/', '.', '.']
  let after : List Char := ['/', 'b', '/', '/', '.', '/', 'c', '/', '.', '.']
  let path : List Char := before ++ ['/', '.', '.'] ++ after
  have rooted : path.head? = some '/' := rfl
  have root : removeDotSegments before = ['/'] := by decide
  have result : removeDotSegments path = ['/', 'b', '/', '/'] := by decide
  obtain ⟨loop, _, _, above, _, _, again⟩ := removeDotSegments_eq_rewrite rooted
  refine ⟨path, before, after, rooted, rfl, root, loop.symm.trans result, ?_, ?_⟩
  · rw [← loop]
    exact again
  · rw [← loop]
    exact above before after rfl (Or.inr rfl) root

end GameClient.Address
