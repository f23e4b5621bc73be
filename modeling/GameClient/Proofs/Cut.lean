import GameClient.Text.Basic
import Mathlib.Data.List.TakeWhile
/-!
Cuts of a text, said by what the parts are: a cut is the only way to write the text with the separator
between two parts of which one is free of it.
-/

namespace GameClient.Text

theorem cutFirst_eq_none_iff {sep : Char} {text : List Char} :
    cutFirst sep text = none ↔ sep ∉ text := by
  induction text with
  | nil => simp [cutFirst]
  | cons c rest ih =>
      by_cases here : c = sep
      · simp [cutFirst, here]
      · simp [cutFirst, here, ih, Ne.symm here]

theorem cutFirst_append_cons {sep : Char} {before : List Char} (h : sep ∉ before)
    (after : List Char) : cutFirst sep (before ++ sep :: after) = some (before, after) := by
  induction before with
  | nil => simp [cutFirst]
  | cons c rest ih =>
      rw [List.mem_cons, not_or] at h
      simp [cutFirst, Ne.symm h.1, ih h.2]

/-- The first part of a cut at the first separator is free of it. -/
theorem cutFirst_eq_some_iff {sep : Char} {text before after : List Char} :
    cutFirst sep text = some (before, after) ↔ text = before ++ sep :: after ∧ sep ∉ before := by
  constructor
  · intro h
    induction text generalizing before with
    | nil => simp [cutFirst] at h
    | cons c rest ih =>
        by_cases here : c = sep
        · simp only [cutFirst, if_pos here, Option.some.injEq, Prod.mk.injEq] at h
          rcases h with ⟨rfl, rfl⟩
          simp [here]
        · simp only [cutFirst, if_neg here, Option.map_eq_some_iff, Prod.exists,
            Prod.mk.injEq] at h
          rcases h with ⟨first, second, cut, rfl, rfl⟩
          rcases ih cut with ⟨rfl, free⟩
          simp [Ne.symm here, free]
  · intro h
    rw [h.1]
    exact cutFirst_append_cons h.2 after

theorem cutLast_eq_none_iff {sep : Char} {text : List Char} :
    cutLast sep text = none ↔ sep ∉ text := by
  induction text with
  | nil => simp [cutLast]
  | cons c rest ih =>
      cases cut : cutLast sep rest with
      | some parts =>
          have later : sep ∈ rest := by
            by_contra free
            simp [ih.mpr free] at cut
          simp [cutLast, cut, later]
      | none =>
          have free : sep ∉ rest := ih.mp cut
          by_cases here : c = sep
          · simp [cutLast, cut, here]
          · simp [cutLast, cut, here, free, Ne.symm here]

theorem cutLast_append_cons {sep : Char} (before : List Char) {after : List Char}
    (h : sep ∉ after) : cutLast sep (before ++ sep :: after) = some (before, after) := by
  induction before with
  | nil => simp [cutLast, cutLast_eq_none_iff.mpr h]
  | cons c rest ih => simp [cutLast, ih]

/-- The second part of a cut at the last separator is free of it. -/
theorem cutLast_eq_some_iff {sep : Char} {text before after : List Char} :
    cutLast sep text = some (before, after) ↔ text = before ++ sep :: after ∧ sep ∉ after := by
  constructor
  · intro h
    have present : sep ∈ text := by
      by_contra free
      simp [cutLast_eq_none_iff.mpr free] at h
    -- Any text with the separator in it has a last one, and the cut there is the one given.
    obtain ⟨after', before', reversed, free⟩ :=
      List.eq_append_cons_of_mem (List.mem_reverse.mpr present)
    have split : text = before'.reverse ++ sep :: after'.reverse := by
      simpa using congrArg List.reverse reversed
    have cut : cutLast sep (before'.reverse ++ sep :: after'.reverse) =
        some (before'.reverse, after'.reverse) :=
      cutLast_append_cons before'.reverse (by simpa using free)
    rw [← split, h, Option.some.injEq, Prod.mk.injEq] at cut
    rcases cut with ⟨rfl, rfl⟩
    exact ⟨split, by simpa using free⟩
  · intro h
    rw [h.1]
    exact cutLast_append_cons before h.2

/-! ### Many cuts -/

theorem mem_intercalate_of_mem {sep c : Char} {part : List Char} {parts : List (List Char)}
    (one : part ∈ parts) (inside : c ∈ part) : c ∈ [sep].intercalate parts := by
  induction parts with
  | nil => simp at one
  | cons first rest ih =>
      cases rest with
      | nil =>
          rw [List.mem_singleton.mp one] at inside
          simpa using inside
      | cons next rest =>
          rw [List.intercalate_cons_cons, List.mem_append, List.mem_append]
          rcases List.mem_cons.mp one with rfl | later
          · exact Or.inl (Or.inl inside)
          · exact Or.inr (ih later)

theorem eq_or_mem_of_mem_intercalate {sep c : Char} {parts : List (List Char)}
    (h : c ∈ [sep].intercalate parts) : c = sep ∨ ∃ part ∈ parts, c ∈ part := by
  induction parts with
  | nil => simp at h
  | cons part rest ih =>
      cases rest with
      | nil => exact Or.inr ⟨part, by simp, by simpa using h⟩
      | cons next rest =>
          simp only [List.intercalate_cons_cons, List.mem_append, List.mem_singleton] at h
          rcases h with (here | isSep) | later
          · exact Or.inr ⟨part, by simp, here⟩
          · exact Or.inl isSep
          · rcases ih later with isSep | ⟨other, member, found⟩
            · exact Or.inl isSep
            · exact Or.inr ⟨other, by simp [member], found⟩

theorem mem_of_mem_splitOn {sep c : Char} {part text : List Char} (one : part ∈ text.splitOn sep)
    (inside : c ∈ part) : c ∈ text := by
  have member : c ∈ [sep].intercalate (text.splitOn sep) := mem_intercalate_of_mem one inside
  rwa [List.intercalate_splitOn] at member

theorem not_mem_of_mem_splitOn {sep : Char} {part text : List Char}
    (h : part ∈ text.splitOn sep) : sep ∉ part := by
  induction text generalizing part with
  | nil =>
      rw [List.splitOn_nil, List.mem_singleton] at h
      simp [h]
  | cons c rest ih =>
      rw [List.splitOn_cons_eq_if_modifyHead] at h
      by_cases isSep : c = sep
      · simp only [isSep, beq_self_eq_true, if_true, List.mem_cons] at h
        rcases h with rfl | later
        · simp
        · exact ih later
      · obtain ⟨first, others, split⟩ := List.exists_cons_of_ne_nil (List.splitOn_ne_nil sep rest)
        simp only [beq_iff_eq, isSep, if_false, split, List.modifyHead_cons, List.mem_cons] at h
        rcases h with rfl | later
        · have free : sep ∉ first := ih (by simp [split])
          simp [Ne.symm isSep, free]
        · exact ih (by simp [split, later])

/-! ### A final separator -/

theorem dropFinal_append (sep : Char) (text : List Char) : dropFinal sep (text ++ [sep]) = text := by
  simp [dropFinal]

theorem dropFinal_of_getLast?_ne {sep : Char} {text : List Char}
    (h : text.getLast? ≠ some sep) : dropFinal sep text = text :=
  if_neg h

theorem eq_dropFinal_or (sep : Char) (text : List Char) :
    text = dropFinal sep text ∨ text = dropFinal sep text ++ [sep] := by
  by_cases final : text.getLast? = some sep
  · obtain ⟨before, rfl⟩ := List.getLast?_eq_some_iff.mp final
    rw [dropFinal_append]
    exact Or.inr rfl
  · rw [dropFinal_of_getLast?_ne final]
    exact Or.inl rfl

/-! ### The longest run of fitting characters

`Stops fits rest` says that a run of characters that fit cannot go on into `rest`.
-/

/-- The text is empty or starts with a character that does not fit. -/
def Stops (fits : Char → Bool) (rest : List Char) : Prop :=
  ∀ c ∈ rest.head?, fits c = false

theorem stops_cons {fits : Char → Bool} {c : Char} {rest : List Char} :
    Stops fits (c :: rest) ↔ fits c = false := by
  simp [Stops]

theorem Stops.mono {fits others : Char → Bool} {rest : List Char}
    (fewer : ∀ c, fits c = false → others c = false) (stop : Stops fits rest) :
    Stops others rest := by
  intro c first
  apply fewer
  exact stop c first

theorem stops_dropWhile (fits : Char → Bool) (text : List Char) :
    Stops fits (text.dropWhile fits) := by
  intro c first
  have unfit := List.head?_dropWhile_not fits text
  rw [Option.mem_def.mp first] at unfit
  simpa using unfit

theorem takeWhile_append_of_stops {fits : Char → Bool} {run rest : List Char}
    (all : ∀ c ∈ run, fits c = true) (stop : Stops fits rest) :
    (run ++ rest).takeWhile fits = run := by
  rw [List.takeWhile_append_of_pos all]
  cases rest with
  | nil => simp
  | cons c rest => simp [stops_cons.mp stop]

theorem dropWhile_append_of_stops {fits : Char → Bool} {run rest : List Char}
    (all : ∀ c ∈ run, fits c = true) (stop : Stops fits rest) :
    (run ++ rest).dropWhile fits = rest := by
  rw [List.dropWhile_append_of_pos all]
  cases rest with
  | nil => rfl
  | cons c rest => simp [stops_cons.mp stop]

end GameClient.Text
