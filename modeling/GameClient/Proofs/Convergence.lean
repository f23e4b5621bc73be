import GameClient.Proofs.Normal
import Mathlib.Data.List.DropRight
import Mathlib.Logic.Function.Iterate
/-!
Normalizing again and again. Each time one slash goes from the end of the path, as long as something is in
front of it; `spareSlashes` counts them in advance. When they are gone nothing changes any more, and until
then nothing but the path does.
-/

namespace GameClient.Address

open Text

/-- How many slashes can go from the end of a path: all of them, but for one if there is nothing else. -/
def spareSlashes (path : List Char) : Nat :=
  (path.rtakeWhile (· == '/')).length - if path ≠ [] ∧ path.all (· == '/') then 1 else 0

/-- The address without the last characters of its path, `n` of them. -/
def shorten (n : Nat) (address : Address) : Address :=
  { address with target := { address.target with path := address.target.path.rdrop n } }

/-- What normalizing `n` times in a row makes of a text, if it is accepted each time. -/
def normalizeTimes : Nat → String → Except AddressError String
  | 0, url => .ok url
  | n + 1, url => (normalizeTimes n url).bind normalText

/-! ### Counting the slashes -/

theorem spareSlashes_append {path : List Char} (h : path ≠ []) :
    spareSlashes (path ++ ['/']) = spareSlashes path + 1 := by
  have run : (path ++ ['/']).rtakeWhile (· == '/') = path.rtakeWhile (· == '/') ++ ['/'] :=
    List.rtakeWhile_concat_pos _ _ _ (by decide)
  have whole_append : (path ++ ['/']).all (· == '/') ↔ path.all (· == '/') := by
    simp
  unfold spareSlashes
  rw [run, List.length_append, List.length_singleton]
  by_cases only : path.all (· == '/')
  · -- The path is its own run of slashes, so there is one to keep.
    have whole : path.rtakeWhile (· == '/') = path :=
      List.rtakeWhile_eq_self_iff.mpr (List.all_eq_true.mp only)
    have positive := List.length_pos_iff.mpr h
    rw [if_pos ⟨List.concat_ne_nil _ _, whole_append.mpr only⟩, if_pos ⟨h, only⟩, whole]
    omega
  · rw [if_neg fun both => only (whole_append.mp both.2), if_neg fun both => only both.2]
    omega

/-- A path from which no slash can go: it is empty, the root, or does not end with a slash. -/
def IsSettled (path : List Char) : Prop :=
  path = [] ∨ path = ['/'] ∨ path.getLast? ≠ some '/'

theorem isSettled_of_not_hasFinalSlash {path : List Char} (h : ¬ HasFinalSlash path) :
    IsSettled path := by
  rcases List.eq_nil_or_concat' path with rfl | ⟨before, last, rfl⟩
  · exact Or.inl rfl
  · by_cases slash : last = '/'
    · subst slash
      by_cases nothing : before = []
      · exact Or.inr (Or.inl (by rw [nothing, List.nil_append]))
      · exact absurd (hasFinalSlash_iff.mpr ⟨before, nothing, rfl⟩) h
    · exact Or.inr (Or.inr (by simpa using slash))

theorem spareSlashes_of_isSettled {path : List Char} (h : IsSettled path) :
    spareSlashes path = 0 := by
  rcases h with rfl | rfl | last
  · rfl
  · decide
  · have run : path.rtakeWhile (· == '/') = [] := by
      apply List.rtakeWhile_eq_nil_iff.mpr
      intro nonempty slash
      apply last
      rw [List.getLast?_eq_some_getLast nonempty, beq_iff_eq.mp slash]
    rw [spareSlashes, run, List.length_nil, Nat.zero_sub]

theorem spareSlashes_of_not_hasFinalSlash {path : List Char} (h : ¬ HasFinalSlash path) :
    spareSlashes path = 0 :=
  spareSlashes_of_isSettled (isSettled_of_not_hasFinalSlash h)

theorem spareSlashes_eq_zero_iff {path : List Char} :
    spareSlashes path = 0 ↔ ¬ HasFinalSlash path := by
  constructor
  · intro none final
    obtain ⟨before, nonempty, rfl⟩ := hasFinalSlash_iff.mp final
    rw [spareSlashes_append nonempty] at none
    omega
  · exact spareSlashes_of_not_hasFinalSlash

/-! ### Dropping them one by one -/

theorem spareSlashes_dropSlash (path : List Char) :
    spareSlashes (dropSlash path) = spareSlashes path - 1 := by
  by_cases final : HasFinalSlash path
  · obtain ⟨before, nonempty, rfl⟩ := hasFinalSlash_iff.mp final
    rw [dropSlash_append nonempty, spareSlashes_append nonempty, Nat.add_sub_cancel]
  · rw [dropSlash_of_not_hasFinalSlash final, spareSlashes_of_not_hasFinalSlash final]

theorem dropSlash_iterate (n : Nat) (path : List Char) :
    dropSlash^[n] path = path.rdrop (min n (spareSlashes path)) := by
  induction n generalizing path with
  | zero => simp
  | succ n ih =>
      rw [Function.iterate_succ_apply, ih]
      by_cases final : HasFinalSlash path
      · obtain ⟨before, nonempty, rfl⟩ := hasFinalSlash_iff.mp final
        rw [dropSlash_append nonempty, spareSlashes_append nonempty, Nat.add_min_add_right,
          List.rdrop_concat_succ]
      · rw [dropSlash_of_not_hasFinalSlash final, spareSlashes_of_not_hasFinalSlash final,
          Nat.min_zero, Nat.min_zero]

theorem spareSlashes_iterate (n : Nat) (path : List Char) :
    spareSlashes (dropSlash^[n] path) = spareSlashes path - n := by
  induction n with
  | zero => rfl
  | succ n ih => rw [Function.iterate_succ_apply', spareSlashes_dropSlash, ih, Nat.sub_sub]

/-- What goes from the end of the path are slashes. -/
theorem eq_rdrop_append {n : Nat} {path : List Char} (h : n ≤ spareSlashes path) :
    path = path.rdrop n ++ List.replicate n '/' := by
  induction n generalizing path with
  | zero => simp
  | succ n ih =>
      have final : HasFinalSlash path := by
        by_contra settled
        rw [spareSlashes_of_not_hasFinalSlash settled] at h
        omega
      obtain ⟨before, nonempty, rfl⟩ := hasFinalSlash_iff.mp final
      rw [spareSlashes_append nonempty] at h
      have earlier : before = before.rdrop n ++ List.replicate n '/' := ih (by omega)
      rw [List.rdrop_concat_succ, List.replicate_succ', ← List.append_assoc, ← earlier]

/-! ### Normalizing again and again -/

theorem trimPath_iterate (n : Nat) (address : Address) :
    trimPath^[n] address = address.shorten (min n (spareSlashes address.target.path)) := by
  have path : ∀ n, trimPath^[n] address =
      { address with target := { address.target with path := dropSlash^[n] address.target.path } } := by
    intro n
    induction n with
    | zero => rfl
    | succ n ih => rw [Function.iterate_succ_apply', ih, Function.iterate_succ_apply']; rfl
  rw [path, dropSlash_iterate]
  rfl

namespace WellFormed

variable {address : Address}

theorem trimPath_iterate (h : address.WellFormed) (n : Nat) : (Address.trimPath^[n] address).WellFormed := by
  induction n with
  | zero => exact h
  | succ n ih =>
      rw [Function.iterate_succ_apply']
      exact ih.trimPath

theorem normalText_toString (h : address.WellFormed) :
    normalText address.toString = .ok address.trimPath.toString := by
  rw [normalText, h.normalize_toString]
  rfl

theorem normalizeTimes_toString (h : address.WellFormed) (n : Nat) :
    normalizeTimes n address.toString = .ok (Address.trimPath^[n] address).toString := by
  induction n with
  | zero => rfl
  | succ n ih =>
      have next := (h.trimPath_iterate n).normalText_toString
      rw [Function.iterate_succ_apply', ← next]
      simp only [normalizeTimes, ih, Except.bind]

end WellFormed

/-- Normalizing a normal form again drops as many slashes as there are to drop, one each time, and changes
nothing else; it changes nothing at all if there are none. In the end the path is settled. -/
theorem normalizeTimes_normal {given : String} {normal : Address} {spare : Nat}
    (h : normalize given = .ok normal) (count : spareSlashes normal.target.path = spare) :
    (∀ n, normalizeTimes n normal.toString = .ok (normal.shorten (min n spare)).toString ∧
      read (normal.shorten (min n spare)).text = .ok (normal.shorten (min n spare))) ∧
    (∀ n ≤ spare,
      normal.target.path = (normal.shorten n).target.path ++ List.replicate n '/') ∧
    (normalText normal.toString = .ok normal.toString ↔ spare = 0) ∧
    IsSettled (normal.shorten spare).target.path := by
  have wellFormed := wellFormed_of_normalize h
  subst count
  refine ⟨?_, ?_, ?_, ?_⟩
  · intro n
    rw [← trimPath_iterate]
    exact ⟨wellFormed.normalizeTimes_toString n, (wellFormed.trimPath_iterate n).read_text⟩
  · intro n few
    exact eq_rdrop_append few
  · rw [wellFormed.normalText_toString, Except.ok.injEq, wellFormed.trimPath.toString_inj wellFormed,
      trimPath_eq_self_iff, spareSlashes_eq_zero_iff]
  · have gone := spareSlashes_iterate (spareSlashes normal.target.path) normal.target.path
    rw [dropSlash_iterate, Nat.min_self, Nat.sub_self] at gone
    exact isSettled_of_not_hasFinalSlash (spareSlashes_eq_zero_iff.mp gone)

/-- A path of slashes alone keeps the first of them, however often it is normalized; the query keeps all
of its own. -/
theorem normalizeTimes_normal_of_slashes :
    ∃ normal, normalize "a////?/" = .ok normal ∧ spareSlashes normal.target.path = 2 ∧
      normalizeTimes 1 normal.toString = .ok "http://a//?/" ∧
      normalizeTimes 7 normal.toString = .ok "http://a/?/" ∧
      normalText normal.toString ≠ .ok normal.toString := by
  let normal : Address := ⟨.http, ⟨none, ['a'], none⟩, ⟨"///".toList, some ['/'], none⟩⟩
  have found : normalize "a////?/" = .ok normal := by decide
  have count : spareSlashes normal.target.path = 2 := by decide
  obtain ⟨times, _, fixed, _⟩ := normalizeTimes_normal found count
  refine ⟨normal, found, count, ?_, ?_, ?_⟩
  · rw [(times 1).1]
    decide
  · rw [(times 7).1]
    decide
  · intro same
    exact absurd (fixed.mp same) (by decide)

end GameClient.Address
