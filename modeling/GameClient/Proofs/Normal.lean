import GameClient.Address.Resolve
import GameClient.Proofs.Blank
import GameClient.Proofs.RoundTrip
/-!
Normal forms of server addresses. A normal form is well formed, so it is accepted again; normalizing it
again drops one more slash from the end of its path, if there is one to drop, and changes nothing else.
-/

namespace GameClient.Address

open Text Parts

theorem hasSchemeMark_iff {text : List Char} :
    hasSchemeMark text = true ↔ [':', '/', '/'] <:+: text := by
  fun_induction hasSchemeMark text with
  | case1 rest => simpa using ⟨[], rest, rfl⟩
  | case2 c rest noMark ih =>
      rw [ih]
      constructor
      · intro inside
        exact List.infix_cons inside
      · intro inside
        rcases List.infix_cons_iff.mp inside with start | later
        · obtain ⟨more, shape⟩ := start
          injection shape with first others
          exact absurd others.symm (noMark more first.symm)
        · exact later
  | case3 => simp

theorem withScheme_text (address : Address) : withScheme address.text = address.text := by
  have inside : [':', '/', '/'] <:+: address.text :=
    ⟨address.scheme.text, address.authority.text ++ address.target.text, by simp [Address.text]⟩
  simp [withScheme, hasSchemeMark_iff.mpr inside]

theorem normalize_eq_ok_iff {given : String} {normal : Address} :
    normalize given = .ok normal ↔
      trim given.toList ≠ [] ∧
        ∃ address, read (withScheme (trim given.toList)) = .ok address ∧
          normal = address.trimPath := by
  unfold normalize
  cases trim given.toList with
  | nil => simp
  | cons c rest =>
      cases found : read (withScheme (c :: rest)) with
      | error fault => simp [found]
      | ok address => simp [found, eq_comm]

/-! ### The last slash of a path -/

theorem dropSlash_append {path : List Char} (h : path ≠ []) : dropSlash (path ++ ['/']) = path := by
  have long : 1 < (path ++ ['/']).length := by
    have positive := List.length_pos_iff.mpr h
    simp only [List.length_append, List.length_singleton]
    omega
  rw [dropSlash, if_pos long, dropFinal_append]

/-- The path has a slash at its end that is not its only character. -/
def HasFinalSlash (path : List Char) : Prop :=
  1 < path.length ∧ path.getLast? = some '/'

instance : DecidablePred HasFinalSlash := fun _ => inferInstanceAs (Decidable (_ ∧ _))

theorem exists_of_hasFinalSlash {path : List Char} (h : HasFinalSlash path) :
    path = dropSlash path ++ ['/'] ∧ dropSlash path ≠ [] := by
  obtain ⟨long, last⟩ := h
  obtain ⟨before, rfl⟩ := List.getLast?_eq_some_iff.mp last
  have nonempty : before ≠ [] := by
    rintro rfl
    simp at long
  rw [dropSlash_append nonempty]
  exact ⟨rfl, nonempty⟩

theorem hasFinalSlash_iff {path : List Char} :
    HasFinalSlash path ↔ ∃ before, before ≠ [] ∧ path = before ++ ['/'] := by
  constructor
  · intro final
    obtain ⟨shape, nonempty⟩ := exists_of_hasFinalSlash final
    exact ⟨dropSlash path, nonempty, shape⟩
  · rintro ⟨before, nonempty, rfl⟩
    have positive := List.length_pos_iff.mpr nonempty
    exact ⟨by simpa using positive, List.getLast?_concat⟩

theorem dropSlash_of_not_hasFinalSlash {path : List Char} (h : ¬ HasFinalSlash path) :
    dropSlash path = path := by
  unfold dropSlash
  by_cases long : 1 < path.length
  · rw [if_pos long]
    exact dropFinal_of_getLast?_ne fun last => h ⟨long, last⟩
  · exact if_neg long

/-- A path is what `dropSlash` leaves of it, perhaps with a slash behind. -/
theorem eq_dropSlash_or (path : List Char) :
    path = dropSlash path ∨ path = dropSlash path ++ ['/'] ∧ dropSlash path ≠ [] := by
  by_cases final : HasFinalSlash path
  · exact Or.inr (exists_of_hasFinalSlash final)
  · exact Or.inl (dropSlash_of_not_hasFinalSlash final).symm

theorem trimPath_eq_self_iff {address : Address} :
    address.trimPath = address ↔ ¬ HasFinalSlash address.target.path := by
  constructor
  · intro same final
    obtain ⟨shape, _⟩ := exists_of_hasFinalSlash final
    have path : dropSlash address.target.path = address.target.path :=
      congrArg (fun a => a.target.path) same
    rw [path] at shape
    simpa using congrArg List.length shape
  · intro final
    unfold trimPath
    rw [dropSlash_of_not_hasFinalSlash final]

theorem WellFormed.trimPath {address : Address} (h : address.WellFormed) :
    address.trimPath.WellFormed := by
  rcases eq_dropSlash_or address.target.path with same | ⟨shape, nonempty⟩
  · have unchanged : address.trimPath = address := by
      rw [Address.trimPath, ← same]
    rw [unchanged]
    exact h
  · have legal := h.target_legal
    rw [Target.isLegal_text_iff, shape, isLegal_append_mark (by decide)] at legal
    exact
      { spelled := h.spelled
        authority_free := h.authority_free
        authority_legal := h.authority_legal
        target :=
          { path_free := by
              intro c member
              apply h.target.path_free
              rw [shape]
              exact List.mem_append_left _ member
            query_free := h.target.query_free }
        target_legal := Target.isLegal_text_iff.mpr ⟨legal.1.1, legal.2⟩
        rooted := by
          intro c first
          apply h.rooted
          rw [shape, List.head?_append]
          exact Option.or_eq_some_iff.mpr (Or.inl first) }

/-! ### Normalizing again -/

/-- The text of the normal form of a server address. -/
def normalText (given : String) : Except AddressError String :=
  (normalize given).map Address.toString

theorem normalText_eq_ok_iff {given text : String} :
    normalText given = .ok text ↔ ∃ normal, normalize given = .ok normal ∧ text = normal.toString := by
  unfold normalText
  cases normalize given <;> simp [Except.map, eq_comm]

theorem wellFormed_of_normalize {given : String} {normal : Address}
    (h : normalize given = .ok normal) : normal.WellFormed := by
  obtain ⟨_, address, found, rfl⟩ := normalize_eq_ok_iff.mp h
  exact (wellFormed_of_read found).trimPath

/-- The text of a well-formed address is accepted as it is. -/
theorem WellFormed.normalize_toString {address : Address} (h : address.WellFormed) :
    normalize address.toString = .ok address.trimPath := by
  rw [normalize_eq_ok_iff, h.trim_toString, withScheme_text]
  refine ⟨?_, address, h.read_text, rfl⟩
  unfold Address.text
  cases address.scheme <;> simp [Scheme.text]

theorem WellFormed.toString_inj {one two : Address} (h : one.WellFormed) (h' : two.WellFormed) :
    one.toString = two.toString ↔ one = two := by
  constructor
  · intro same
    have text : one.text = two.text := String.ofList_injective same
    have again := h.read_text
    rw [text, h'.read_text, Except.ok.injEq] at again
    exact again.symm
  · exact congrArg Address.toString

/-- A normal form is accepted again, and it is its own normal form exactly if its path does not end with
a slash behind something else. -/
theorem normalize_normal {given : String} {normal : Address} (h : normalize given = .ok normal) :
    normalize normal.toString = .ok normal.trimPath ∧
      ((normalize normal.toString).map Address.toString = .ok normal.toString ↔
        ¬ HasFinalSlash normal.target.path) := by
  have wellFormed := wellFormed_of_normalize h
  refine ⟨wellFormed.normalize_toString, ?_⟩
  rw [wellFormed.normalize_toString]
  simp only [Except.map, Except.ok.injEq]
  rw [wellFormed.trimPath.toString_inj wellFormed]
  exact trimPath_eq_self_iff

/-- Only one of two slashes is dropped, so the other goes the next time. -/
theorem normalize_twice_of_two_slashes :
    (normalize "https://example.com/game//").map Address.toString =
        .ok "https://example.com/game/" ∧
      (normalize "https://example.com/game/").map Address.toString =
        .ok "https://example.com/game" := by
  decide

/-- A path of slashes alone keeps the first of them. -/
theorem normalize_normal_root :
    ∃ normal, normalize "https://example.com//?a/" = .ok normal ∧
      (normalize normal.toString).map Address.toString = .ok "https://example.com/?a/" := by
  let normal : Address :=
    ⟨.https, ⟨none, "example.com".toList, none⟩, ⟨['/'], some ['a', '/'], none⟩⟩
  have normal_eq : normalize "https://example.com//?a/" = .ok normal := by decide
  exact ⟨normal, normal_eq, (normalize_normal normal_eq).2.mpr (by decide)⟩

end GameClient.Address
