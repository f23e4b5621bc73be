import GameClient.Address.Resolve
import GameClient.Proofs.DotSegments
import GameClient.Proofs.RoundTrip
/-!
Where a page is. Whatever the path of a page is, the address of the page is read back with the scheme
and the authority of its server; all that follows is taken from the path.
-/

namespace GameClient.Address

open Text

/-- A text cut at the first mark; the whole text and nothing if the mark is not there. -/
def cutMark (mark : Char) (text : List Char) : List Char × Option (List Char) :=
  match cutFirst mark text with
  | some (before, after) => (before, some after)
  | none => (text, none)

theorem append_withMark_cutMark (mark : Char) (text : List Char) :
    (cutMark mark text).1 ++ Target.withMark mark (cutMark mark text).2 = text := by
  unfold cutMark
  cases cut : cutFirst mark text with
  | none => simp [Target.withMark]
  | some parts =>
      obtain ⟨before, after⟩ := parts
      simpa [Target.withMark] using (cutFirst_eq_some_iff.mp cut).1.symm

theorem not_mem_cutMark (mark : Char) (text : List Char) : mark ∉ (cutMark mark text).1 := by
  unfold cutMark
  cases cut : cutFirst mark text with
  | none => exact cutFirst_eq_none_iff.mp cut
  | some parts =>
      obtain ⟨before, after⟩ := parts
      exact (cutFirst_eq_some_iff.mp cut).2

/-- The target that a text names: the text is cut at its first `#`, and what is before at its first
`?`. -/
def targetOf (text : List Char) : Target :=
  { path := (cutMark '?' (cutMark '#' text).1).1
    query := (cutMark '?' (cutMark '#' text).1).2
    fragment := (cutMark '#' text).2 }

/-- A part of a text before its first `#` holds no `#`. -/
theorem hash_not_mem_targetOf (text : List Char) :
    '#' ∉ (targetOf text).path ++ Target.withMark '?' (targetOf text).query := by
  have whole := append_withMark_cutMark '?' (cutMark '#' text).1
  have free := not_mem_cutMark '#' text
  rw [← whole] at free
  exact free

theorem split_eq_targetOf (text : List Char) : Target.split text = targetOf text := by
  have shape : (targetOf text).text = text := by
    simp only [Target.text, targetOf, append_withMark_cutMark]
  have noHash := hash_not_mem_targetOf text
  have wellFormed : (targetOf text).WellFormed := by
    constructor
    · intro c member
      have noQuestion : '?' ∉ (targetOf text).path := not_mem_cutMark '?' _
      simp only [Target.endsPath, Bool.or_eq_false_iff, beq_eq_false_iff_ne]
      constructor
      · intro question
        rw [question] at member
        exact noQuestion member
      · intro hash
        rw [hash] at member
        exact noHash (by simp [member])
    · intro query found hash
      apply noHash
      rw [Option.mem_def.mp found]
      simp [Target.withMark, hash]
  calc Target.split text = Target.split (targetOf text).text := by rw [shape]
    _ = targetOf text := Target.split_text wellFormed

/-- The path as a reference from the root: trimmed, with a slash in front if it has none. -/
def referenceOf (path : List Char) : List Char :=
  if (trim path).head? = some '/' then trim path else '/' :: trim path

theorem head?_referenceOf (path : List Char) : (referenceOf path).head? = some '/' := by
  unfold referenceOf
  by_cases slash : (trim path).head? = some '/'
  · rw [if_pos slash, slash]
  · rw [if_neg slash, List.head?_cons]

/-- The path of a reference from the root is rooted. -/
theorem head?_path_targetOf {text : List Char} (h : text.head? = some '/') :
    (targetOf text).path.head? = some '/' := by
  obtain ⟨rest, rfl⟩ := List.head?_eq_some_iff.mp h
  rw [← split_eq_targetOf]
  simp [Target.split, Target.endsPath]

theorem rootReference_eq_referenceOf (path : List Char) :
    rootReference path = referenceOf path := by
  unfold rootReference referenceOf
  cases trim path with
  | nil => rfl
  | cons c rest => by_cases slash : c = '/' <;> simp [slash]

/-- What the path of a page is resolved to fits behind any authority. -/
theorem wellFormed_resolveTarget (reference : List Char) :
    (resolveTarget reference).WellFormed := by
  have before := Target.wellFormed_split reference
  constructor
  · intro c member
    rcases mem_of_mem_removeDotSegments member with rfl | inside
    · decide
    · exact before.path_free c inside
  · exact before.query_free

theorem isLegal_resolveTarget {reference : List Char} (h : isLegal reference = true) :
    isLegal (resolveTarget reference).text = true := by
  have parts : isLegal (Target.split reference).text = true := by
    rw [Target.text_split]
    exact h
  rw [Target.isLegal_text_iff] at parts ⊢
  exact ⟨isLegal_removeDotSegments parts.1, parts.2⟩

/-- A page takes the scheme and the authority of its server, and its target from its path. -/
theorem page_eq_ok_iff {server path : String} {shown : Address} :
    page server path = .ok shown ↔
      isLegal (rootReference path.toList) = true ∧
        ∃ base, read (trim server.toList) = .ok base ∧
          shown = { base with target := resolveTarget (rootReference path.toList) } := by
  unfold page
  cases read (trim server.toList) with
  | error fault => simp
  | ok base =>
      by_cases legal : isLegal (rootReference path.toList) = true
      · simp [legal, eq_comm]
      · simp [legal]

/-- The address with its target replaced by the one that a path names. -/
def atPath (address : Address) (path : List Char) : Address :=
  { address with target := resolveTarget (rootReference path) }

theorem WellFormed.atPath {address : Address} (h : address.WellFormed) {path : List Char}
    (legal : isLegal (rootReference path) = true) : (address.atPath path).WellFormed :=
  { spelled := h.spelled
    authority_free := h.authority_free
    authority_legal := h.authority_legal
    target := wellFormed_resolveTarget _
    target_legal := isLegal_resolveTarget legal
    rooted := by
      intro c first
      have slash : (address.atPath path).target.path.head? = some '/' := head?_removeDotSegments _
      rw [slash] at first
      simpa [eq_comm] using first }

theorem wellFormed_of_page {server path : String} {shown : Address}
    (h : page server path = .ok shown) : shown.WellFormed := by
  obtain ⟨legal, base, found, rfl⟩ := page_eq_ok_iff.mp h
  exact (wellFormed_of_read found).atPath legal

/-- The address of a page is read back with the scheme, user part, host and port of its server, whatever
its path is. Its own path is the only one that the path of the reference resolves to, rooted and without
dot segments, and nothing of the path, the query or the fragment of the server address is left. -/
theorem read_page {server path : String} {shown : Address} (h : page server path = .ok shown) :
    ∃ base parsed, read (trim server.toList) = .ok base ∧
      read shown.toString.toList = .ok parsed ∧
      parsed.scheme = base.scheme ∧
      parsed.authority.userinfo = base.authority.userinfo ∧
      parsed.authority.host = base.authority.host ∧
      parsed.authority.port = base.authority.port ∧
      (∀ resolved, ResolvesTo (targetOf (referenceOf path.toList)).path resolved ↔
        resolved = parsed.target.path) ∧
      parsed.target.path.head? = some '/' ∧
      (∀ segment ∈ parsed.target.path.splitOn '/', isDotSegment segment = false) ∧
      parsed.target.query = (targetOf (referenceOf path.toList)).query ∧
      parsed.target.fragment = (targetOf (referenceOf path.toList)).fragment := by
  obtain ⟨_, base, found, same⟩ := page_eq_ok_iff.mp h
  have again : read shown.toString.toList = .ok shown := by
    rw [Address.toString, String.toList_ofList]
    exact (wellFormed_of_page h).read_text
  have target : shown.target =
      { targetOf (referenceOf path.toList) with
        path := removeDotSegments (targetOf (referenceOf path.toList)).path } := by
    rw [same, rootReference_eq_referenceOf, resolveTarget, split_eq_targetOf]
  have path_eq : shown.target.path = removeDotSegments (targetOf (referenceOf path.toList)).path := by
    rw [target]
  have rooted := head?_path_targetOf (head?_referenceOf path.toList)
  refine ⟨base, shown, found, again, by rw [same], by rw [same], by rw [same], by rw [same],
    ?_, ?_, ?_, by rw [target], by rw [target]⟩
  · intro resolved
    rw [path_eq]
    exact resolvesTo_iff rooted
  · rw [path_eq]
    exact head?_removeDotSegments _
  · rw [path_eq]
    exact isDotSegment_removeDotSegments _

/-- Neither `@` nor `:` nor more slashes in a path make another server of it. -/
theorem read_page_of_hostile_path :
    ∃ shown parsed,
      page " https://me@example.com:3000/base?q#f" "/..//evil.com/../a@evil.com:99?x?//b#c#d" =
        .ok shown ∧
      shown.toString = "https://me@example.com:3000//a@evil.com:99?x?//b#c#d" ∧
      read shown.toString.toList = .ok parsed ∧
      parsed.authority.host = "example.com".toList ∧ parsed.authority.port = some 3000 := by
  let authority : Authority := ⟨some "me".toList, "example.com".toList, some 3000⟩
  let base : Address := ⟨.https, authority, ⟨"/base".toList, some ['q'], some ['f']⟩⟩
  let shown : Address :=
    ⟨.https, authority, ⟨"//a@evil.com:99".toList, some "x?//b".toList, some "c#d".toList⟩⟩
  have page_eq : page " https://me@example.com:3000/base?q#f"
      "/..//evil.com/../a@evil.com:99?x?//b#c#d" = .ok shown := by decide
  have base_eq : read (trim " https://me@example.com:3000/base?q#f".toList) = .ok base := by decide
  obtain ⟨_, parsed, found, again, _, _, host, port, _⟩ := read_page page_eq
  rw [base_eq, Except.ok.injEq] at found
  subst found
  exact ⟨shown, parsed, page_eq, by decide, again, host, port⟩

end GameClient.Address
