import GameClient.Proofs.Page
import GameClient.Proofs.PathRewriting
/-!
The address of a page in the place of its server. Of the server only the scheme and the authority count, and
the address of a page has both, so its pages are those of the server. What stands behind its authority is a
path with nothing left to resolve, and it leads to the page again.
-/

namespace GameClient.Address

open Text Parts

/-- The text has a scheme and an authority, and this is what stands behind them. -/
def StandsBehindServer (url rest : List Char) : Prop :=
  ∃ name after server, SchemePart url name after ∧ AuthorityPart after server rest

/-- The target of an address stands behind its server, with the marks of its query and its fragment. -/
theorem WellFormed.standsBehindServer_iff {address : Address} (h : address.WellFormed)
    {rest : List Char} : StandsBehindServer address.text rest ↔ rest = address.target.text := by
  constructor
  · intro behind
    obtain ⟨name, after, server, scheme, authority⟩ := behind
    obtain ⟨_, rfl⟩ := scheme.unique (WellFormed.schemePart_text address)
    exact (authority.unique h.authorityPart_text).2
  · rintro rfl
    exact ⟨_, _, _, WellFormed.schemePart_text address, h.authorityPart_text⟩

theorem removeDotSegments_removeDotSegments (path : List Char) :
    removeDotSegments (removeDotSegments path) = removeDotSegments path := by
  apply removeDotSegments_eq_self (head?_removeDotSegments path)
  intro segment member
  exact isDotSegment_removeDotSegments path segment (List.mem_of_mem_tail member)

/-- What a reference is resolved to resolves to itself. -/
theorem resolveTarget_text_resolveTarget (reference : List Char) :
    resolveTarget (resolveTarget reference).text = resolveTarget reference := by
  have split : Target.split (resolveTarget reference).text = resolveTarget reference :=
    Target.split_text (wellFormed_resolveTarget reference)
  have path : removeDotSegments (resolveTarget reference).path = (resolveTarget reference).path :=
    removeDotSegments_removeDotSegments _
  calc resolveTarget (resolveTarget reference).text
      = { resolveTarget reference with path := removeDotSegments (resolveTarget reference).path } := by
        rw [resolveTarget, split]
    _ = resolveTarget reference := by rw [path]

/-- A legal text that starts with a slash is a reference from the root as it is. -/
theorem rootReference_eq_self {reference : List Char} (rooted : reference.head? = some '/')
    (legal : isLegal reference = true) : rootReference reference = reference := by
  have trimmed : trim reference = reference := trim_eq_self (isBlank_eq_false_of_isLegal legal)
  rw [rootReference_eq_referenceOf, referenceOf, trimmed, if_pos rooted]

theorem head?_text_resolveTarget (reference : List Char) :
    (resolveTarget reference).text.head? = some '/' := by
  have rooted : (resolveTarget reference).path.head? = some '/' := head?_removeDotSegments _
  obtain ⟨rest, path⟩ := List.head?_eq_some_iff.mp rooted
  simp [Target.text, path]

/-- Only the scheme and the authority of a server make a difference to its pages. -/
theorem page_congr {server other : String} {base start : Address}
    (found : read (trim server.toList) = .ok base) (found' : read (trim other.toList) = .ok start)
    (scheme : base.scheme = start.scheme) (authority : base.authority = start.authority)
    (path : String) : page server path = page other path := by
  simp only [page, found, found', scheme, authority]

/-- The pages of a page are the pages of its server, those refused included. Behind the server of a page stands one
text, its path with its query and its fragment, and it is a path of the same page. -/
theorem page_of_page {server path : String} {shown : Address} (h : page server path = .ok shown) :
    (∀ other, page shown.toString other = page server other) ∧
      ∃ reference : String,
        (∀ rest, StandsBehindServer shown.toString.toList rest ↔ rest = reference.toList) ∧
        reference.toList = shown.target.path ++ Target.withMark '?' shown.target.query ++
          Target.withMark '#' shown.target.fragment ∧
        page server reference = .ok shown := by
  have wellFormed := wellFormed_of_page h
  obtain ⟨legal, base, found, same⟩ := page_eq_ok_iff.mp h
  have target : shown.target = resolveTarget (rootReference path.toList) := by rw [same]
  constructor
  · intro other
    have again : read (trim shown.toString.toList) = .ok shown := by
      rw [wellFormed.trim_toString]
      exact wellFormed.read_text
    exact page_congr again found (by rw [same]) (by rw [same]) other
  · refine ⟨String.ofList shown.target.text, ?_, String.toList_ofList, ?_⟩
    · intro rest
      rw [Address.toString, String.toList_ofList, String.toList_ofList]
      exact wellFormed.standsBehindServer_iff
    · -- Nothing is trimmed, put in front or resolved, so that the target is the one before.
      have reference : rootReference shown.target.text = shown.target.text := by
        apply rootReference_eq_self
        · rw [target]
          exact head?_text_resolveTarget _
        · exact wellFormed.target_legal
      rw [page_eq_ok_iff, String.toList_ofList, reference]
      refine ⟨wellFormed.target_legal, base, found, ?_⟩
      rw [target, resolveTarget_text_resolveTarget]
      exact same

/-- A server given with zeros in front of its port and with a path of its own, and a path with a dot segment, an
empty segment, a query and a fragment. -/
theorem page_of_page_with_query :
    ∃ (shown : Address) (reference : String),
      page " https://me@example.com:0080/x?q#f" "a/../b//?c#d?" = .ok shown ∧
      shown.toString = "https://me@example.com:80/b//?c#d?" ∧
      page shown.toString "../%41" = page " https://me@example.com:0080/x?q#f" "../%41" ∧
      page shown.toString "my game" = .error (.malformed "my game") ∧
      StandsBehindServer shown.toString.toList reference.toList ∧
      reference.toList = "/b//?c#d?".toList ∧
      page " https://me@example.com:0080/x?q#f" reference = .ok shown := by
  let shown : Address :=
    ⟨.https, ⟨some "me".toList, "example.com".toList, some 80⟩,
      ⟨"/b//".toList, some ['c'], some "d?".toList⟩⟩
  have found : page " https://me@example.com:0080/x?q#f" "a/../b//?c#d?" = .ok shown := by decide
  have refused : page " https://me@example.com:0080/x?q#f" "my game" = .error (.malformed "my game") := by
    decide
  obtain ⟨others, reference, stands, text, again⟩ := page_of_page found
  exact ⟨shown, reference, found, by decide, others _, (others _).trans refused,
    (stands _).mpr rfl, text, again⟩

end GameClient.Address
