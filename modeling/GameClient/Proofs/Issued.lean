import GameClient.Proofs.Normal
import GameClient.Proofs.Page
/-!
Addresses that are handed out: the normal forms of servers, and the addresses of pages. What the reader
gives, it gives again for the printed text, and so it does for the two addresses that are made of it: the
one without the last slash of its path, and the one of a page. So whatever is handed out is accepted when
it comes back, and every character of it may stand in an address.
-/

namespace GameClient.Address

open Text

/-- Reads a text; a fault is reported about the text that the user gave. -/
def readFor (given : String) (text : List Char) : Except AddressError Address :=
  (read text).mapError (Fault.report given)

theorem readFor_eq_ok_iff {given : String} {text : List Char} {address : Address} :
    readFor given text = .ok address ↔ read text = .ok address := by
  unfold readFor
  cases read text <;> simp [Except.mapError]

theorem WellFormed.readFor_toString {address : Address} (h : address.WellFormed) (given : String) :
    readFor given address.toString.toList = .ok address := by
  rw [readFor_eq_ok_iff, Address.toString, String.toList_ofList]
  exact h.read_text

/-- The text is the normal form of a server or the address of a page. -/
def IsIssued (url : String) : Prop :=
  (∃ given normal, normalize given = .ok normal ∧ url = normal.toString) ∨
    ∃ server path shown, page server path = .ok shown ∧ url = shown.toString

/-- What is handed out is the text of a well-formed address. -/
theorem IsIssued.exists_wellFormed {url : String} (h : IsIssued url) :
    ∃ address : Address, address.WellFormed ∧ url = address.toString := by
  rcases h with ⟨given, normal, found, same⟩ | ⟨server, path, shown, found, same⟩
  · exact ⟨normal, wellFormed_of_normalize found, same⟩
  · exact ⟨shown, wellFormed_of_page found, same⟩

/-- Printing and reading are inverse on all that the reader gives, whatever text a fault would be reported
about; also without the last slash of the path, and with the target of a page in the place of its own.
What is handed out is accepted as a server, and consists of legal characters, none of them white space or
a control character. -/
theorem readFor_toString_of_readFor :
    (∀ given text address, readFor given text = .ok address →
      ∀ other, readFor other address.toString.toList = .ok address ∧
        readFor other address.trimPath.toString.toList = .ok address.trimPath ∧
        ∀ path, isLegal (rootReference path) = true →
          readFor other (address.atPath path).toString.toList = .ok (address.atPath path)) ∧
    ∀ url, IsIssued url →
      (∃ normal, normalize url = .ok normal) ∧ isLegal url.toList = true ∧
        ∀ c ∈ url.toList, isBlank c = false ∧ ¬ IsControl c := by
  constructor
  · intro given text address found other
    have wellFormed := wellFormed_of_read (readFor_eq_ok_iff.mp found)
    refine ⟨wellFormed.readFor_toString other, wellFormed.trimPath.readFor_toString other, ?_⟩
    intro path legal
    exact (wellFormed.atPath legal).readFor_toString other
  · intro url issued
    obtain ⟨address, wellFormed, rfl⟩ := issued.exists_wellFormed
    have legal : isLegal address.toString.toList = true := by
      rw [Address.toString, String.toList_ofList]
      exact wellFormed.isLegal_text
    refine ⟨⟨_, wellFormed.normalize_toString⟩, legal, ?_⟩
    intro c member
    exact ⟨isBlank_eq_false_of_isLegal legal c member, not_isControl_of_isLegal legal c member⟩

/-- An address with a mark of each kind in a place where it could be taken for another: two `@`, a
bracketed host, a port with leading zeros, slashes at the end, an empty query and an empty fragment. -/
theorem readFor_toString_of_marks :
    ∃ address, readFor "given" "https://a:1@b@[::1]:0080/x//?#".toList = .ok address ∧
      address.toString = "https://a:1@b@[::1]:80/x//?#" ∧
      readFor "other" address.toString.toList = .ok address ∧
      address.trimPath.toString = "https://a:1@b@[::1]:80/x/?#" ∧
      readFor "other" address.trimPath.toString.toList = .ok address.trimPath ∧
      (address.atPath "../@c:9?#d?".toList).toString = "https://a:1@b@[::1]:80/@c:9?#d?" ∧
      readFor "other" (address.atPath "../@c:9?#d?".toList).toString.toList =
        .ok (address.atPath "../@c:9?#d?".toList) ∧
      page "https://a:1@b@[::1]:0080/x//?#" "../@c:9?#d?" =
        .ok (address.atPath "../@c:9?#d?".toList) ∧
      ∃ normal, normalize "https://a:1@b@[::1]:80/@c:9?#d?" = .ok normal := by
  let address : Address :=
    ⟨.https, ⟨some "a:1@b".toList, "[::1]".toList, some 80⟩, ⟨"/x//".toList, some [], some []⟩⟩
  have found : readFor "given" "https://a:1@b@[::1]:0080/x//?#".toList = .ok address := by decide
  have text : (address.atPath "../@c:9?#d?".toList).toString = "https://a:1@b@[::1]:80/@c:9?#d?" := by
    decide
  have shown : page "https://a:1@b@[::1]:0080/x//?#" "../@c:9?#d?" =
      .ok (address.atPath "../@c:9?#d?".toList) := by
    decide
  obtain ⟨again, trimmed, moved⟩ := readFor_toString_of_readFor.1 _ _ _ found "other"
  have accepted := readFor_toString_of_readFor.2 _ (Or.inr ⟨_, _, _, shown, text.symm⟩)
  exact ⟨address, found, by decide, again, by decide, trimmed, text, moved _ (by decide), shown,
    accepted.1⟩

end GameClient.Address
