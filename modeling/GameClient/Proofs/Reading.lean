import GameClient.Address.Basic
import GameClient.Proofs.Authority
import GameClient.Proofs.Parts
/-!
What the reader of addresses can come to. `Reading` has one case for each way in which it can end, with
all that was found until then; every other statement about the reader is taken from these cases.
-/

namespace GameClient

namespace Scheme

theorem isName_text (scheme : Scheme) : isName scheme.text = true := by
  cases scheme <;> decide

theorem ofText?_eq_some_iff {name : List Char} {scheme : Scheme} :
    ofText? name = some scheme ↔ name = scheme.text := by
  unfold ofText?
  by_cases isHttp : name = Scheme.http.text
  · subst isHttp
    cases scheme <;> decide
  · by_cases isHttps : name = Scheme.https.text
    · subst isHttps
      cases scheme <;> decide
    · rw [if_neg isHttp, if_neg isHttps]
      cases scheme <;> simp [isHttp, isHttps]

theorem ofText?_eq_none_iff {name : List Char} :
    ofText? name = none ↔ ∀ scheme : Scheme, name ≠ scheme.text := by
  simp only [Option.eq_none_iff_forall_ne_some, ne_eq, ofText?_eq_some_iff]

end Scheme

namespace Address

open Parts

/-- The ways in which reading a text can end, in the order in which they are tried. -/
inductive Reading (text : List Char) : Except Fault Address → Prop where
  | misspelled (misspelled : isWellSpelled text = false) : Reading text (.error .malformed)
  | schemeless (spelled : isWellSpelled text = true)
      (without : ∀ name after, ¬ SchemePart text name after) :
      Reading text (.error .unknownScheme)
  | misnamed {name after : List Char} (spelled : isWellSpelled text = true)
      (part : SchemePart text name after) (noName : Scheme.isName name = false) :
      Reading text (.error .malformed)
  | foreign {name after : List Char} (spelled : isWellSpelled text = true)
      (part : SchemePart text name after) (named : Scheme.isName name = true)
      (unknown : ∀ scheme : Scheme, name ≠ scheme.text) : Reading text (.error .unknownScheme)
  | serverless {scheme : Scheme} {after server : List Char} (spelled : isWellSpelled text = true)
      (part : SchemePart text scheme.text after) (place : ServerPart after server)
      (unspelled : ∀ authority, ¬ Authority.Spells server authority) :
      Reading text (.error (authorityFault server))
  | complete {scheme : Scheme} {after server rest : List Char} {authority : Authority}
      (spelled : isWellSpelled text = true) (part : SchemePart text scheme.text after)
      (place : AuthorityPart after server rest) (spells : Authority.Spells server authority) :
      Reading text (.ok ⟨scheme, authority, Target.split rest⟩)

/-- An empty text is no authority, so an authority that is one stands behind two slashes. -/
theorem exists_authorityPart_of_spells {after server : List Char} {authority : Authority}
    (place : ServerPart after server) (spells : Authority.Spells server authority) :
    ∃ rest, AuthorityPart after server rest := by
  rcases place with found | ⟨_, rfl⟩
  · exact found
  · have unread : Authority.read [] = none := rfl
    rw [Authority.read_eq_some_iff.mpr spells] at unread
    exact absurd unread (by simp)

theorem reading_of_schemePart {text after : List Char} {scheme : Scheme}
    (spelled : isWellSpelled text = true) (part : SchemePart text scheme.text after) :
    Reading text (read text) := by
  have known : Scheme.ofText? scheme.text = some scheme := Scheme.ofText?_eq_some_iff.mpr rfl
  have place := serverPart_splitAuthority after
  cases found : Authority.read ((splitAuthority after).1.getD []) with
  | none =>
      have unspelled : ∀ authority, ¬ Authority.Spells ((splitAuthority after).1.getD []) authority := by
        intro authority spells
        rw [Authority.read_eq_some_iff.mpr spells] at found
        simp at found
      have result : read text = .error (authorityFault ((splitAuthority after).1.getD [])) := by
        simp [read, ofParts, spelled, split, splitScheme_of_schemePart part, Scheme.isName_text, known, found]
      rw [result]
      exact .serverless spelled part place unspelled
  | some authority =>
      have spells := Authority.read_eq_some_iff.mp found
      obtain ⟨rest, server⟩ := exists_authorityPart_of_spells place spells
      have result : read text = .ok ⟨scheme, authority, Target.split rest⟩ := by
        simp [read, ofParts, spelled, split_of_parts part server, Scheme.isName_text, known, found]
      rw [result]
      exact .complete spelled part server spells

theorem reading_read (text : List Char) : Reading text (read text) := by
  cases spelled : isWellSpelled text with
  | false =>
      have result : read text = .error .malformed := by
        simp [read, spelled]
      rw [result]
      exact .misspelled spelled
  | true =>
      cases cut : splitScheme text with
      | mk scheme after =>
          cases scheme with
          | none =>
              have result : read text = .error .unknownScheme := by
                simp [read, ofParts, spelled, split, cut]
              rw [result]
              exact .schemeless spelled (splitScheme_eq_none_iff.mp (by rw [cut]))
          | some name =>
              have part := splitScheme_eq_some_iff.mp cut
              cases named : Scheme.isName name with
              | false =>
                  have result : read text = .error .malformed := by
                    simp [read, ofParts, spelled, split, cut, named]
                  rw [result]
                  exact .misnamed spelled part named
              | true =>
                  cases known : Scheme.ofText? name with
                  | none =>
                      have result : read text = .error .unknownScheme := by
                        simp [read, ofParts, spelled, split, cut, named, known]
                      rw [result]
                      exact .foreign spelled part named (Scheme.ofText?_eq_none_iff.mp known)
                  | some scheme =>
                      rw [Scheme.ofText?_eq_some_iff.mp known] at part
                      exact reading_of_schemePart spelled part

end Address

end GameClient
