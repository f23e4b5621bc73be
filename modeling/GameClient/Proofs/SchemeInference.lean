import GameClient.Proofs.AuthorityGrammar
import GameClient.Proofs.Faults
/-!
Addresses without a scheme. Such an address has the result that it has with `http://` in front, so nothing
of it is taken for a scheme, not even a host before a colon and a port. White space around an address makes
no difference to its result.
-/

namespace GameClient.Address

open Text Parts

/-- Two texts have the same result: the same address or the same error, where a malformed text is reported
as it was given. -/
inductive Alike (one two : String) :
    Except AddressError Address → Except AddressError Address → Prop where
  | ok (address : Address) : Alike one two (.ok address) (.ok address)
  | blank : Alike one two (.error .blank) (.error .blank)
  | malformed : Alike one two (.error (.malformed one)) (.error (.malformed two))
  | unknownScheme : Alike one two (.error .unknownScheme) (.error .unknownScheme)
  | noHost : Alike one two (.error .noHost) (.error .noHost)

/-! ### Texts that are read alike -/

theorem alike_of_candidate_eq {one two : String} (h : trim one.toList ≠ []) (h' : trim two.toList ≠ [])
    (same : candidate one = candidate two) : Alike one two (normalize one) (normalize two) := by
  rw [normalize_of_ne_nil h, normalize_of_ne_nil h', same]
  cases read (candidate two) with
  | ok address => exact .ok _
  | error fault =>
      cases fault with
      | malformed => exact .malformed
      | unknownScheme => exact .unknownScheme
      | noHost => exact .noHost

theorem alike_of_trim_eq {one two : String} (same : trim one.toList = trim two.toList) :
    Alike one two (normalize one) (normalize two) := by
  by_cases empty : trim two.toList = []
  · have blank : ∀ given : String, trim given.toList = [] → normalize given = .error .blank := by
      intro given nothing
      rw [normalize, nothing]
    rw [blank one (same.trans empty), blank two empty]
    exact .blank
  · apply alike_of_candidate_eq (same ▸ empty) empty
    rw [candidate, candidate, same]

/-! ### A scheme in front -/

/-- The text with the scheme that it gets if it has none. -/
def prefixed (given : String) : String :=
  "http://" ++ String.ofList (trim given.toList)

theorem toList_prefixed (given : String) :
    (prefixed given).toList = "http://".toList ++ trim given.toList := by
  simp [prefixed]

theorem trim_prefixed {given : String} (h : trim given.toList ≠ []) :
    trim (prefixed given).toList = (prefixed given).toList := by
  rw [toList_prefixed]
  apply trim_eq_self_of_ends
  · intro c first
    have letter : c = 'h' := by simpa [eq_comm] using first
    rw [letter]
    decide
  · intro c last
    apply isBlank_of_getLast?_trim given.toList
    rwa [List.getLast?_append_of_ne_nil _ h] at last

theorem candidate_of_no_mark {given : String} (h : ¬ [':', '/', '/'] <:+: given.toList) :
    candidate given = (prefixed given).toList := by
  rw [toList_prefixed]
  apply if_neg
  intro inside
  exact h (inside.trans (isInfix_trim _))

theorem candidate_prefixed {given : String} (h : trim given.toList ≠ []) :
    candidate (prefixed given) = (prefixed given).toList := by
  have mark : [':', '/', '/'] <:+: (prefixed given).toList := by
    rw [toList_prefixed]
    exact ⟨"http".toList, trim given.toList, rfl⟩
  rw [candidate, trim_prefixed h]
  exact if_pos mark

theorem schemePart_prefixed (given : String) :
    SchemePart (prefixed given).toList Scheme.http.text ('/' :: '/' :: trim given.toList) where
  shape := by
    rw [toList_prefixed]
    rfl
  nonempty := by decide
  free := by simp [Scheme.text, endsScheme]

/-- A text with a scheme that can be opened may be refused for anything but its scheme. -/
theorem read_ne_unknownScheme {text after : List Char} {scheme : Scheme}
    (part : SchemePart text scheme.text after) : read text ≠ .error .unknownScheme := by
  intro unknown
  have verdict := (reading_read text).verdict
  rw [unknown] at verdict
  exact not_lacksScheme part verdict.2

theorem normalize_ne_unknownScheme {given : String} (h : trim given.toList ≠ [])
    (known : read (candidate given) ≠ .error .unknownScheme) :
    normalize given ≠ .error .unknownScheme := by
  rw [normalize_of_ne_nil h]
  cases found : read (candidate given) with
  | ok address => simp
  | error fault =>
      cases fault with
      | malformed => simp [Fault.report]
      | unknownScheme => exact absurd found known
      | noHost => simp [Fault.report]

/-! ### A host and a port -/

/-- The address of a server with a port, and nothing else. -/
def ofServer (host : List Char) (port : Nat) : Address :=
  ⟨.http, ⟨none, host, some port⟩, ⟨[], none, none⟩⟩

theorem text_ofServer (host : List Char) (port : Nat) :
    (ofServer host port).text = "http://".toList ++ (host ++ ':' :: Numeral.write port) := by
  simp [ofServer, Address.text, Authority.text, Target.text, Target.withMark, Scheme.text]

theorem isPlain_of_mem_server {host digits : List Char} {port : Option Nat}
    (server : Host.IsServer host) (spelled : Authority.SpellsPort digits port) {c : Char}
    (member : c ∈ host ++ digits) : isPlain c = true ∧ endsAuthority c = false := by
  rcases List.mem_append.mp member with inHost | inPort
  · have char := Host.isHostChar_of_mem server inHost
    exact ⟨Authority.isPlain_of_isHostChar char, Authority.endsAuthority_of_isHostChar char⟩
  · exact ⟨Authority.isPlain_of_mem_port spelled inPort,
      Authority.endsAuthority_of_mem_port spelled inPort⟩

theorem wellFormed_ofServer {host : List Char} {port : Nat} (server : Host.IsServer host)
    (small : port < Authority.portLimit) : (ofServer host port).WellFormed := by
  have spelled := Authority.SpellsPort.write small
  have text : (ofServer host port).authority.text = host ++ ':' :: Numeral.write port := rfl
  exact
    { spelled := ⟨server, _, spelled, text⟩
      authority_free := fun c member => (isPlain_of_mem_server server spelled member).2
      authority_legal := isLegal_of_forall_isPlain fun c member =>
        (isPlain_of_mem_server server spelled member).1
      target := ⟨by simp [ofServer], by simp [ofServer]⟩
      target_legal := rfl
      rooted := by simp [ofServer] }

/-- Without a scheme in front, a host and a port are still read as such. -/
theorem normalize_server {host : List Char} {port : Nat} (server : Host.IsServer host)
    (small : port < Authority.portLimit) {given : String}
    (shape : given.toList = host ++ ':' :: Numeral.write port) :
    normalize given = .ok (ofServer host port) := by
  have spelled := Authority.SpellsPort.write small
  have chars : ∀ c ∈ given.toList, isPlain c = true ∧ endsAuthority c = false := by
    rw [shape]
    exact fun c member => isPlain_of_mem_server server spelled member
  have noMark : ¬ [':', '/', '/'] <:+: given.toList := by
    intro inside
    have slash : '/' ∈ given.toList := inside.mem (by simp)
    exact absurd (chars '/' slash).2 (by decide)
  have whole : trim given.toList = given.toList :=
    trim_eq_self fun c member => isBlank_eq_false_of_isPlain (chars c member).1
  have nonempty : trim given.toList ≠ [] := by
    rw [whole, shape]
    simp
  rw [normalize_of_ne_nil nonempty, candidate_of_no_mark noMark, toList_prefixed, whole, shape,
    ← text_ofServer, (wellFormed_ofServer server small).read_text]
  rfl

/-! ### Results -/

/-- An address without a scheme has the result that it has with `http://` in front, and its scheme is never
unknown; white space around an address makes no difference; and a host with a port is read as such. -/
theorem normalize_without_scheme :
    (∀ given : String, trim given.toList ≠ [] → ¬ [':', '/', '/'] <:+: given.toList →
      Alike given (prefixed given) (normalize given) (normalize (prefixed given)) ∧
        normalize given ≠ .error .unknownScheme) ∧
    (∀ before given after : String, (∀ c ∈ before.toList, isBlank c = true) →
      (∀ c ∈ after.toList, isBlank c = true) →
        Alike (before ++ given ++ after) given (normalize (before ++ given ++ after))
          (normalize given)) ∧
    ∀ (host numeral : String) (port : Nat), Host.IsHost host.toList →
      Numeral.IsDecimal numeral.toList port → port < UInt32.size →
        normalText (host ++ ":" ++ numeral) = .ok ("http://" ++ host ++ ":" ++ numeral) := by
  refine ⟨?_, ?_, ?_⟩
  · intro given nonempty noMark
    constructor
    · apply alike_of_candidate_eq nonempty
      · rw [trim_prefixed nonempty, toList_prefixed]
        simp
      · rw [candidate_of_no_mark noMark, candidate_prefixed nonempty]
    · apply normalize_ne_unknownScheme nonempty
      rw [candidate_of_no_mark noMark]
      exact read_ne_unknownScheme (schemePart_prefixed given)
  · intro before given after blankBefore blankAfter
    apply alike_of_trim_eq
    rw [String.toList_append, String.toList_append, trim_append_blank blankAfter,
      trim_blank_append blankBefore]
  · intro host numeral port isHost decimal small
    have written := Numeral.isDecimal_iff.mp decimal
    have shape : (host ++ ":" ++ numeral).toList = host.toList ++ ':' :: Numeral.write port := by
      simp [String.toList_append, written]
    have found := normalize_server (Host.isServer_iff.mpr isHost) small shape
    have text : (ofServer host.toList port).toString = "http://" ++ host ++ ":" ++ numeral := by
      apply String.toList_injective
      rw [Address.toString, String.toList_ofList, text_ofServer, ← written]
      simp [String.toList_append]
    rw [normalText, found, ← text]
    rfl

/-- A host before a colon and a port is no scheme, and the blank between two words is inside the text and not
around it. -/
theorem normalize_without_scheme_of_ports :
    normalText "[::1]:0" = .ok "http://[::1]:0" ∧
      Alike " [::1 " "http://[::1" (normalize " [::1 ") (normalize "http://[::1") ∧
      normalize " [::1 " ≠ .error .unknownScheme ∧
      Alike "\tftp://a b\n" "ftp://a b" (normalize "\tftp://a b\n") (normalize "ftp://a b") := by
  have digit : '1'.isHexDigit = true := by decide
  have host : Host.IsHost "[::1]".toList :=
    @Host.IsHost.bracketed "::1".toList (by decide) (by simp [digit])
  have port : Numeral.IsDecimal "0".toList 0 := Numeral.isDecimal_write 0
  obtain ⟨alike, scheme⟩ := normalize_without_scheme.1 " [::1 " (by decide) (by decide)
  refine ⟨?_, alike, scheme, ?_⟩
  · exact normalize_without_scheme.2.2 "[::1]" "0" 0 host port (by decide)
  · exact normalize_without_scheme.2.1 "\t" "ftp://a b" "\n" (List.all_eq_true.mp (by decide))
      (List.all_eq_true.mp (by decide))

end GameClient.Address
