import GameClient.Proofs.Issued
import GameClient.Proofs.JsonUnambiguity
import GameClient.Settings.Basic
/-!
Settings as JSON. What is written for them is a compact text of the grammar that spells one object, and this
object holds all of them; so no two settings are written alike. The address of a server needs no escape.
-/

namespace GameClient

open Text

namespace Text.Quoted

open Json

theorem isCode_escape {c : Char} (control : c.toNat < 0x20) :
    IsCode ['0', '0', Nat.digitChar (c.toNat / 16), Nat.digitChar (c.toNat % 16)] c.toNat := by
  have digit : ∀ n < 16, (Nat.digitChar n).isHexDigit = true ∧ hexValue (Nat.digitChar n) = n := by
    decide
  have high := digit (c.toNat / 16) (by omega)
  have low := digit (c.toNat % 16) (by omega)
  refine ⟨rfl, ?_, ?_⟩
  · simp [high.1, low.1]
    decide
  · have zero : hexValue '0' = 0 := rfl
    simp only [List.foldl_cons, List.foldl_nil, zero, high.2, low.2]
    omega

/-- What is written for a character spells it. -/
theorem spellsChar_escape (c : Char) (rest : List Char) : SpellsChar (escape c ++ rest) c rest := by
  fun_cases escape c with
  | case1 | case2 | case3 | case4 | case5 | case6 | case7 =>
      subst_vars
      exact .short rfl
  | case8 _ _ _ _ _ _ _ control => exact .code (isCode_escape control)
  | case9 noQuote noBackslash _ _ _ _ _ visible => exact .plain (by omega) noQuote noBackslash

theorem quotes_encode (content rest : List Char) : Quotes (encode content ++ '"' :: rest) content rest := by
  induction content with
  | nil => exact .close
  | cons c content ih =>
      rw [encode, List.flatMap_cons, List.append_assoc]
      exact .char (spellsChar_escape c _) ih

/-- The written text of a quoted text, behind its opening quote. -/
theorem quotes_quote (content : String) (rest : List Char) :
    ∃ inner, (quote content).toList ++ rest = '"' :: inner ∧ Quotes inner content.toList rest := by
  refine ⟨encode content.toList ++ '"' :: rest, ?_, quotes_encode content.toList rest⟩
  simp [quote]

end Text.Quoted

namespace Json

/-- The text writes the value without white space, whatever comes behind. -/
def WrittenAs (written : String) (value : Json) : Prop :=
  ∀ rest, Spells noSpace (.value value) (written.toList ++ rest) rest

theorem writtenAs_quote (content : String) : WrittenAs (Quoted.quote content) (.text content) := by
  intro rest
  obtain ⟨inner, shape, quoted⟩ := Quoted.quotes_quote content rest
  rw [shape]
  exact .text quoted

theorem isNumber_write (n : Nat) : IsNumber (Numeral.write n) := by
  have parts := @IsNumber.mk [] (Numeral.write n) [] [] n (Or.inl rfl) (Numeral.isDecimal_write n)
    .none .none
  simpa using parts

theorem writtenAs_number (n : Nat) : WrittenAs (Settings.number n) (.number (Numeral.write n)) := by
  intro rest
  rw [Settings.number, String.toList_ofList]
  exact .number (isNumber_write n)

theorem writtenAs_truth (b : Bool) : WrittenAs (Settings.truth b) (.bool b) := by
  intro rest
  cases b <;> exact .word rfl

/-- A member as it is written. -/
structure WritesMember (entry : String × String) (member : String × Json) : Prop where
  name : entry.1 = member.1
  value : WrittenAs entry.2 member.2

theorem WritesMember.spells {entry : String × String} {member : String × Json}
    (writes : WritesMember entry member) (rest : List Char) :
    Spells noSpace (.entry (named member)) ((Settings.writeMember entry).toList ++ rest) rest := by
  obtain ⟨inner, shape, quoted⟩ :=
    Quoted.quotes_quote entry.1 (':' :: (entry.2.toList ++ rest))
  have whole : (Settings.writeMember entry).toList ++ rest = '"' :: inner := by
    rw [← shape]
    simp [Settings.writeMember]
  rw [whole]
  rw [writes.name] at quoted
  exact .entry (.name (.refl _ _) quoted (.refl _ _)) (.refl _ _) (writes.value rest) (.refl _ _)

theorem spells_members {entries : List (String × String)} {members : List (String × Json)}
    (writes : List.Forall₂ WritesMember entries members) (nonempty : entries ≠ []) (rest : List Char) :
    Spells noSpace (.entries (members.map named))
      ((",".intercalate (entries.map Settings.writeMember)).toList ++ rest) rest := by
  induction writes with
  | nil => exact absurd rfl nonempty
  | @cons entry member entries members one others ih =>
      cases others with
      | nil => simpa using .last (one.spells rest)
      | @cons entry' _ entries _ next others =>
          have shape : (",".intercalate ((entry :: entry' :: entries).map Settings.writeMember)).toList ++
              rest = (Settings.writeMember entry).toList ++ ',' ::
                ((",".intercalate ((entry' :: entries).map Settings.writeMember)).toList ++ rest) := by
            simp [String.intercalate_cons_cons]
          rw [shape]
          exact .more (one.spells _) (ih (by simp))

end Json

namespace Settings

/-- The settings as a JSON object. -/
def json (settings : Settings) : Json :=
  .object
    [("serverUrl", .text settings.server), ("path", .text settings.path),
     ("width", .number (Numeral.write settings.width)),
     ("height", .number (Numeral.write settings.height)), ("title", .text settings.title),
     ("fullscreen", .bool settings.fullscreen), ("showMenu", .bool settings.showMenu)]

theorem writesMembers (settings : Settings) (members : List (String × Json))
    (same : settings.json = .object members) :
    List.Forall₂ Json.WritesMember settings.members members := by
  cases same
  simp only [Settings.members, List.forall₂_cons]
  exact ⟨⟨rfl, Json.writtenAs_quote _⟩, ⟨rfl, Json.writtenAs_quote _⟩, ⟨rfl, Json.writtenAs_number _⟩,
    ⟨rfl, Json.writtenAs_number _⟩, ⟨rfl, Json.writtenAs_quote _⟩, ⟨rfl, Json.writtenAs_truth _⟩,
    ⟨rfl, Json.writtenAs_truth _⟩, .nil⟩

theorem isText_toJson (settings : Settings) :
    Json.IsText Json.noSpace settings.toJson.toList settings.json := by
  have shape : settings.toJson.toList = '\x7b' ::
      ((",".intercalate (settings.members.map writeMember)).toList ++ ['\x7d']) := by
    simp [toJson]
  have members := Json.spells_members (settings.writesMembers _ rfl) (by simp [Settings.members]) ['\x7d']
  rw [shape]
  exact .entry .none (.refl _ _) (.object members) (.refl _ _)

theorem json_injective : Function.Injective json := by
  intro one two same
  obtain ⟨server, path, width, height, title, fullscreen, showMenu, _, _⟩ := one
  obtain ⟨server', path', width', height', title', fullscreen', showMenu', _, _⟩ := two
  simp only [json, Json.object.injEq, List.cons.injEq, Prod.mk.injEq, Json.text.injEq,
    Json.number.injEq, Json.bool.injEq, true_and, and_true] at same
  obtain ⟨rfl, rfl, wide, high, rfl, rfl, rfl⟩ := same
  obtain rfl := Numeral.write_inj.mp wide
  obtain rfl := Numeral.write_inj.mp high
  rfl

/-- The text for settings spells the object with these settings and nothing else. -/
theorem isText_toJson_iff {settings : Settings} {value : Json} :
    Json.IsText Json.isSpace settings.toJson.toList value ↔ value = settings.json := by
  have spelled : Json.IsText Json.isSpace settings.toJson.toList settings.json :=
    Json.Spells.mono (fun _ never => absurd never Bool.false_ne_true) settings.isText_toJson
  constructor
  · intro other
    exact spelled.unique other
  · rintro rfl
    exact spelled

end Settings

/-! ### Addresses -/

namespace Text.Quoted

theorem escape_eq_self {c : Char} (noQuote : c ≠ '"') (noBackslash : c ≠ '\\')
    (visible : 0x20 ≤ c.toNat) : escape c = [c] := by
  have ne : ∀ control : Char, control.toNat < 0x20 → c ≠ control := by
    rintro control small rfl
    omega
  simp [escape, noQuote, noBackslash, ne '\x08' (by decide), ne '\x0c' (by decide),
    ne '\n' (by decide), ne '\r' (by decide), ne '\t' (by decide), visible]

/-- Legal text needs no escape. -/
theorem encode_of_isLegal {text : List Char} (legal : Address.isLegal text = true) :
    encode text = text := by
  have plain : ∀ c ∈ text, escape c = [c] := by
    intro c member
    have noControl := Address.not_isControl_of_isLegal legal c member
    have foreign : ∀ mark : Char, mark ≠ '%' → Address.isPlain mark = false → c ≠ mark := by
      rintro mark notPercent notPlain rfl
      rcases Address.eq_percent_or_isPlain_of_isLegal legal c member with percent | isPlain
      · exact notPercent percent
      · simp [notPlain] at isPlain
    refine escape_eq_self (foreign '"' (by decide) (by decide)) (foreign '\\' (by decide) (by decide)) ?_
    unfold Address.IsControl at noControl
    omega
  rw [encode, List.flatMap_congr plain, List.flatMap_singleton']

/-- Legal text stands between the quotes as it is. -/
theorem quote_of_isLegal {text : String} (legal : Address.isLegal text.toList = true) :
    quote text = "\"" ++ text ++ "\"" := by
  apply String.toList_injective
  simp [quote, encode_of_isLegal legal]

end Text.Quoted

namespace Settings

/-- The JSON text of settings is compact and one line, and it spells one object, which holds just these
settings: so settings that are written alike are the same. The text for the address of a server is the
address between quotes, without an escape. -/
theorem toJson_spells (settings : Settings) :
    (∃ value, Json.IsText Json.noSpace settings.toJson.toList value) ∧
      (∀ c ∈ settings.toJson.toList, 0x20 ≤ c.toNat) ∧
      (∃ width height, Numeral.IsDecimal width settings.width ∧
        Numeral.IsDecimal height settings.height ∧
        ∀ value, Json.IsText Json.isSpace settings.toJson.toList value ↔
          value = .object
            [("serverUrl", .text settings.server), ("path", .text settings.path),
             ("width", .number width), ("height", .number height), ("title", .text settings.title),
             ("fullscreen", .bool settings.fullscreen), ("showMenu", .bool settings.showMenu)]) ∧
      (∀ other : Settings, other.toJson = settings.toJson ↔ other = settings) ∧
      ∀ given normal, Address.normalize given = .ok normal →
        Quoted.quote normal.toString = "\"" ++ normal.toString ++ "\"" := by
  refine ⟨⟨_, settings.isText_toJson⟩, ?line, ?object, ?same, ?address⟩
  case line => exact Json.Spells.isLine settings.isText_toJson (by simp [Json.IsLine])
  case object =>
    exact ⟨_, _, Numeral.isDecimal_write _, Numeral.isDecimal_write _, fun value => isText_toJson_iff⟩
  case same =>
    intro other
    constructor
    · intro alike
      have spelled := isText_toJson_iff.mpr (rfl : other.json = other.json)
      rw [alike] at spelled
      exact json_injective (isText_toJson_iff.mp spelled)
    · exact congrArg toJson
  case address =>
    intro given normal found
    have wellFormed := Address.wellFormed_of_normalize found
    apply Quoted.quote_of_isLegal
    rw [Address.toString, String.toList_ofList]
    exact wellFormed.isLegal_text

/-- Quotes, backslashes and line breaks in a path and a title, and an address with a letter beyond ASCII. -/
theorem toJson_spells_of_escapes :
    ∃ settings : Settings, settings.path = "/\"x\\" ∧ settings.title = "a\n\x1f" ∧
      settings.toJson = "\x7b\"serverUrl\":\"http://a\",\"path\":\"/\\\"x\\\\\",\"width\":800," ++
        "\"height\":600,\"title\":\"a\\n\\u001f\",\"fullscreen\":true,\"showMenu\":false\x7d" ∧
      (∀ other : Settings, other.toJson = settings.toJson ↔ other = settings) ∧
      ∃ normal, Address.normalize "b/?é/" = .ok normal ∧
        Quoted.quote normal.toString = "\"http://b/?é/\"" := by
  let settings : Settings :=
    ⟨"http://a", "/\"x\\", 800, 600, "a\n\x1f", true, false, by decide, by decide⟩
  let normal : Address := ⟨.http, ⟨none, ['b'], none⟩, ⟨['/'], some ['é', '/'], none⟩⟩
  have found : Address.normalize "b/?é/" = .ok normal := by decide
  obtain ⟨_, _, _, same, address⟩ := toJson_spells settings
  refine ⟨settings, rfl, rfl, by decide, same, normal, found, ?_⟩
  rw [address "b/?é/" normal found]
  decide

end Settings

end GameClient
