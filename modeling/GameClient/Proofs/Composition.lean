import GameClient.Proofs.OutputRoom
import GameClient.Proofs.Transcript
import Mathlib.Data.List.Forall2
import Mathlib.Logic.Relation
/-!
Talks about inputs that are put together. Behind a line end an input can be cut: the talk about the whole is the one
about the first part and then, unless that one ends before its input does, the one about the rest. How the lines end
and the white space around them make no difference.
-/

namespace GameClient

open Text

namespace Talk

/-! ### One talk after the other -/

/-- The room that is left after events. -/
def Room.left (room : Room) (events : List TalkEvent) : Room :=
  room.map (· - lineCount events)

/-- The first talk and then the second one, unless the first one ends before its input does. -/
def followedBy (first second : Talk) : Talk :=
  if first.ending = .exhausted then ⟨first.events ++ second.events, second.ending⟩ else first

theorem followedBy_of_exhausted {first : Talk} (exhausted : first.ending = .exhausted) (second : Talk) :
    first.followedBy second = ⟨first.events ++ second.events, second.ending⟩ :=
  if_pos exhausted

theorem followedBy_of_ended {first : Talk} (ended : first.ending ≠ .exhausted) (second : Talk) :
    first.followedBy second = first :=
  if_neg ended

theorem followedBy_nothing (first : Talk) : first.followedBy ⟨[], .exhausted⟩ = first := by
  by_cases exhausted : first.ending = .exhausted
  · rw [followedBy_of_exhausted exhausted, List.append_nil, ← exhausted]
  · exact followedBy_of_ended exhausted _

theorem followedBy_precede (front : List TalkEvent) (first second : Talk) :
    followedBy { first with events := front ++ first.events } second =
      { followedBy first second with events := front ++ (followedBy first second).events } := by
  unfold followedBy
  by_cases exhausted : first.ending = .exhausted <;> simp [exhausted]

theorem nothing_followedBy (second : Talk) : followedBy ⟨[], .exhausted⟩ second = second :=
  followedBy_of_exhausted rfl second

theorem Room.left_nil (room : Room) : Room.left room [] = room := by
  cases room <;> rfl

theorem Room.left_append (room : Room) (events later : List TalkEvent) :
    Room.left room (events ++ later) = Room.left (Room.left room events) later := by
  cases room <;> simp [Room.left, Nat.sub_sub]

theorem Room.left_call (room : Room) (call : Option MenuAction) :
    Room.left room (call.map TalkEvent.call).toList = room := by
  cases call with
  | none => exact left_nil room
  | some action => cases room <;> simp [Room.left]

theorem Room.left_out {room left : Room} (taken : Room.take room = some left) (reply : String) :
    Room.left room [.out reply] = left := by
  match room, taken with
  | none, rfl => rfl
  | some (n + 1), rfl => rfl

/-- The talk about lines and more lines. -/
theorem talk_append (menu : Option MenuBar) (room : Room) (before after : List (List UInt8)) :
    Place.talk menu ⟨room, before ++ after⟩ =
      (Place.talk menu ⟨room, before⟩).followedBy
        (Place.talk menu ⟨Room.left room (Place.talk menu ⟨room, before⟩).events, after⟩) := by
  induction before generalizing room with
  | nil =>
      have nothing : Place.talk menu ⟨room, []⟩ = ⟨[], .exhausted⟩ := rfl
      rw [List.nil_append, nothing, Room.left_nil, nothing_followedBy]
  | cons line before ih =>
      rw [List.cons_append]
      obtain ⟨ending, either, move⟩ | ⟨call, move⟩ | ⟨reply, move, full⟩ := Place.move_cons_cases menu line
      · have ended : ending ≠ .exhausted := by rcases either with rfl | rfl <;> exact nofun
        rw [Place.talk_of_stop (move room _), Place.talk_of_stop (move room before)]
        exact (followedBy_of_ended ended _).symm
      · rw [Place.talk_of_go (move room _), Place.talk_of_go (move room before), ih, followedBy_precede,
          Room.left_append, Room.left_call]
      · cases taken : Room.take room with
        | none =>
            rw [Place.talk_of_stop (full room _ taken), Place.talk_of_stop (full room before taken)]
            rfl
        | some left =>
            rw [Place.talk_of_go (move room left _ taken), Place.talk_of_go (move room left before taken), ih,
              followedBy_precede, Room.left_append, Option.toList_some, Room.left_out taken]

/-! ### Lines that say the same -/

/-- The command of a line: its text without the white space around it, if the line is a text. -/
def commandOf? (line : List UInt8) : Option (List Char) :=
  (Utf8.decode? line).map trim

/-- The lines hold the same command, or none of them is a text. -/
def SaysTheSame (line other : List UInt8) : Prop :=
  commandOf? line = commandOf? other

theorem commandOf?_encode_append {blank : List Char} (blanks : ∀ c ∈ blank, isBlank c = true)
    (line : List UInt8) : commandOf? (Utf8.encode blank ++ line) = commandOf? line := by
  unfold commandOf?
  rw [Utf8.decode?_encode_append, Option.map_map]
  exact congrFun (congrArg Option.map (funext fun text => trim_blank_append blanks text)) _

theorem commandOf?_append_encode {blank : List Char} (blanks : ∀ c ∈ blank, isBlank c = true)
    (line : List UInt8) : commandOf? (line ++ Utf8.encode blank) = commandOf? line := by
  unfold commandOf?
  rw [Utf8.decode?_append_encode, Option.map_map]
  exact congrFun (congrArg Option.map (funext fun text => trim_append_blank blanks text)) _

theorem saysTheSame_of_isPart {line part : List UInt8} (isPart : Lines.IsPart line part) :
    SaysTheSame line part := by
  have carriage : ∀ c ∈ ['\r'], isBlank c = true := List.forall_mem_singleton.mpr (by decide)
  obtain rfl | rfl := isPart
  · exact rfl
  · exact (commandOf?_append_encode carriage line).symm

/-- The reaction to a text depends on what is left of it without the white space around it. -/
theorem react_congr (menu : Option MenuBar) {text other : List Char} (same : trim text = trim other) :
    react menu text = react menu other := by
  unfold react
  rw [same]

/-- Lines that say the same lead to the same talk. -/
theorem talk_congr (menu : Option MenuBar) {lines others : List (List UInt8)}
    (same : List.Forall₂ SaysTheSame lines others) (room : Room) :
    Place.talk menu ⟨room, lines⟩ = Place.talk menu ⟨room, others⟩ := by
  unfold Place.talk
  induction same generalizing room with
  | nil => rfl
  | @cons line other lines others first _ ih =>
      unfold SaysTheSame commandOf? at first
      simp only at ih
      cases decoded : Utf8.decode? line with
      | none =>
          cases decoded' : Utf8.decode? other with
          | none => simp only [ofLines, decoded, decoded']
          | some text => simp [decoded, decoded'] at first
      | some text =>
          cases decoded' : Utf8.decode? other with
          | none => simp [decoded, decoded'] at first
          | some text' =>
              rw [decoded, decoded', Option.map_some, Option.map_some, Option.some_inj] at first
              simp only [ofLines, decoded, decoded', react_congr menu first, ih]

/-- A blank line at the end is passed over. -/
theorem talk_append_blank (menu : Option MenuBar) (room : Room) (lines : List (List UInt8)) :
    Place.talk menu ⟨room, lines ++ [[]]⟩ = Place.talk menu ⟨room, lines⟩ := by
  rw [talk_append]
  exact followedBy_nothing _

/-- The talk about an input is the one about the parts between its LFs. -/
theorem ofInput_eq_talk_splitOn (menu : Option MenuBar) (room : Room) (input : List UInt8) :
    ofInput menu room input = Place.talk menu ⟨room, input.splitOn Lines.lf⟩ := by
  have same : List.Forall₂ SaysTheSame (Lines.split input) (Lines.cut input) :=
    (Lines.forall₂_split_cut input).imp fun _ _ => saysTheSame_of_isPart
  calc ofInput menu room input
    _ = Place.talk menu ⟨room, Lines.split input⟩ := rfl
    _ = Place.talk menu ⟨room, Lines.cut input⟩ := talk_congr menu same room
    _ = Place.talk menu ⟨room, input.splitOn Lines.lf⟩ := by
      unfold Lines.cut
      by_cases last : (input.splitOn Lines.lf).getLast? = some []
      · obtain ⟨parts, split⟩ := List.getLast?_eq_some_iff.mp last
        rw [if_pos last, split, List.dropLast_concat, talk_append_blank]
      · rw [if_neg last]

/-! ### Inputs put together -/

theorem ofInput_append_lf (menu : Option MenuBar) (room : Room) (input : List UInt8) :
    ofInput menu room (input ++ [Lines.lf]) = ofInput menu room input := by
  rw [ofInput_eq_talk_splitOn, List.splitOn_append_cons_self, List.splitOn_nil, talk_append_blank,
    ofInput_eq_talk_splitOn]

/-- The talk about lines and the input behind the LF after them. -/
theorem ofInput_append_lf_cons (menu : Option MenuBar) (room : Room) (front back : List UInt8) :
    ofInput menu room (front ++ Lines.lf :: back) =
      (ofInput menu room front).followedBy
        (ofInput menu (Room.left room (ofInput menu room front).events) back) := by
  rw [ofInput_eq_talk_splitOn, List.splitOn_append_cons_self, talk_append, ← ofInput_eq_talk_splitOn,
    ← ofInput_eq_talk_splitOn]

theorem ofInput_append (menu : Option MenuBar) (room : Room) {front : List UInt8}
    (whole : front = [] ∨ front.getLast? = some Lines.lf) (back : List UInt8) :
    ofInput menu room (front ++ back) =
      (ofInput menu room front).followedBy
        (ofInput menu (Room.left room (ofInput menu room front).events) back) := by
  rcases whole with rfl | ends
  · have nothing : ofInput menu room [] = ⟨[], .exhausted⟩ := rfl
    rw [List.nil_append, nothing, Room.left_nil, nothing_followedBy]
  · obtain ⟨lines, rfl⟩ := List.getLast?_eq_some_iff.mp ends
    rw [ofInput_append_lf, List.append_assoc, List.singleton_append, ofInput_append_lf_cons]

end Talk

/-! ### Inputs that differ in white space -/

namespace Text.Lines

/-- A line begins behind the bytes. -/
def BeginsLine (before : List UInt8) : Prop :=
  before = [] ∨ before.getLast? = some lf

/-- A line ends in front of the bytes: at the end of the stream, at an LF or at a CR with an LF behind it. -/
def EndsLine (after : List UInt8) : Prop :=
  after = [] ∨ ∃ rest, after = lf :: rest ∨ after = cr :: lf :: rest

/-- The characters are white space that stays inside a line. -/
def IsSpacing (blank : List Char) : Prop :=
  ∀ c ∈ blank, isBlank c = true ∧ c ≠ '\n'

/-- One stream is another one with something more around its lines: a CR in front of an LF, white space where a line
begins or ends, or an LF at the end. -/
inductive Padded : List UInt8 → List UInt8 → Prop where
  | carriage (before after : List UInt8) : Padded (before ++ lf :: after) (before ++ cr :: lf :: after)
  | start {before : List UInt8} {blank : List Char} (begins : BeginsLine before) (spacing : IsSpacing blank)
      (after : List UInt8) : Padded (before ++ after) (before ++ Utf8.encode blank ++ after)
  | finish (before : List UInt8) {blank : List Char} {after : List UInt8} (ends : EndsLine after)
      (spacing : IsSpacing blank) : Padded (before ++ after) (before ++ Utf8.encode blank ++ after)
  | final (stream : List UInt8) : Padded stream (stream ++ [lf])

theorem IsSpacing.blank {blank : List Char} (spacing : IsSpacing blank) : ∀ c ∈ blank, isBlank c = true :=
  fun c member => (spacing c member).1

theorem IsSpacing.lf_not_mem {blank : List Char} (spacing : IsSpacing blank) : lf ∉ Utf8.encode blank := by
  intro member
  exact (spacing _ (Utf8.mem_encode_of_ascii (by decide) member)).2 rfl

/-- Bytes without an LF in front of a stream belong to its first part. -/
theorem exists_splitOn_append (after : List UInt8) :
    ∃ first rest, ∀ bytes, lf ∉ bytes → (bytes ++ after).splitOn lf = (bytes ++ first) :: rest := by
  obtain ⟨first, rest, split⟩ := List.exists_cons_of_ne_nil (List.splitOn_ne_nil lf after)
  refine ⟨first, rest, fun bytes free => ?_⟩
  induction bytes with
  | nil => exact split
  | cons b bytes ih =>
      obtain ⟨other, free⟩ : lf ≠ b ∧ lf ∉ bytes := by simpa using free
      have differs : ¬ (b == lf) = true := by simpa using Ne.symm other
      rw [List.cons_append, List.splitOn_cons_eq_if_modifyHead, if_neg differs, ih free]
      rfl

/-- Bytes without an LF behind a stream belong to its last part. -/
theorem exists_append_splitOn (before : List UInt8) :
    ∃ parts last, ∀ bytes, lf ∉ bytes → (before ++ bytes).splitOn lf = parts ++ [last ++ bytes] := by
  induction before with
  | nil => exact ⟨[], [], fun bytes free => List.splitOn_eq_singleton free⟩
  | cons b before ih =>
      obtain ⟨parts, last, split⟩ := ih
      by_cases isLf : b = lf
      · refine ⟨[] :: parts, last, fun bytes free => ?_⟩
        rw [List.cons_append, List.splitOn_cons_eq_if_modifyHead, if_pos (by simpa using isLf), split bytes free]
        rfl
      · have differs : ¬ (b == lf) = true := by simpa using isLf
        cases parts with
        | nil =>
            refine ⟨[], b :: last, fun bytes free => ?_⟩
            rw [List.cons_append, List.splitOn_cons_eq_if_modifyHead, if_neg differs, split bytes free]
            rfl
        | cons part parts =>
            refine ⟨(b :: part) :: parts, last, fun bytes free => ?_⟩
            rw [List.cons_append, List.splitOn_cons_eq_if_modifyHead, if_neg differs, split bytes free]
            rfl

end Text.Lines

namespace Talk

open Text.Lines

variable {blank : List Char}

theorem forall₂_saysTheSame_refl (lines : List (List UInt8)) : List.Forall₂ SaysTheSame lines lines :=
  List.forall₂_same.mpr fun _ _ => rfl

/-- White space where a line begins makes no difference. -/
theorem ofInput_start (menu : Option MenuBar) (room : Room) {before : List UInt8} (begins : BeginsLine before)
    (spacing : IsSpacing blank) (after : List UInt8) :
    ofInput menu room (before ++ Utf8.encode blank ++ after) = ofInput menu room (before ++ after) := by
  have same : ∀ room, ofInput menu room (Utf8.encode blank ++ after) = ofInput menu room after := by
    intro room
    obtain ⟨first, rest, split⟩ := exists_splitOn_append after
    rw [ofInput_eq_talk_splitOn, ofInput_eq_talk_splitOn, split _ spacing.lf_not_mem,
      ← List.nil_append after, split [] List.not_mem_nil]
    apply talk_congr
    exact .cons (commandOf?_encode_append spacing.blank first) (forall₂_saysTheSame_refl rest)
  rw [List.append_assoc, ofInput_append menu room begins, ofInput_append menu room begins, same]

/-- White space at the end of an input makes no difference. -/
theorem ofInput_append_encode (menu : Option MenuBar) (room : Room) (input : List UInt8)
    (spacing : IsSpacing blank) : ofInput menu room (input ++ Utf8.encode blank) = ofInput menu room input := by
  obtain ⟨parts, last, split⟩ := exists_append_splitOn input
  rw [ofInput_eq_talk_splitOn, ofInput_eq_talk_splitOn, split _ spacing.lf_not_mem, ← List.append_nil input,
    split [] List.not_mem_nil]
  apply talk_congr
  apply List.rel_append (forall₂_saysTheSame_refl parts)
  exact .cons ((commandOf?_append_encode spacing.blank last).trans (by rw [List.append_nil])) .nil

/-- White space where a line ends makes no difference. -/
theorem ofInput_finish (menu : Option MenuBar) (room : Room) (before : List UInt8) {after : List UInt8}
    (ends : EndsLine after) (spacing : IsSpacing blank) :
    ofInput menu room (before ++ Utf8.encode blank ++ after) = ofInput menu room (before ++ after) := by
  have beforeLf : ∀ {blank}, IsSpacing blank → ∀ rest,
      ofInput menu room (before ++ Utf8.encode blank ++ lf :: rest) = ofInput menu room (before ++ lf :: rest) := by
    intro blank spacing rest
    rw [ofInput_append_lf_cons, ofInput_append_lf_cons, ofInput_append_encode menu room before spacing]
  rcases ends with rfl | ⟨rest, rfl | rfl⟩
  · rw [List.append_nil, List.append_nil, ofInput_append_encode menu room before spacing]
  · exact beforeLf spacing rest
  · -- The CR is white space itself, so that on both sides nothing is added but white space in front of the LF.
    have carriage : IsSpacing ['\r'] := List.forall_mem_singleton.mpr (by decide)
    have both : IsSpacing (blank ++ ['\r']) := List.forall_mem_append.mpr ⟨spacing, carriage⟩
    have shorter := beforeLf carriage rest
    have longer := beforeLf both rest
    rw [Utf8.encode_append, ← List.append_assoc, List.append_assoc _ (Utf8.encode ['\r'])] at longer
    rw [List.append_assoc] at shorter
    exact longer.trans shorter.symm

theorem ofInput_padded (menu : Option MenuBar) (room : Room) {input other : List UInt8}
    (padded : Padded input other) : ofInput menu room input = ofInput menu room other := by
  cases padded with
  | carriage before after =>
      have ends : EndsLine (lf :: after) := .inr ⟨after, .inl rfl⟩
      have spacing : IsSpacing ['\r'] := List.forall_mem_singleton.mpr (by decide)
      have dropped := ofInput_finish menu room before ends spacing
      rw [List.append_assoc] at dropped
      exact dropped.symm
  | start begins spacing after => exact (ofInput_start menu room begins spacing after).symm
  | finish before ends spacing => exact (ofInput_finish menu room before ends spacing).symm
  | final => exact (ofInput_append_lf menu room _).symm

/-- The talk about whole lines and then more is the talk about the lines and then, with the room that is left, the one
about the rest, if the first one reaches the end of the lines; if it does not, the rest makes no difference. Neither do
the CRs in front of LFs, white space around lines and an LF at the end. -/
theorem ofInput_composes (menu : Option MenuBar) (room : Room) :
    (∀ front back, BeginsLine front →
      ((ofInput menu room front).ending = .exhausted →
        ofInput menu room (front ++ back) =
          ⟨(ofInput menu room front).events ++
              (ofInput menu (Room.left room (ofInput menu room front).events) back).events,
            (ofInput menu (Room.left room (ofInput menu room front).events) back).ending⟩) ∧
      ((ofInput menu room front).ending ≠ .exhausted →
        ofInput menu room (front ++ back) = ofInput menu room front)) ∧
    ∀ input other, Relation.EqvGen Padded input other →
      ofInput menu room input = ofInput menu room other := by
  refine ⟨?parts, ?padding⟩
  case parts =>
    intro front back whole
    rw [ofInput_append menu room whole]
    exact ⟨fun exhausted => followedBy_of_exhausted exhausted _, fun ended => followedBy_of_ended ended _⟩
  case padding =>
    intro input other related
    induction related with
    | rel input other padded => exact ofInput_padded menu room padded
    | refl input => rfl
    | symm input other _ ih => exact ih.symm
    | trans input middle other _ _ first second => exact first.trans second

/-- The second part of a talk with room for one reply has no room any more, a quit word ends both parts, and two inputs
are the same up to white space, one of them with a space of two bytes in front of its first line. -/
theorem ofInput_composes_of_spaced_lines :
    let menu := some MenuBar.standard
    let said : List UInt8 := Utf8.encode "R\nbogus\n".toList
    let rest : List UInt8 := Utf8.encode "0\nmore\nq\n".toList ++ [0xFF]
    ofInput menu none (said ++ rest) =
        ⟨[.call .reload, .out "Unknown command: bogus\n", .call .resetZoom, .out "Unknown command: more\n"],
          .left⟩ ∧
      ofInput menu (some 1) (said ++ rest) =
        ⟨[.call .reload, .out "Unknown command: bogus\n", .call .resetZoom], .outputClosed⟩ ∧
      ofInput menu none (Utf8.encode "q\n".toList ++ rest) = ⟨[], .left⟩ ∧
      ofInput menu none [0x52, 0x0A, 0x30] =
        ofInput menu none [0xC2, 0xA0, 0x52, 0x0D, 0x0A, 0x30, 0x20, 0x0A] := by
  intro menu said rest
  have whole : BeginsLine said := .inr (by decide)
  have quits : BeginsLine (Utf8.encode "q\n".toList) := .inr (by decide)
  have space : IsSpacing ['\u00a0'] := List.forall_mem_singleton.mpr (by decide)
  have blank : IsSpacing [' '] := List.forall_mem_singleton.mpr (by decide)
  have indented : Padded [0x52, 0x0A, 0x30] [0xC2, 0xA0, 0x52, 0x0A, 0x30] :=
    .start (.inl rfl) space [0x52, 0x0A, 0x30]
  have returned : Padded [0xC2, 0xA0, 0x52, 0x0A, 0x30] [0xC2, 0xA0, 0x52, 0x0D, 0x0A, 0x30] :=
    .carriage [0xC2, 0xA0, 0x52] [0x30]
  have spaced : Padded [0xC2, 0xA0, 0x52, 0x0D, 0x0A, 0x30] [0xC2, 0xA0, 0x52, 0x0D, 0x0A, 0x30, 0x20] :=
    .finish [0xC2, 0xA0, 0x52, 0x0D, 0x0A, 0x30] (.inl rfl) blank
  have ended := Padded.final [0xC2, 0xA0, 0x52, 0x0D, 0x0A, 0x30, 0x20]
  obtain ⟨unlimited, padding⟩ := ofInput_composes menu none
  obtain ⟨limited, _⟩ := ofInput_composes menu (some 1)
  refine ⟨?_, ?_, ?_, padding _ _ ?_⟩
  · rw [(unlimited said rest whole).1 (by decide)]
    decide
  · rw [(limited said rest whole).1 (by decide)]
    decide
  · rw [(unlimited _ rest quits).2 (by decide)]
    decide
  · exact .trans _ _ _ (.rel _ _ indented)
      (.trans _ _ _ (.rel _ _ returned) (.trans _ _ _ (.rel _ _ spaced) (.rel _ _ ended)))

end Talk

end GameClient
