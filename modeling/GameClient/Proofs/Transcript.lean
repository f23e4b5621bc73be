import GameClient.Proofs.Blank
import GameClient.Proofs.Talk
import GameClient.Proofs.Utf8
import Mathlib.Data.List.Forall2
import Mathlib.Data.List.ReduceOption
/-!
What a talk tells, said without its loop. The input is cut at its LFs. The lines in front of the first one
that ends the talk are passed, each with one event or, if it is blank, with none; nothing behind that line
counts.
-/

namespace GameClient

open Text

namespace Text

namespace Lines

/-- The parts of a stream between its LFs; an empty one at the end of the stream does not count. -/
def cut (stream : List UInt8) : List (List UInt8) :=
  let parts := stream.splitOn lf
  if parts.getLast? = some [] then parts.dropLast else parts

theorem cut_lf_cons (rest : List UInt8) : cut (lf :: rest) = [] :: cut rest := by
  obtain ⟨part, parts, split⟩ := List.exists_cons_of_ne_nil (List.splitOn_ne_nil lf rest)
  by_cases last : (part :: parts).getLast? = some [] <;>
    simp_all [cut, List.splitOn_cons_eq_if_modifyHead, List.getLast?_cons_cons]

theorem cut_cons {b : UInt8} (h : b ≠ lf) (rest : List UInt8) :
    cut (b :: rest) = extend b (cut rest) := by
  obtain ⟨part, parts, split⟩ := List.exists_cons_of_ne_nil (List.splitOn_ne_nil lf rest)
  cases parts with
  | nil => cases part <;> simp [cut, List.splitOn_cons_eq_if_modifyHead, h, split, extend]
  | cons second parts =>
      by_cases last : (second :: parts).getLast? = some [] <;>
        simp [cut, List.splitOn_cons_eq_if_modifyHead, h, split, extend, last,
          List.getLast?_cons_cons]

/-- A line with its end or a part: the two differ at most by one CR. -/
def IsPart (line part : List UInt8) : Prop :=
  part = line ∨ part = line ++ [cr]

theorem forall₂_isPart_extend (b : UInt8) {lines parts : List (List UInt8)}
    (h : List.Forall₂ IsPart lines parts) : List.Forall₂ IsPart (extend b lines) (extend b parts) := by
  cases h with
  | nil => exact .cons (.inl rfl) .nil
  | cons first rest =>
      refine .cons ?_ rest
      obtain rfl | rfl := first
      · exact .inl rfl
      · exact .inr rfl

/-- The lines of a stream are its parts, some of them without a CR at their end. -/
theorem forall₂_split_cut (stream : List UInt8) :
    List.Forall₂ IsPart (split stream) (cut stream) := by
  induction stream with
  | nil => exact .nil
  | cons b rest ih =>
      by_cases ends : b = lf
      · rw [ends, cut_lf_cons, split, if_pos rfl]
        exact .cons (.inl rfl) ih
      · rw [cut_cons ends, split, if_neg ends]
        by_cases dropped : b = cr ∧ rest.head? = some lf
        · -- A CR in front of the LF: here the line is empty, and the part is the CR alone.
          rw [if_pos dropped]
          obtain ⟨rfl, first⟩ := dropped
          obtain ⟨later, rfl⟩ := List.head?_eq_some_iff.mp first
          rw [cut_lf_cons, split, if_pos rfl] at ih ⊢
          exact .cons (.inr rfl) (List.forall₂_cons.mp ih).2
        · rw [if_neg dropped]
          exact forall₂_isPart_extend b ih

end Lines

theorem Lines.encode_eq_concat_cr_iff {text : List Char} {line : List UInt8} :
    Utf8.encode text = line ++ [cr] ↔ ∃ front, text = front ++ ['\r'] ∧ Utf8.encode front = line :=
  Utf8.encode_eq_concat_iff (by decide)

/-- A line and its part hold the same text up to white space at its ends. -/
theorem Lines.IsPart.exists_trim_iff {line part : List UInt8} (isPart : IsPart line part)
    {P : List Char → Prop} :
    (∃ text, part = Utf8.encode text ∧ P (trim text)) ↔
      ∃ text, line = Utf8.encode text ∧ P (trim text) := by
  have carriage : ∀ c ∈ ['\r'], isBlank c = true := List.forall_mem_singleton.mpr (by decide)
  obtain rfl | rfl := isPart
  · rfl
  · constructor
    · rintro ⟨text, encoded, holds⟩
      obtain ⟨front, rfl, rfl⟩ := encode_eq_concat_cr_iff.mp encoded.symm
      rw [trim_append_blank carriage] at holds
      exact ⟨front, rfl, holds⟩
    · rintro ⟨front, rfl, holds⟩
      refine ⟨front ++ ['\r'], (encode_eq_concat_cr_iff.mpr ⟨front, rfl, rfl⟩).symm, ?_⟩
      rwa [trim_append_blank carriage]

end Text

namespace Talk

/-- A command that ends the talk, in any ASCII case. -/
def Leaves (command : List Char) : Prop :=
  fold command ∈ ["quit".toList, "exit".toList, "q".toList]

instance (command : List Char) : Decidable (Leaves command) :=
  inferInstanceAs (Decidable (_ ∈ _))

/-- What a command tells if the talk goes on after it. -/
inductive Tells (menu : Option MenuBar) (command : List Char) : Option TalkEvent → Prop where
  | blank (blank : command = []) : Tells menu command none
  | item {bar : MenuBar} {item : MenuItem} (written : command ≠ []) (stays : ¬ Leaves command)
      (shown : menu = some bar) (found : bar.find? command = some item) :
      Tells menu command (some (.call item.action))
  | unknown {bar : MenuBar} (written : command ≠ []) (stays : ¬ Leaves command)
      (shown : menu = some bar) (missing : bar.find? command = none) :
      Tells menu command (some (.out ("Unknown command: " ++ String.ofList command ++ "\n")))
  | disabled (written : command ≠ []) (stays : ¬ Leaves command) (hidden : menu = none) :
      Tells menu command (some (.out "Menu is disabled; type \x27quit\x27 to exit\n"))

/-- A line is passed, and tells something or nothing: it encodes a text with such a command. -/
def Passes (menu : Option MenuBar) (line : List UInt8) (event : Option TalkEvent) : Prop :=
  ∃ text, line = Utf8.encode text ∧ Tells menu (trim text) event

/-- A line ends the talk: it encodes no text, or a text with a command that ends the talk. -/
inductive Stops (line : List UInt8) : TalkEnd → Prop where
  | invalidText (garbled : ¬ ∃ text, line = Utf8.encode text) : Stops line .invalidText
  | left (leaves : ∃ text, line = Utf8.encode text ∧ Leaves (trim text)) : Stops line .left

/-- The talk about lines: the ones in front of the first line that ends it are passed, and that line or
the end of the input decides how it ends. -/
inductive IsAbout (menu : Option MenuBar) (lines : List (List UInt8)) : Talk → Prop where
  | stopped {passed rest : List (List UInt8)} {line : List UInt8} {events : List (Option TalkEvent)}
      {ending : TalkEnd} (split : lines = passed ++ line :: rest)
      (passes : List.Forall₂ (Passes menu) passed events) (stops : Stops line ending) :
      IsAbout menu lines ⟨events.reduceOption, ending⟩
  | exhausted {events : List (Option TalkEvent)} (passes : List.Forall₂ (Passes menu) lines events) :
      IsAbout menu lines ⟨events.reduceOption, .exhausted⟩

section Command

variable {menu : Option MenuBar} {command : List Char} {event other : Option TalkEvent}

theorem leaves_iff : Leaves command ↔ quitWords.any (equalFold command) = true := by
  simp [Leaves, quitWords, equalFold, fold]

theorem Tells.not_leaves (tells : Tells menu command event) : ¬ Leaves command := by
  cases tells with
  | blank blank => simp [blank, Leaves, fold]
  | item _ stays _ _ => exact stays
  | unknown _ stays _ _ => exact stays
  | disabled _ stays _ => exact stays

/-- A command tells one thing. -/
theorem Tells.unique (tells : Tells menu command event) (tells' : Tells menu command other) :
    event = other := by
  cases tells <;> cases tells' <;> simp_all

/-- The reaction to a text is to leave, or it is what its command tells. -/
theorem moveAt_cases (menu : Option MenuBar) (line : List Char) (rest : List (List UInt8)) :
    (Leaves (trim line) ∧ Place.moveAt menu none line rest = .stop .left) ∨
      ∃ event, Tells menu (trim line) event ∧
        Place.moveAt menu none line rest = .go event ⟨none, rest⟩ := by
  by_cases blank : trim line = []
  · exact .inr ⟨none, .blank blank, by simp [Place.moveAt, react, blank]⟩
  by_cases leaves : Leaves (trim line)
  · exact .inl ⟨leaves, by simp [Place.moveAt, react, blank, leaves_iff.mp leaves]⟩
  have stays : quitWords.any (equalFold (trim line)) = false := by
    rwa [leaves_iff, Bool.not_eq_true] at leaves
  refine .inr ?_
  cases menu with
  | none =>
      refine ⟨some (.out menuDisabled), .disabled blank leaves rfl, ?_⟩
      simp [Place.moveAt, react, blank, stays, Room.take]
  | some bar =>
      cases found : bar.find? (trim line) with
      | none =>
          refine ⟨some (.out (unknownCommand (trim line))), .unknown blank leaves rfl found, ?_⟩
          simp [Place.moveAt, react, blank, stays, found, Room.take]
      | some item =>
          refine ⟨_, .item blank leaves rfl found, ?_⟩
          simp [Place.moveAt, react, blank, stays, found]

end Command

/-- What the next line leads to, by the bytes of that line. -/
theorem move_cases (menu : Option MenuBar) (line : List UInt8) (rest : List (List UInt8)) :
    (∃ ending, Stops line ending ∧ Place.move menu ⟨none, line :: rest⟩ = .stop ending) ∨
      ∃ event, Passes menu line event ∧
        Place.move menu ⟨none, line :: rest⟩ = .go event ⟨none, rest⟩ := by
  cases decoded : Utf8.decode? line with
  | none =>
      have garbled : ¬ ∃ text, line = Utf8.encode text :=
        not_exists.mpr (Utf8.decode?_eq_none_iff.mp decoded)
      exact .inl ⟨_, .invalidText garbled, by simp [Place.move, decoded]⟩
  | some text =>
      have encoded := Utf8.decode?_eq_some_iff.mp decoded
      obtain ⟨leaves, move⟩ | ⟨event, tells, move⟩ := moveAt_cases menu text rest
      · exact .inl ⟨_, .left ⟨text, encoded, leaves⟩, by simp [Place.move, decoded, move]⟩
      · exact .inr ⟨event, ⟨text, encoded, tells⟩, by simp [Place.move, decoded, move]⟩

/-- A line ends the talk, or it is passed. -/
theorem stops_or_passes (menu : Option MenuBar) (line : List UInt8) :
    (∃ ending, Stops line ending) ∨ ∃ event, Passes menu line event := by
  obtain ⟨ending, stops, _⟩ | ⟨event, passes, _⟩ := move_cases menu line []
  · exact .inl ⟨ending, stops⟩
  · exact .inr ⟨event, passes⟩

theorem reduceOption_cons {α : Type} (item : Option α) (items : List (Option α)) :
    (item :: items).reduceOption = item.toList ++ items.reduceOption := by
  rw [← List.singleton_append, List.reduceOption_append, List.reduceOption_singleton]

section Line

variable {menu : Option MenuBar} {line : List UInt8} {rest : List (List UInt8)}
  {event other : Option TalkEvent} {ending ending' : TalkEnd} {talk : Talk}

theorem Passes.unique (passes : Passes menu line event) (passes' : Passes menu line other) :
    event = other := by
  obtain ⟨text, rfl, tells⟩ := passes
  obtain ⟨text', encoded, tells'⟩ := passes'
  exact (Utf8.encode_inj encoded ▸ tells).unique tells'

theorem Passes.not_stops (passes : Passes menu line event) : ¬ Stops line ending := by
  obtain ⟨text, rfl, tells⟩ := passes
  intro stops
  cases stops with
  | invalidText garbled => exact garbled ⟨text, rfl⟩
  | left leaves =>
      obtain ⟨text', encoded, leaves⟩ := leaves
      exact tells.not_leaves (Utf8.encode_inj encoded ▸ leaves)

theorem Stops.unique (stops : Stops line ending) (stops' : Stops line ending') :
    ending = ending' := by
  cases stops with
  | invalidText garbled =>
      cases stops' with
      | invalidText _ => rfl
      | left leaves => exact absurd (leaves.imp fun _ => And.left) garbled
  | left leaves =>
      cases stops' with
      | invalidText garbled => exact absurd (leaves.imp fun _ => And.left) garbled
      | left _ => rfl

theorem passes_of_isPart {part : List UInt8} (isPart : Lines.IsPart line part)
    (passes : Passes menu line event) : Passes menu part event :=
  (isPart.exists_trim_iff (P := fun command => Tells menu command event)).mpr passes

theorem stops_of_isPart {part : List UInt8} (isPart : Lines.IsPart line part)
    (stops : Stops line ending) : Stops part ending := by
  cases stops with
  | invalidText garbled =>
      refine .invalidText fun encodes => garbled ?_
      simpa using (isPart.exists_trim_iff (P := fun _ => True)).mp (by simpa using encodes)
  | left leaves => exact .left (isPart.exists_trim_iff.mpr leaves)

theorem isAbout_cons_of_stops (stops : Stops line ending) :
    IsAbout menu (line :: rest) talk ↔ talk = ⟨[], ending⟩ := by
  constructor
  · intro about
    cases about with
    | @stopped passed rest' line' events ending' split passes stops' =>
        cases passes with
        | nil =>
            obtain ⟨rfl, rfl⟩ := List.cons.inj split
            rw [stops.unique stops', List.reduceOption_nil]
        | cons first _ =>
            obtain ⟨rfl, _⟩ := List.cons.inj split
            exact absurd stops first.not_stops
    | exhausted passes =>
        cases passes with
        | cons first _ => exact absurd stops first.not_stops
  · rintro rfl
    exact .stopped (List.nil_append _).symm .nil stops

theorem isAbout_cons_of_passes (passes : Passes menu line event) :
    IsAbout menu (line :: rest) talk ↔
      ∃ later, IsAbout menu rest later ∧ talk = ⟨event.toList ++ later.events, later.ending⟩ := by
  constructor
  · intro about
    cases about with
    | stopped split passes' stops =>
        cases passes' with
        | nil =>
            obtain ⟨rfl, _⟩ := List.cons.inj split
            exact absurd stops passes.not_stops
        | cons first others =>
            obtain ⟨rfl, behind⟩ := List.cons.inj split
            refine ⟨_, .stopped behind others stops, ?_⟩
            rw [reduceOption_cons, passes.unique first]
    | exhausted passes' =>
        cases passes' with
        | cons first others =>
            refine ⟨_, .exhausted others, ?_⟩
            rw [reduceOption_cons, passes.unique first]
  · rintro ⟨later, about, rfl⟩
    cases about with
    | stopped split passes' stops =>
        rw [split, ← reduceOption_cons]
        exact .stopped List.cons_append.symm (.cons passes passes') stops
    | exhausted passes' =>
        rw [← reduceOption_cons]
        exact .exhausted (.cons passes passes')

theorem isAbout_nil : IsAbout menu [] talk ↔ talk = ⟨[], .exhausted⟩ := by
  constructor
  · intro about
    cases about with
    | stopped split _ _ => simp at split
    | exhausted passes => rw [List.forall₂_nil_left_iff.mp passes, List.reduceOption_nil]
  · rintro rfl
    exact .exhausted .nil

/-- The talk that lines lead to is the only one about them. -/
theorem isAbout_iff {lines : List (List UInt8)} :
    IsAbout menu lines talk ↔ ofLines menu none lines = talk := by
  -- By induction on the lines: on both sides the next line decides, and for a line that is passed the rest
  -- is the same question about the lines behind it.
  induction lines generalizing talk with
  | nil =>
      rw [isAbout_nil]
      exact eq_comm
  | cons line rest ih =>
      have first : ofLines menu none (line :: rest) =
          Place.talkOf menu (Place.move menu ⟨none, line :: rest⟩) :=
        Place.talk_eq_talkOf_move menu ⟨none, line :: rest⟩
      obtain ⟨ending, stops, move⟩ | ⟨event, passes, move⟩ := move_cases menu line rest
      · rw [isAbout_cons_of_stops stops, first, move]
        exact eq_comm
      · rw [isAbout_cons_of_passes passes, first, move]
        simp only [ih, exists_eq_left']
        exact eq_comm

/-- The CR in front of an LF makes no difference. -/
theorem isAbout_iff_of_forall₂_isPart {lines parts : List (List UInt8)}
    (h : List.Forall₂ Lines.IsPart lines parts) :
    IsAbout menu parts talk ↔ IsAbout menu lines talk := by
  induction h generalizing talk with
  | nil => rfl
  | @cons line part lines parts isPart _ ih =>
      obtain ⟨ending, stops⟩ | ⟨event, passes⟩ := stops_or_passes menu line
      · rw [isAbout_cons_of_stops stops, isAbout_cons_of_stops (stops_of_isPart isPart stops)]
      · rw [isAbout_cons_of_passes passes,
          isAbout_cons_of_passes (passes_of_isPart isPart passes)]
        simp only [ih]

/-- What stands behind a line that ends the talk makes no difference. -/
theorem isAbout_append_of_stops {passed rest' : List (List UInt8)} (stops : Stops line ending) :
    IsAbout menu (passed ++ line :: rest) talk ↔ IsAbout menu (passed ++ line :: rest') talk := by
  induction passed generalizing talk with
  | nil =>
      rw [List.nil_append, List.nil_append, isAbout_cons_of_stops stops,
        isAbout_cons_of_stops stops]
  | cons first passed ih =>
      obtain ⟨ending, stops⟩ | ⟨event, passes⟩ := stops_or_passes menu first
      · rw [List.cons_append, List.cons_append, isAbout_cons_of_stops stops,
          isAbout_cons_of_stops stops]
      · rw [List.cons_append, List.cons_append, isAbout_cons_of_passes passes,
          isAbout_cons_of_passes passes]
        simp only [ih]

/-- Without a menu nothing that is told is a call. -/
theorem call?_of_passes (passes : Passes none line event) : event.bind TalkEvent.call? = none := by
  obtain ⟨text, _, tells⟩ := passes
  cases tells with
  | blank _ => rfl
  | item _ _ shown _ => exact nomatch shown
  | unknown _ _ shown _ => exact nomatch shown
  | disabled _ _ _ => rfl

theorem calls_of_no_menu (lines : List (List UInt8)) :
    Place.calls none ⟨none, lines⟩ = [] := by
  induction lines with
  | nil => rfl
  | cons line rest ih =>
      obtain ⟨ending, _, move⟩ | ⟨event, passes, move⟩ := move_cases none line rest
      · exact Place.calls_of_stop move
      · rw [Place.calls_of_go move, call?_of_passes passes, ih]
        rfl

end Line

end Talk

theorem Talk.ofInput_eq_iff {menu : Option MenuBar} {input : List UInt8} {talk : Talk} :
    Talk.ofInput menu none input = talk ↔ Talk.IsAbout menu (Lines.cut input) talk := by
  rw [Talk.isAbout_iff_of_forall₂_isPart (Lines.forall₂_split_cut input), Talk.isAbout_iff]
  rfl

/-- A talk whose output takes every line is the one about the parts of the input. A part that ends the
talk makes everything behind it count for nothing, and without a menu no action is called. -/
theorem Talk.ofInput_isAbout_cut (menu : Option MenuBar) (input : List UInt8) :
    (∀ talk, Talk.ofInput menu none input = talk ↔ Talk.IsAbout menu (Lines.cut input) talk) ∧
      (∀ other passed line rest rest' ending, Lines.cut input = passed ++ line :: rest →
        Lines.cut other = passed ++ line :: rest' → Talk.Stops line ending →
          Talk.ofInput menu none other = Talk.ofInput menu none input) ∧
      (Talk.ofInput none none input).calls = [] := by
  refine ⟨fun talk => ofInput_eq_iff, ?_, calls_of_no_menu (Lines.split input)⟩
  intro other passed line rest rest' ending here there stops
  rw [ofInput_eq_iff, there, isAbout_append_of_stops stops, ← here, ← ofInput_eq_iff]

/-- Behind the quit word stands a byte that is no UTF-8, then a command; neither shows. -/
theorem Talk.ofInput_isAbout_cut_of_quit :
    let said := Utf8.encode "R\r\n \t\nbogus\n".toList
    let input := said ++ Utf8.encode "QuIt\r\n".toList ++ [0xFF, 0x0A] ++ Utf8.encode "0".toList
    let other := said ++ Utf8.encode "QuIt\r\n".toList
    Talk.IsAbout (some .standard) (Lines.cut input)
        ⟨[.call .reload, .out "Unknown command: bogus\n"], .left⟩ ∧
      Talk.ofInput (some .standard) none other = Talk.ofInput (some .standard) none input ∧
      (Talk.ofInput none none input).calls = [] := by
  intro said input other
  obtain ⟨about, behind, silent⟩ := Talk.ofInput_isAbout_cut (some .standard) input
  refine ⟨(about _).mp (by decide), ?_, silent⟩
  have stops : Talk.Stops (Utf8.encode "QuIt\r".toList) .left := .left ⟨_, rfl, by decide⟩
  exact behind other (Lines.cut said) _ [[0xFF], [0x30]] [] .left (by decide) (by decide) stops

end GameClient
