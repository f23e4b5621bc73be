import GameClient.Proofs.Talk
/-!
A talk whose output takes only so many lines. It is the talk that an output without end would show, up to the first
line for which there is no room: that line is refused, and nothing behind it happens.
-/

namespace GameClient

open Text

namespace Talk

/-- How many lines the events write. -/
def lineCount (events : List TalkEvent) : Nat :=
  (events.filterMap TalkEvent.line?).length

section LineCount

variable (events later : List TalkEvent)

@[simp] theorem lineCount_nil : lineCount [] = 0 := rfl

@[simp] theorem lineCount_call (action : MenuAction) :
    lineCount (.call action :: events) = lineCount events := rfl

@[simp] theorem lineCount_out (line : String) :
    lineCount (.out line :: events) = lineCount events + 1 := rfl

@[simp] theorem lineCount_append : lineCount (events ++ later) = lineCount events + lineCount later := by
  simp [lineCount]

end LineCount

namespace Place

/-- What a line leads to, whatever lines are behind it and whatever room the output has: the end of the talk, or no
line is written, or one line is, if there is room for it. -/
theorem move_cons_cases (menu : Option MenuBar) (line : List UInt8) :
    (∃ ending, (ending = .left ∨ ending = .invalidText) ∧
      ∀ room rest, move menu ⟨room, line :: rest⟩ = .stop ending) ∨
    (∃ call : Option MenuAction,
      ∀ room rest, move menu ⟨room, line :: rest⟩ = .go (call.map .call) ⟨room, rest⟩) ∨
    ∃ reply, (∀ room left rest, Room.take room = some left →
        move menu ⟨room, line :: rest⟩ = .go (some (.out reply)) ⟨left, rest⟩) ∧
      ∀ room rest, Room.take room = none → move menu ⟨room, line :: rest⟩ = .stop .outputClosed := by
  cases decoded : Utf8.decode? line with
  | none => exact .inl ⟨.invalidText, .inr rfl, fun room rest => by simp [move, decoded]⟩
  | some text =>
      cases reaction : react menu text with
      | ignore => exact .inr (.inl ⟨none, fun room rest => by simp [move, moveAt, decoded, reaction]⟩)
      | quit => exact .inl ⟨.left, .inl rfl, fun room rest => by simp [move, moveAt, decoded, reaction]⟩
      | activate action =>
          exact .inr (.inl ⟨some action, fun room rest => by simp [move, moveAt, decoded, reaction]⟩)
      | answer reply =>
          refine .inr (.inr ⟨reply, fun room left rest taken => ?_, fun room rest full => ?_⟩)
          · simp [move, moveAt, decoded, reaction, taken]
          · simp [move, moveAt, decoded, reaction, full]

variable {menu : Option MenuBar} {place next : Place}

theorem talk_of_stop {ending : TalkEnd} (h : place.move menu = .stop ending) :
    place.talk menu = { ending := ending } := by
  rw [talk_eq_talkOf_move, h, talkOf]

theorem talk_of_go {event : Option TalkEvent} (h : place.move menu = .go event next) :
    place.talk menu =
      { next.talk menu with events := event.toList ++ (next.talk menu).events } := by
  rw [talk_eq_talkOf_move, h, talkOf]

end Place

/-- The talk as an output with room for so many lines lets it be told: all of it, if it writes no more than that, or
else up to the line that is refused. -/
inductive IsToldWith (room : Nat) (whole : Talk) : Talk → Prop where
  | all (fits : lineCount whole.events ≤ room) : IsToldWith room whole whole
  | refused {told lost : List TalkEvent} {line : String} (split : whole.events = told ++ .out line :: lost)
      (full : lineCount told = room) : IsToldWith room whole ⟨told, .outputClosed⟩

section Told

variable {room : Nat} {whole part : Talk}

/-- Events in front of a talk are told first, and take their room. -/
theorem IsToldWith.precede (told : IsToldWith room whole part) (front : List TalkEvent) :
    IsToldWith (lineCount front + room) { whole with events := front ++ whole.events }
      { part with events := front ++ part.events } := by
  cases told with
  | all fits => exact .all (by simpa using fits)
  | @refused events lost line split full =>
      have later : front ++ whole.events = (front ++ events) ++ .out line :: lost := by simp [split]
      exact .refused later (by simp [full])

theorem IsToldWith.events_prefix (told : IsToldWith room whole part) : part.events <+: whole.events := by
  cases told with
  | all _ => exact List.prefix_refl _
  | refused split _ => exact split ▸ List.prefix_append _ _

theorem IsToldWith.lineCount_le (told : IsToldWith room whole part) : lineCount part.events ≤ room := by
  cases told with
  | all fits => exact fits
  | refused _ full => exact Nat.le_of_eq full

/-- No beginning of the whole that the output takes goes beyond what is told. -/
theorem IsToldWith.longest (told : IsToldWith room whole part) {events : List TalkEvent}
    (begins : events <+: whole.events) (fits : lineCount events ≤ room) : events <+: part.events := by
  cases told with
  | all _ => exact begins
  | @refused told lost line split full =>
      rw [split] at begins
      rcases List.prefix_or_prefix_of_prefix begins (List.prefix_append told _) with within | ⟨more, rfl⟩
      · exact within
      · rw [List.prefix_append_right_inj] at begins
        cases more with
        | nil => simp
        | cons event more =>
            -- The first event beyond what is told is the refused line itself.
            obtain ⟨rfl, _⟩ := List.cons_prefix_cons.mp begins
            simp only [lineCount_append, lineCount_out] at fits
            omega

theorem IsToldWith.of_lt (told : IsToldWith room whole part) (much : room < lineCount whole.events) :
    part.ending = .outputClosed ∧
      ∃ line lost, whole.events = part.events ++ .out line :: lost ∧ lineCount part.events = room := by
  cases told with
  | all fits => exact absurd much (Nat.not_lt.mpr fits)
  | refused split full => exact ⟨rfl, _, _, split, full⟩

theorem IsToldWith.of_le (told : IsToldWith room whole part) (little : lineCount whole.events ≤ room) :
    part = whole := by
  cases told with
  | all _ => rfl
  | refused split full =>
      rw [split, lineCount_append, lineCount_out] at little
      omega

end Told

/-- A talk is told as far as there is room. -/
theorem isToldWith_talk (menu : Option MenuBar) (room : Nat) (lines : List (List UInt8)) :
    IsToldWith room (Place.talk menu ⟨none, lines⟩) (Place.talk menu ⟨some room, lines⟩) := by
  -- By induction on the lines: a line takes the same turn for both outputs, unless it is a reply and the room is
  -- used up.
  induction lines generalizing room with
  | nil => exact .all (Nat.zero_le room)
  | cons line rest ih =>
      obtain ⟨ending, _, move⟩ | ⟨call, move⟩ | ⟨reply, move, full⟩ := Place.move_cons_cases menu line
      · rw [Place.talk_of_stop (move none rest), Place.talk_of_stop (move (some room) rest)]
        exact .all (Nat.zero_le room)
      · rw [Place.talk_of_go (move none rest), Place.talk_of_go (move (some room) rest)]
        have told := (ih room).precede (call.map TalkEvent.call).toList
        cases call with
        | none => simpa using told
        | some action => simpa using told
      · rw [Place.talk_of_go (move none none rest rfl)]
        cases room with
        | zero =>
            rw [Place.talk_of_stop (full (some 0) rest rfl)]
            exact .refused rfl rfl
        | succ room =>
            rw [Place.talk_of_go (move (some (room + 1)) (some room) rest rfl), Nat.add_comm]
            exact (ih room).precede [.out reply]

/-- An output without end closes no talk. -/
theorem ending_talk_ne_outputClosed (menu : Option MenuBar) (lines : List (List UInt8)) :
    (Place.talk menu ⟨none, lines⟩).ending ≠ .outputClosed := by
  induction lines with
  | nil => exact nofun
  | cons line rest ih =>
      obtain ⟨ending, either, move⟩ | ⟨call, move⟩ | ⟨reply, move, _⟩ := Place.move_cons_cases menu line
      · rw [Place.talk_of_stop (move none rest)]
        rcases either with rfl | rfl <;> exact nofun
      · rw [Place.talk_of_go (move none rest)]
        exact ih
      · rw [Place.talk_of_go (move none none rest rfl)]
        exact ih

/-- With room for so many lines, what shows of a talk is the longest beginning of the whole that writes no more. The
output closes exactly if the whole writes more, and then right in front of the first line too many; if it does not,
nothing is different. -/
theorem ofInput_told_with_room (menu : Option MenuBar) (room : Nat) (input : List UInt8) :
    let whole := ofInput menu none input
    let part := ofInput menu (some room) input
    (part.events <+: whole.events ∧ lineCount part.events ≤ room ∧
      ∀ events, events <+: whole.events → lineCount events ≤ room → events <+: part.events) ∧
    (part.ending = .outputClosed ↔ room < lineCount whole.events) ∧
    (room < lineCount whole.events →
      ∃ line lost, whole.events = part.events ++ .out line :: lost ∧ lineCount part.events = room) ∧
    (lineCount whole.events ≤ room → part = whole) := by
  intro whole part
  have told : IsToldWith room whole part := isToldWith_talk menu room (Lines.split input)
  refine ⟨⟨told.events_prefix, told.lineCount_le, fun events => told.longest⟩, ⟨?closed, ?much⟩,
    fun much => (told.of_lt much).2, told.of_le⟩
  case closed =>
    intro closed
    apply Nat.lt_of_not_le
    intro little
    rw [told.of_le little] at closed
    exact ending_talk_ne_outputClosed menu _ closed
  case much => exact fun much => (told.of_lt much).1

/-- With room for one reply the second one is refused, and the command behind it is lost; with room for two all is told
up to the line that is no UTF-8. -/
theorem ofInput_told_with_room_of_two_replies :
    let input := Utf8.encode "one\nR\ntwo\n0\n".toList ++ [0xFF, 0x0A] ++ Utf8.encode "r".toList
    let whole := ofInput (some .standard) none input
    let part := ofInput (some .standard) (some 1) input
    lineCount whole.events = 2 ∧ whole.ending = .invalidText ∧
      part.events = [.out "Unknown command: one\n", .call .reload] ∧ part.ending = .outputClosed ∧
      (∃ lost, whole.events = part.events ++ .out "Unknown command: two\n" :: lost) ∧
      ofInput (some .standard) (some 2) input = whole := by
  intro input whole part
  have written : whole = ⟨[.out "Unknown command: one\n", .call .reload, .out "Unknown command: two\n",
      .call .resetZoom], .invalidText⟩ := by decide
  have count : lineCount whole.events = 2 := by
    rw [written]
    rfl
  have told : part.events = [.out "Unknown command: one\n", .call .reload] := by decide
  obtain ⟨_, closed, much, _⟩ := ofInput_told_with_room (some .standard) 1 input
  obtain ⟨_, _, _, little⟩ := ofInput_told_with_room (some .standard) 2 input
  have more : 1 < lineCount whole.events := by omega
  obtain ⟨line, lost, split, _⟩ := much more
  have events : whole.events = part.events ++ .out line :: lost := split
  have reply : "Unknown command: two\n" = line := by
    rw [written, told] at events
    simp only [List.cons_append, List.nil_append, List.cons.injEq, TalkEvent.out.injEq] at events
    exact events.2.2.1
  exact ⟨count, by rw [written], told, closed.mpr more, ⟨lost, reply ▸ events⟩,
    little (Nat.le_of_eq count)⟩

end Talk

end GameClient
