import GameClient.Console.Talk
/-!
A talk, one line at a time. `Place.move` says what the next line leads to: the end of the talk, or a place
further on and perhaps an event. A talk is what its moves lead to, one after the other.
-/

namespace GameClient

open Text

/-- The action that an event calls, if it calls one. -/
def TalkEvent.call? : TalkEvent → Option MenuAction
  | .call action => some action
  | .out _ => none

/-- The line that an event writes, if it writes one. -/
def TalkEvent.line? : TalkEvent → Option String
  | .call _ => none
  | .out line => some line

namespace Talk

/-- Where a talk is: how much room the output has, and the lines that have not been read. -/
structure Place where
  room : Room
  lines : List (List UInt8)
deriving Repr, DecidableEq

/-- What the next line leads to. -/
inductive Move where
  /-- The talk is over. -/
  | stop (ending : TalkEnd)
  /-- The talk goes on; something may have shown of the line. -/
  | go (event : Option TalkEvent) (next : Place)
deriving Repr, DecidableEq

namespace Place

/-- The place at which the talk about an input begins. -/
def ofInput (room : Room) (input : List UInt8) : Place :=
  ⟨room, Lines.split input⟩

/-- What a line leads to, given the lines behind it. -/
def moveAt (menu : Option MenuBar) (room : Room) (line : List Char) (rest : List (List UInt8)) :
    Move :=
  match react menu line with
  | .ignore => .go none ⟨room, rest⟩
  | .quit => .stop .left
  | .activate action => .go (some (.call action)) ⟨room, rest⟩
  | .answer reply =>
    match Room.take room with
    | none => .stop .outputClosed
    | some room => .go (some (.out reply)) ⟨room, rest⟩

/-- What the next line leads to. -/
def move (menu : Option MenuBar) : Place → Move
  | ⟨_, []⟩ => .stop .exhausted
  | ⟨room, bytes :: rest⟩ =>
    match Utf8.decode? bytes with
    | none => .stop .invalidText
    | some line => moveAt menu room line rest

/-- The talk from a place on. -/
def talk (menu : Option MenuBar) (place : Place) : Talk :=
  ofLines menu place.room place.lines

/-- The talk that a move begins. -/
def talkOf (menu : Option MenuBar) : Move → Talk
  | .stop ending => { ending := ending }
  | .go event next => { next.talk menu with events := event.toList ++ (next.talk menu).events }

/-- A talk is what its next move leads to. -/
theorem talk_eq_talkOf_move (menu : Option MenuBar) (place : Place) :
    place.talk menu = talkOf menu (place.move menu) := by
  obtain ⟨room, lines⟩ := place
  cases lines with
  | nil => rfl
  | cons bytes rest =>
      cases decoded : Utf8.decode? bytes with
      | none => simp [talk, ofLines, move, talkOf, decoded]
      | some line =>
          cases reaction : react menu line with
          | ignore => simp [talk, ofLines, move, moveAt, talkOf, decoded, reaction]
          | quit => simp [talk, ofLines, move, moveAt, talkOf, decoded, reaction]
          | activate action =>
              simp [talk, ofLines, move, moveAt, talkOf, precede, decoded, reaction]
          | answer reply =>
              cases taken : Room.take room with
              | none => simp [talk, ofLines, move, moveAt, talkOf, decoded, reaction, taken]
              | some left =>
                  simp [talk, ofLines, move, moveAt, talkOf, precede, decoded, reaction, taken]

/-- The actions that are called from a place on. -/
def calls (menu : Option MenuBar) (place : Place) : List MenuAction :=
  (place.talk menu).calls

variable {menu : Option MenuBar} {place next : Place}

theorem calls_of_stop {ending : TalkEnd} (h : place.move menu = .stop ending) :
    place.calls menu = [] := by
  rw [calls, talk_eq_talkOf_move, h]
  rfl

theorem calls_of_go {event : Option TalkEvent} (h : place.move menu = .go event next) :
    place.calls menu = (event.bind TalkEvent.call?).toList ++ next.calls menu := by
  rw [calls, talk_eq_talkOf_move, h]
  cases event with
  | none => rfl
  | some event => cases event <;> rfl

theorem written_of_stop {ending : TalkEnd} (h : place.move menu = .stop ending) :
    (place.talk menu).written = "" := by
  rw [talk_eq_talkOf_move, h]
  rfl

theorem written_of_go {event : Option TalkEvent} (h : place.move menu = .go event next) :
    (place.talk menu).written =
      String.join (event.bind TalkEvent.line?).toList ++ (next.talk menu).written := by
  rw [talk_eq_talkOf_move, h]
  cases event with
  | none => simp [talkOf, written]
  | some event => cases event <;> simp [talkOf, written, TalkEvent.line?, String.join_cons]

theorem lines_of_moveAt {room : Room} {line : List Char} {rest : List (List UInt8)}
    {event : Option TalkEvent} (h : moveAt menu room line rest = .go event next) :
    next.lines = rest := by
  unfold moveAt at h
  cases reaction : react menu line with
  | ignore =>
      simp only [reaction, Move.go.injEq] at h
      rw [← h.2]
  | quit => simp [reaction] at h
  | activate action =>
      simp only [reaction, Move.go.injEq] at h
      rw [← h.2]
  | answer reply =>
      cases taken : Room.take room with
      | none => simp [reaction, taken] at h
      | some left =>
          simp only [reaction, taken, Move.go.injEq] at h
          rw [← h.2]

/-- Going on takes a line away. -/
theorem length_lines_of_go {event : Option TalkEvent} (h : place.move menu = .go event next) :
    place.lines.length = next.lines.length + 1 := by
  obtain ⟨room, lines⟩ := place
  cases lines with
  | nil => simp [move] at h
  | cons bytes rest =>
      cases decoded : Utf8.decode? bytes with
      | none => simp [move, decoded] at h
      | some line =>
          have left : next.lines = rest := lines_of_moveAt (by simpa [move, decoded] using h)
          rw [left, List.length_cons]

end Place

end Talk

end GameClient
