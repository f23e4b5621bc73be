/-!
Bytes that hold text: their lines, and the characters that they encode.
-/

namespace GameClient.Text

/-! ### Lines

A line ends at LF; one CR before the LF belongs to the line end, not to the line. A last line needs no LF, but
an empty one at the end of the stream does not count.
-/

namespace Lines

/-- The byte LF. -/
def lf : UInt8 := 0x0A

/-- The byte CR. -/
def cr : UInt8 := 0x0D

/-- Puts a byte in front of the first line, or makes it a line of its own. -/
def extend (b : UInt8) : List (List UInt8) → List (List UInt8)
  | [] => [[b]]
  | line :: lines => (b :: line) :: lines

/-- The lines of a stream, without their ends. -/
def split : List UInt8 → List (List UInt8)
  | [] => []
  | b :: rest =>
    if b = lf then [] :: split rest
    else if b = cr ∧ rest.head? = some lf then split rest
    else extend b (split rest)

example : split [0x61, 0x0D, 0x0A, 0x0A, 0x62] = [[0x61], [], [0x62]] := by decide

example : split [0x61, 0x0D, 0x0D, 0x0A] = [[0x61, 0x0D]] := by decide

end Lines

/-! ### UTF-8

`pieces` reads bytes as a sequence of well-formed characters and of invalid parts, each part as long as it can
be: one byte that starts nothing, or the bytes that begin a character up to the first one that cannot go on.
Strict decoding refuses a text with an invalid part; lossy decoding puts one U+FFFD in the place of each.
-/

namespace Utf8

/-- What the bytes hold at one place. -/
inductive Piece where
  /-- A well-formed character. -/
  | char (c : Char)
  /-- Bytes that form no character. -/
  | invalid
deriving Repr, DecidableEq

/-- A character that has begun: the bits of its code read so far, how many bytes are owed after the
next one, and the bounds between which the next one must lie. -/
structure Pending where
  code : Nat
  owed : Nat
  lo : UInt8
  hi : UInt8
deriving Repr, DecidableEq

/-- What the reader knows after a byte: a finished piece, or a character that has begun. -/
inductive Progress where
  | piece (p : Piece)
  | more (p : Pending)
deriving Repr, DecidableEq

/-- The byte lies between the two bounds, both included. -/
def between (lo hi b : UInt8) : Bool :=
  lo ≤ b && b ≤ hi

/-- Reads the first byte of a character. The second byte has narrower bounds after `E0` and `F0`,
where less would be too long a form of its code, after `ED`, where more would be a surrogate, and
after `F4`, where more would lie beyond U+10FFFF. -/
def start (b : UInt8) : Progress :=
  if b < 0x80 then .piece (.char (Char.ofNat b.toNat))
  else if between 0xC2 0xDF b then .more ⟨b.toNat % 32, 0, 0x80, 0xBF⟩
  else if b = 0xE0 then .more ⟨0, 1, 0xA0, 0xBF⟩
  else if b = 0xED then .more ⟨13, 1, 0x80, 0x9F⟩
  else if between 0xE1 0xEF b then .more ⟨b.toNat % 16, 1, 0x80, 0xBF⟩
  else if b = 0xF0 then .more ⟨0, 2, 0x90, 0xBF⟩
  else if b = 0xF4 then .more ⟨4, 2, 0x80, 0x8F⟩
  else if between 0xF1 0xF3 b then .more ⟨b.toNat % 8, 2, 0x80, 0xBF⟩
  else .piece .invalid

/-- The next byte can go on with the character. -/
def Pending.accepts (p : Pending) (b : UInt8) : Bool :=
  between p.lo p.hi b

/-- Adds the six low bits of a byte; the character is finished when no more bytes are owed. -/
def Pending.add (p : Pending) (b : UInt8) : Progress :=
  let code := p.code * 64 + b.toNat % 64
  match p.owed with
  | 0 => .piece (.char (Char.ofNat code))
  | owed + 1 => .more ⟨code, owed, 0x80, 0xBF⟩

/-- Reads the rest of the bytes, after the beginning of a character or between two of them. A byte
that cannot go on with the character ends an invalid part and is read again as a first byte. -/
def read : Option Pending → List UInt8 → List Piece
  | none, [] => []
  | some _, [] => [.invalid]
  | none, b :: rest =>
    match start b with
    | .piece p => p :: read none rest
    | .more p => read (some p) rest
  | some pending, b :: rest =>
    if pending.accepts b then
      match pending.add b with
      | .piece p => p :: read none rest
      | .more p => read (some p) rest
    else
      match start b with
      | .piece p => .invalid :: p :: read none rest
      | .more p => .invalid :: read (some p) rest

/-- The bytes as characters and invalid parts, in order. -/
def pieces (bytes : List UInt8) : List Piece :=
  read none bytes

/-- The character of a piece, if it is one. -/
def Piece.char? : Piece → Option Char
  | .char c => some c
  | .invalid => none

/-- The character of a piece, U+FFFD for an invalid part. -/
def Piece.orReplacement : Piece → Char
  | .char c => c
  | .invalid => '\ufffd'

/-- The text that the bytes encode, if all of them are well formed. -/
def decode? (bytes : List UInt8) : Option (List Char) :=
  (pieces bytes).mapM Piece.char?

/-- The text that the bytes encode, with one U+FFFD for each invalid part. -/
def decodeLossy (bytes : List UInt8) : List Char :=
  (pieces bytes).map Piece.orReplacement

/-- The bytes of a text. -/
def encode (text : List Char) : List UInt8 :=
  text.flatMap String.utf8EncodeChar

/-- A character of three bytes that stops after two is one invalid part. -/
example : pieces [0x61, 0xE2, 0x82, 0x62] = [.char 'a', .invalid, .char 'b'] := by decide

/-- The three bytes of a surrogate are three invalid parts. -/
example : pieces [0xED, 0xA0, 0x80] = [.invalid, .invalid, .invalid] := by decide

example : pieces [0xF0, 0x9F, 0x98, 0x80] = [.char '😀'] := by decide

end Utf8

end GameClient.Text
