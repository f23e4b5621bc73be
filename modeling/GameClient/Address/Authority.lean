import GameClient.Text.Basic
/-!
The authority of an address: perhaps a user part before the last `@`, a host, and perhaps a port. A
port may be absent or empty, which is the same, and has at most 32 bits; its leading zeros are not
kept.
-/

namespace GameClient.Address

open Text

/-! ### The names of servers

A host is an address between brackets, four decimal numbers between dots, or labels between dots of which the
last begins with a letter; a label alone may begin with a digit, and a name may end with one dot more.
-/

namespace Host

/-- A character inside a label. -/
def isLabelChar (c : Char) : Bool :=
  c.isAlphanum || c == '-'

/-- Letters, digits and hyphens, with no hyphen at either end. -/
def isLabel (label : List Char) : Bool :=
  label.all isLabelChar && label.head?.any Char.isAlphanum && label.getLast?.any Char.isAlphanum

/-- One to three digits with a value of at most 255. -/
def isOctet (part : List Char) : Bool :=
  part.length ≤ 3 && (Numeral.read part).any (· ≤ 255)

/-- Four octets between dots. -/
def isDottedQuad (host : List Char) : Bool :=
  let parts := host.splitOn '.'
  parts.length == 4 && parts.all isOctet

/-- The labels of a name, without the empty one that a final dot would leave. -/
def labels (host : List Char) : List (List Char) :=
  (dropFinal '.' host).splitOn '.'

/-- The last of several labels begins with a letter. -/
def hasTopLabel (labels : List (List Char)) : Bool :=
  labels.length == 1 || labels.getLast?.any fun label => label.head?.any Char.isAlpha

/-- A name or a dotted quad that can name a server. -/
def isServerName (host : List Char) : Bool :=
  (labels host).all isLabel && (isDottedQuad host || hasTopLabel (labels host))

/-- A character between the brackets of an address of the longer kind. -/
def isBracketedChar (c : Char) : Bool :=
  c.isHexDigit || c == ':' || c == '.'

/-- What may stand between brackets: at least one character, and only fitting ones. -/
def isBracketedBody (body : List Char) : Bool :=
  body != [] && body.all isBracketedChar

end Host

/-! ### The authority -/

/-- Who is addressed. -/
structure Authority where
  userinfo : Option (List Char) := none
  host : List Char
  port : Option Nat := none
deriving Repr, DecidableEq

namespace Authority

/-- One more than the greatest port, which has 32 bits. -/
def portLimit : Nat :=
  0x100000000

/-- The port that a text gives: none if the text is empty, and the value of a numeral below the
limit. -/
def readPort (text : List Char) : Option (Option Nat) :=
  if text = [] then some none
  else
    match Numeral.read text with
    | some port => if port < portLimit then some (some port) else none
    | none => none

/-- The text after a bracketed host: nothing, or a colon and a port. -/
def portText : List Char → Option (List Char)
  | [] => some []
  | c :: rest => if c = ':' then some rest else none

/-- The host and the text of the port. After an opening bracket the host goes up to the first
closing one; otherwise the last colon, if any, ends it. -/
def splitHost : List Char → Option (List Char × List Char)
  | '[' :: inner =>
    match cutFirst ']' inner with
    | some (body, after) =>
      if Host.isBracketedBody body then
        (portText after).map fun port => ('[' :: body ++ [']'], port)
      else none
    | none => none
  | text =>
    let parts := (cutLast ':' text).getD (text, [])
    if Host.isServerName parts.1 then some parts else none

/-- The user part and the rest. -/
def splitUserinfo (text : List Char) : Option (List Char) × List Char :=
  match cutLast '@' text with
  | some (user, rest) => (some user, rest)
  | none => (none, text)

/-- The authority that a text gives, if it can name a server. -/
def read (text : List Char) : Option Authority :=
  let parts := splitUserinfo text
  match splitHost parts.2 with
  | none => none
  | some (host, portText) =>
    (readPort portText).map fun port => ⟨parts.1, host, port⟩

/-- The parts with their marks. -/
def text (authority : Authority) : List Char :=
  (match authority.userinfo with
    | none => []
    | some user => user ++ ['@']) ++
  authority.host ++
  (match authority.port with
    | none => []
    | some port => ':' :: Numeral.write port)

end Authority

end GameClient.Address
