import GameClient.Address.Authority
import GameClient.Address.Parts
/-!
Addresses of servers and of their pages. An address has a scheme, an authority and a target; `read`
takes a text apart and checks each part, `text` prints the address. Faults are looked for in a fixed
order: the form of the text, then the scheme, then the authority.
-/

namespace GameClient

/-! ### Why an address is refused -/

/-- A reason to refuse a server address. -/
inductive AddressError where
  /-- Nothing was given but white space. -/
  | blank
  /-- The text is no address at all; it is kept as it was given. -/
  | malformed (input : String)
  /-- The scheme is neither `http` nor `https`. -/
  | unknownScheme
  /-- No server can be named by what stands in the place of the host and the port. -/
  | noHost
deriving Repr, DecidableEq

/-- The text shown to the user. -/
def AddressError.message : AddressError → String
  | .blank => "Server URL is required"
  | .malformed input => "Invalid server URL: " ++ input
  | .unknownScheme => "Server URL must start with http:// or https://"
  | .noHost => "Server URL must include a host"

/-! ### Legal characters

Whatever its parts are, the text of an address consists of letters and digits, of a fixed set of punctuation, of
escapes `%` with two hexadecimal digits, and of characters beyond ASCII that are neither control characters nor
white space.
-/

namespace Address

open Text

/-- The punctuation that may stand in an address. The percent sign is not among it. -/
def punctuation : List Char :=
  ['-', '.', '_', '~', ':', '/', '?', '#', '[', ']', '@', '!', '$', '&', '\x27', '(', ')', '*',
   '+', ',', ';', '=']

/-- A character beyond ASCII that may stand in an address. The control characters beyond ASCII are
those below U+00A0. -/
def isForeign (c : Char) : Bool :=
  0xA0 ≤ c.toNat && !isBlank c

/-- A character that may stand in an address whatever follows it. -/
def isPlain (c : Char) : Bool :=
  c.isAlphanum || punctuation.contains c || isForeign c

/-- The text begins with the two hexadecimal digits of an escape. -/
def startsWithHexPair : List Char → Bool
  | a :: b :: _ => a.isHexDigit && b.isHexDigit
  | _ => false

/-- Every character may stand where it does: a percent sign before two hexadecimal digits, another
character if it is plain. -/
def isLegal : List Char → Bool
  | [] => true
  | c :: rest => (if c = '%' then startsWithHexPair rest else isPlain c) && isLegal rest

example : isLegal ['%', '4', 'f'] = true ∧ isLegal ['%', '4'] = false := by decide

end Address

/-! ### Schemes and addresses -/

/-- The schemes that can be opened. -/
inductive Scheme where
  | http
  | https
deriving Repr, DecidableEq

namespace Scheme

/-- The scheme as it is written. -/
def text : Scheme → List Char
  | .http => ['h', 't', 't', 'p']
  | .https => ['h', 't', 't', 'p', 's']

/-- The scheme with exactly this name; capitals make another name. -/
def ofText? (name : List Char) : Option Scheme :=
  if name = Scheme.http.text then some .http
  else if name = Scheme.https.text then some .https
  else none

/-- A character after the first letter of the name of a scheme. -/
def isNameChar (c : Char) : Bool :=
  c.isAlphanum || c == '+' || c == '.' || c == '-'

/-- A letter, then letters, digits, `+`, `.` and `-`. -/
def isName : List Char → Bool
  | [] => false
  | c :: rest => c.isAlpha && rest.all isNameChar

end Scheme

/-- A checked address. -/
structure Address where
  scheme : Scheme
  authority : Address.Authority
  target : Address.Target
deriving Repr, DecidableEq

namespace Address

/-- What is wrong with a text that is no address of a server. -/
inductive Fault where
  | malformed
  | unknownScheme
  | noHost
deriving Repr, DecidableEq

/-- The error that the user gets, given the text that the user gave. -/
def Fault.report (given : String) : Fault → AddressError
  | .malformed => .malformed given
  | .unknownScheme => .unknownScheme
  | .noHost => .noHost

/-- The text holds a bracket. -/
def hasBracket (text : List Char) : Bool :=
  text.contains '[' || text.contains ']'

/-- The fault of a text that is no authority. Brackets belong to a bracketed host and to nothing
else, so a text with one is malformed; without any, it only fails to name a server. -/
def authorityFault (authority : List Char) : Fault :=
  if hasBracket authority then .malformed else .noHost

/-- The text has the form of an address: it does not start with a colon, and its characters are
legal. -/
def isWellSpelled (text : List Char) : Bool :=
  text.head? != some ':' && isLegal text

/-- Checks the parts of a well-spelled text. A missing authority counts as an empty one. -/
def ofParts (parts : Parts) : Except Fault Address :=
  match parts.scheme with
  | none => .error .unknownScheme
  | some name =>
    if Scheme.isName name then
      match Scheme.ofText? name with
      | none => .error .unknownScheme
      | some scheme =>
        let authority := parts.authority.getD []
        match Authority.read authority with
        | none => .error (authorityFault authority)
        | some authority => .ok ⟨scheme, authority, parts.target⟩
    else .error .malformed

/-- Reads an address. -/
def read (text : List Char) : Except Fault Address :=
  if isWellSpelled text then ofParts (Parts.split text) else .error .malformed

/-- The address as it is written. -/
def text (address : Address) : List Char :=
  address.scheme.text ++ [':', '/', '/'] ++ address.authority.text ++ address.target.text

/-- The address as a string. -/
protected def toString (address : Address) : String :=
  String.ofList address.text

end Address

end GameClient
