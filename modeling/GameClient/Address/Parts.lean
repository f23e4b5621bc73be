/-!
The parts of any address, before they are checked: a scheme before the first `:`, an authority after `//`, and a
target, which is a path and then perhaps a query and a fragment. `split` finds them in every text, and `text`
puts them together again.
-/

namespace GameClient.Address

/-! ### The target

`split` cuts a text at its first `#` and, before that, at its first `?`.
-/

/-- The part of an address after its authority. -/
structure Target where
  path : List Char
  query : Option (List Char) := none
  fragment : Option (List Char) := none
deriving Repr, DecidableEq

namespace Target

/-- A character at which the path ends. -/
def endsPath (c : Char) : Bool :=
  c == '?' || c == '#'

/-- A part introduced by `mark`: the text after the mark, if the text starts with it. -/
def marked (mark : Char) : List Char → Option (List Char)
  | [] => none
  | c :: rest => if c = mark then some rest else none

/-- The text of a part introduced by `mark`. -/
def withMark (mark : Char) : Option (List Char) → List Char
  | none => []
  | some part => mark :: part

/-- The path goes up to the first `?` or `#`, the query up to the first `#`, the fragment after it. -/
def split (text : List Char) : Target :=
  let path := text.takeWhile fun c => !endsPath c
  let rest := text.dropWhile fun c => !endsPath c
  { path := path
    query := marked '?' (rest.takeWhile fun c => c != '#')
    fragment := marked '#' (rest.dropWhile fun c => c != '#') }

/-- The parts with their marks. -/
def text (target : Target) : List Char :=
  target.path ++ withMark '?' target.query ++ withMark '#' target.fragment

/-- A query may be empty, and a question mark in a fragment introduces none. -/
example : split ['/', '?', '#', 'b', '?'] = ⟨['/'], some [], some ['b', '?']⟩ := by decide

end Target

/-! ### All parts -/

/-- The unchecked parts of an address. -/
structure Parts where
  scheme : Option (List Char)
  authority : Option (List Char)
  target : Target
deriving Repr, DecidableEq

namespace Parts

/-- A character that cannot belong to a scheme. -/
def endsScheme (c : Char) : Bool :=
  c == ':' || c == '/' || c == '?' || c == '#'

/-- A character at which the authority ends. -/
def endsAuthority (c : Char) : Bool :=
  c == '/' || c == '?' || c == '#'

/-- The scheme and the text after its colon. There is one when the first character that cannot
belong to a scheme is a colon and something stands before it. -/
def splitScheme (text : List Char) : Option (List Char) × List Char :=
  match text.takeWhile (fun c => !endsScheme c), text.dropWhile (fun c => !endsScheme c) with
  | c :: name, ':' :: rest => (some (c :: name), rest)
  | _, _ => (none, text)

/-- The authority and the text after it. There is one when the text starts with two slashes. -/
def splitAuthority : List Char → Option (List Char) × List Char
  | '/' :: '/' :: rest =>
    (some (rest.takeWhile fun c => !endsAuthority c), rest.dropWhile fun c => !endsAuthority c)
  | text => (none, text)

/-- The parts of a text. -/
def split (text : List Char) : Parts :=
  let scheme := splitScheme text
  let authority := splitAuthority scheme.2
  ⟨scheme.1, authority.1, Target.split authority.2⟩

/-- The parts with their marks. -/
def text (parts : Parts) : List Char :=
  (match parts.scheme with
    | none => []
    | some name => name ++ [':']) ++
  (match parts.authority with
    | none => []
    | some authority => '/' :: '/' :: authority) ++
  parts.target.text

/-- A colon behind a slash ends no scheme. -/
example : (split ['a', '/', 'b', ':', 'c']).scheme = none := by decide

end Parts

end GameClient.Address
