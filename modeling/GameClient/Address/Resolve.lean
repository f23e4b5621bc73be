import GameClient.Address.Basic
/-!
From what the user gives to addresses: the normal form of the address of a server, and the address of the page at
a path of it.
-/

namespace GameClient.Address

open Text

/-! ### The normal form of a server address

White space around it is dropped, `http://` is put in front of an address without `://`, and one slash at the end
of a path longer than `/` is dropped. All else stays as it was given, but a port loses its leading zeros.
-/

/-- The text holds `://`. -/
def hasSchemeMark : List Char → Bool
  | ':' :: '/' :: '/' :: _ => true
  | _ :: rest => hasSchemeMark rest
  | [] => false

/-- The text with a scheme: `http` if it names none. -/
def withScheme (text : List Char) : List Char :=
  if hasSchemeMark text then text else Scheme.http.text ++ [':', '/', '/'] ++ text

/-- The path without its last slash, unless that is all there is. -/
def dropSlash (path : List Char) : List Char :=
  if 1 < path.length then dropFinal '/' path else path

/-- The address without the last slash of its path. -/
def trimPath (address : Address) : Address :=
  { address with target := { address.target with path := dropSlash address.target.path } }

/-- The normal form of a server address that the user gave. -/
def normalize (given : String) : Except AddressError Address :=
  match trim given.toList with
  | [] => .error .blank
  | c :: rest =>
    match read (withScheme (c :: rest)) with
    | .error fault => .error (fault.report given)
    | .ok address => .ok address.trimPath

/-! ### Paths without dot segments

In a path that starts with a slash, the segment `.` stands for the place that it is at and `..` for the one above;
nothing lies above the root. A path that ends with either of them names a directory, so its resolved form ends
with a slash.
-/

/-- Takes one segment into the segments kept so far, the latest one first. -/
def keepSegment (kept : List (List Char)) (segment : List Char) : List (List Char) :=
  if segment = ['.'] then kept
  else if segment = ['.', '.'] then kept.tail
  else segment :: kept

/-- The segment stands for a place and not for a name. -/
def isDotSegment (segment : List Char) : Bool :=
  segment == ['.'] || segment == ['.', '.']

/-- The segments, each after a slash. -/
def joinSegments (segments : List (List Char)) : List Char :=
  segments.flatMap fun segment => '/' :: segment

/-- The path with its dot segments resolved. -/
def removeDotSegments (path : List Char) : List Char :=
  let segments := (path.splitOn '/').tail
  let kept := (segments.foldl keepSegment []).reverse
  if kept = [] ∨ segments.getLast?.any isDotSegment then joinSegments kept ++ ['/']
  else joinSegments kept

example : removeDotSegments ['/', 'a', '/', '.', '.', '/', 'b', '/', '.'] = ['/', 'b', '/'] := by
  decide

/-! ### The page that is shown

The path of the page is a reference from the root of its server, so it takes the place of everything that the
server address has after its authority.
-/

/-- The path as a reference from the root: `/` if it is blank, otherwise trimmed and with a slash in
front. -/
def rootReference (path : List Char) : List Char :=
  match trim path with
  | [] => ['/']
  | c :: rest => if c = '/' then c :: rest else '/' :: c :: rest

/-- The target that a reference names. -/
def resolveTarget (reference : List Char) : Target :=
  let target := Target.split reference
  { target with path := removeDotSegments target.path }

/-- The address of the page at a path of a server. The server address must be complete; a path with
an illegal character is reported as it was given. -/
def page (server path : String) : Except AddressError Address :=
  match read (trim server.toList) with
  | .error fault => .error (fault.report server)
  | .ok base =>
    let reference := rootReference path.toList
    if isLegal reference then .ok { base with target := resolveTarget reference }
    else .error (.malformed path)

end GameClient.Address
