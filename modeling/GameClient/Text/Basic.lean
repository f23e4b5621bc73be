/-!
Texts: their white space, their comparison up to case, cutting them, printing them in columns and lines, and what
numerals and quoted texts look like. Where a text is taken apart it is a list of characters.
-/

namespace GameClient.Text

/-! ### White space

`isBlank` is the Unicode property `White_Space`; `trim` cuts blank characters from both ends of a text and
leaves those inside.
-/

/-- The code points with the property `White_Space`, as inclusive ranges in increasing order. -/
def blankRanges : List (Nat × Nat) :=
  [(0x09, 0x0D), (0x20, 0x20), (0x85, 0x85), (0xA0, 0xA0), (0x1680, 0x1680),
   (0x2000, 0x200A), (0x2028, 0x2029), (0x202F, 0x202F), (0x205F, 0x205F), (0x3000, 0x3000)]

/-- A character is blank when its code point lies in one of `blankRanges`. -/
def isBlank (c : Char) : Bool :=
  blankRanges.any fun range => range.1 ≤ c.toNat && c.toNat ≤ range.2

/-- The property has 25 code points. -/
example : (blankRanges.map fun range => range.2 + 1 - range.1).sum = 25 := by decide

example : isBlank '\u00a0' = true ∧ isBlank '\u200b' = false := by decide

/-- The text without the blank characters that it starts with. -/
def trimStart (text : List Char) : List Char :=
  text.dropWhile isBlank

/-- The text without the blank characters that it ends with. -/
def trimEnd (text : List Char) : List Char :=
  (text.reverse.dropWhile isBlank).reverse

/-- The text without the blank characters at its two ends. -/
def trim (text : List Char) : List Char :=
  trimEnd (trimStart text)

/-- A text is blank when all its characters are, the empty text included. -/
def allBlank (text : String) : Bool :=
  text.toList.all isBlank

/-! ### Case

Texts are compared up to the case of the ASCII letters. Letters outside ASCII are compared as they are: `É`
and `é` differ.
-/

/-- The text with its ASCII capitals made small. -/
def fold (text : List Char) : List Char :=
  text.map Char.toLower

/-- Two texts are equal up to case when they fold to the same text. -/
def equalFold (a b : List Char) : Bool :=
  fold a == fold b

/-! ### Cutting

A text is cut at one occurrence of a separator. The separator itself is dropped, so the two parts with the
separator between them are the text again.
-/

/-- The parts before and after the first `sep`, if there is one. -/
def cutFirst (sep : Char) : List Char → Option (List Char × List Char)
  | [] => none
  | c :: rest =>
    if c = sep then some ([], rest)
    else (cutFirst sep rest).map fun parts => (c :: parts.1, parts.2)

/-- The parts before and after the last `sep`, if there is one. -/
def cutLast (sep : Char) : List Char → Option (List Char × List Char)
  | [] => none
  | c :: rest =>
    match cutLast sep rest with
    | some parts => some (c :: parts.1, parts.2)
    | none => if c = sep then some ([], rest) else none

/-- The text without one final `sep`, if it ends with one. -/
def dropFinal (sep : Char) (text : List Char) : List Char :=
  if text.getLast? = some sep then text.dropLast else text

example : cutFirst '@' ['a', '@', 'b', '@', 'c'] = some (['a'], ['b', '@', 'c']) := by decide

example : cutLast '@' ['a', '@', 'b', '@', 'c'] = some (['a', '@', 'b'], ['c']) := by decide

/-! ### Printing -/

/-- The text with blanks after it up to the width. -/
def padRight (width : Nat) (text : String) : String :=
  text ++ String.ofList (List.replicate (width - text.length) ' ')

/-- The lines as one text, with an end of line after each. -/
def joinLines (lines : List String) : String :=
  String.join (lines.map (· ++ "\n"))

/-! ### Decimal numerals

Reading takes any number of ASCII digits, leading zeros included, and gives their value without a bound;
writing gives the numeral without leading zeros.
-/

namespace Numeral

/-- The value of one or more ASCII digits. -/
def read (text : List Char) : Option Nat :=
  if text ≠ [] ∧ text.all Char.isDigit then some (Nat.ofDigitChars 10 text 0) else none

/-- The decimal digits of a number, the first one not zero unless the number is. -/
def write (n : Nat) : List Char :=
  Nat.toDigits 10 n

example : read ['0', '0', '4', '2'] = some 42 := by decide

example : read ['4', '+'] = none := by decide

end Numeral

/-! ### Text between quotes

This is how JSON writes a text. A quote, a backslash and the control characters below U+0020 are escaped, five
of those by a letter and the others by their code in hexadecimal; every other character stands for itself, also
U+007F and all that lies beyond ASCII.
-/

namespace Quoted

/-- The written form of one character. -/
def escape (c : Char) : List Char :=
  if c = '"' then ['\\', '"']
  else if c = '\\' then ['\\', '\\']
  else if c = '\x08' then ['\\', 'b']
  else if c = '\x0c' then ['\\', 'f']
  else if c = '\n' then ['\\', 'n']
  else if c = '\r' then ['\\', 'r']
  else if c = '\t' then ['\\', 't']
  else if c.toNat < 0x20 then
    ['\\', 'u', '0', '0', Nat.digitChar (c.toNat / 16), Nat.digitChar (c.toNat % 16)]
  else [c]

/-- The written form of a text, without its quotes. -/
def encode (text : List Char) : List Char :=
  text.flatMap escape

/-- The written form of a text, between quotes. -/
def quote (text : String) : String :=
  String.ofList ('"' :: encode text.toList ++ ['"'])

example : escape '\x1f' = ['\\', 'u', '0', '0', '1', 'f'] := by decide

end Quoted

end GameClient.Text
