import RegionApi.Json.Basic

/-!
# Compact text

A value in as few characters as JSON allows: no spaces between tokens, and in strings only what has
to be escaped, by the short escape where there is one.
-/

namespace RegionApi.Json

/-- One character of a string. -/
def escaped (c : Char) : List Char :=
  if c = '\x22' then ['\\', '\x22']
  else if c = '\\' then ['\\', '\\']
  else if c = '\x08' then ['\\', 'b']
  else if c = '\x0c' then ['\\', 'f']
  else if c = '\n' then ['\\', 'n']
  else if c = '\r' then ['\\', 'r']
  else if c = '\t' then ['\\', 't']
  else if c.toNat < 0x20 then
    let digits := Text.hexadecimal c.toNat
    ['\\', 'u'] ++ List.replicate (4 - digits.length) '0' ++ digits
  else [c]

/-- A string between its quotes. -/
def stringChars (s : String) : List Char :=
  '\x22' :: s.toList.flatMap escaped ++ ['\x22']

/-- The word for a truth value. -/
def boolChars (b : Bool) : List Char :=
  if b then ['t', 'r', 'u', 'e'] else ['f', 'a', 'l', 's', 'e']

mutual

/-- The characters of a value. -/
def chars : Json → List Char
  | null => ['n', 'u', 'l', 'l']
  | bool b => boolChars b
  | number n => n.chars
  | string s => stringChars s
  | array [] => ['[', ']']
  | array (v :: vs) => '[' :: chars v ++ furtherItems vs ++ [']']
  | object [] => ['\x7b', '\x7d']
  | object ((name, v) :: ms) =>
    '\x7b' :: stringChars name ++ ':' :: chars v ++ furtherMembers ms ++ ['\x7d']

/-- Items behind the first, each behind a comma. -/
def furtherItems : List Json → List Char
  | [] => []
  | v :: vs => ',' :: chars v ++ furtherItems vs

/-- Members behind the first, each behind a comma. -/
def furtherMembers : List (String × Json) → List Char
  | [] => []
  | (name, v) :: ms => ',' :: stringChars name ++ ':' :: chars v ++ furtherMembers ms

end

/-- The text of a value. -/
def text (v : Json) : String := String.ofList v.chars

end RegionApi.Json
