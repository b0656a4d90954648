import RegionApi.Text.Base64

/-!
# Armoured blocks

Binary data travels in a text file as Base64 between two lines that name what it is. Anything may
stand around a block; a block without its end, or with the end of another one, ends the reading.
-/

namespace RegionApi.Text.Pem

/-- The lines of a file, without spaces at their ends. -/
def lines (file : Bytes) : List (List Char) :=
  (List.splitOn '\n' (file.map fun b => Char.ofNat b.toNat)).map
    fun l => (l.reverse.dropWhile (· ≤ ' ')).reverse

/-- The name in a line that begins or ends a block. -/
def label? (opening : String) (line : List Char) : Option (List Char) :=
  let closing := ['-', '-', '-', '-', '-']
  if opening.toList.isPrefixOf line && closing.isSuffixOf (line.drop opening.length) then
    some ((line.drop opening.length).dropLast.dropLast.dropLast.dropLast.dropLast)
  else none

/-- The name in a line that begins a block. -/
def beginning? : List Char → Option (List Char) := label? "-----BEGIN "

/-- The name in a line that ends a block. -/
def ending? : List Char → Option (List Char) := label? "-----END "

/-- The names of the blocks in some lines, each with its Base64 text; within a block its name and
what has been read of it are at hand. -/
def armoured : Option (List Char × List Char) → List (List Char) → List (List Char × List Char)
  | _, [] => []
  | none, l :: ls => armoured ((beginning? l).map fun label => (label, [])) ls
  | some (label, body), l :: ls =>
    match ending? l with
    | none => armoured (some (label, body ++ l)) ls
    | some other => if other = label then (label, body) :: armoured none ls else []

/-- The data of the first block of a file that has one of some names. -/
def find? (labels : List String) (file : Bytes) : Option Bytes := do
  let block ← (armoured none (lines file)).find? fun b => labels.contains (String.ofList b.1)
  Base64.decodeChars? block.2

end RegionApi.Text.Pem
