import RegionApi.Url.Escape

/-!
# Paths

A path is a list of segments, each behind a slash, or a flat text without hierarchy, as in
`mailto:someone`. Walking along a reference, a segment `.` stays where it is and a segment `..` goes
up, also when the dots are percent-encoded; nothing goes up from the root.
-/

namespace RegionApi.Url

/-- The path of a URL. -/
inductive Path where
  | flat (s : String)
  | segments (names : List String)
deriving DecidableEq

namespace Path

/-- The path as it stands in a URL. -/
def text : Path → List Char
  | flat s => s.toList
  | segments names => names.flatMap fun n => '/' :: n.toList

/-- Whether there is no hierarchy to resolve a reference in. -/
def isFlat : Path → Bool
  | flat _ => true
  | segments _ => false

/-- The segments that a relative reference starts from: all but the last. -/
def directory : Path → List String
  | flat _ => []
  | segments names => names.dropLast

/-! ## Dot segments -/

/-- A segment that stays. -/
def isDot (s : String) : Bool := [".", "%2e", "%2E"].contains s

/-- A segment that goes up. -/
def isDotDot (s : String) : Bool :=
  ["..", ".%2e", ".%2E", "%2e.", "%2E.", "%2e%2e", "%2e%2E", "%2E%2e", "%2E%2E"].contains s

/-- A letter and a colon or bar: the name of a drive. Where a backslash is no slash it may follow.
-/
def isDrive (s : String) : Bool :=
  match s.toList with
  | a :: b :: rest => a.isAlpha && (b = ':' || b = '|') && (rest = [] || rest.head? = some '\\')
  | _ => false

/-- A drive in its normal spelling, with a colon. -/
def isNormalDrive (s : String) : Bool :=
  match s.toList with
  | [a, b] => a.isAlpha && b = ':'
  | _ => false

/-- One segment up, the innermost first; a drive is not left. -/
def up : List String → List String
  | [] => []
  | d :: ds => if isDrive d then d :: ds else ds

/-- From some open segments, innermost first, along the segments of a reference. What the walk ends
in is a directory if the last segment is a dot segment. -/
def walk (inner : List String) : List String → List String
  | [] => (("" : String) :: inner).reverse
  | [s] =>
    if isDotDot s then ("" :: up inner).reverse
    else if isDot s then ("" :: inner).reverse
    else (s :: inner).reverse
  | s :: rest =>
    if isDotDot s then walk (up inner) rest
    else if isDot s then walk inner rest
    else walk (s :: inner) rest

/-- The segments between slashes, encoded; in the schemes of the web a backslash is a slash. -/
def split (special : Bool) (cs : List Char) : List String :=
  (List.splitOnP (fun c => c = '/' || (special && c = '\\')) cs).map (Escape.text Escape.path)

/-- A path from some directory along a reference. -/
def along (special : Bool) (directory : List String) (cs : List Char) : Path :=
  segments (walk directory.reverse (split special cs))

/-- The path with a slash at its end. -/
def closed : Path → Path
  | flat s =>
    if s = "" then flat "%2F" else if s.toList.getLast? = some '/' then flat s else flat (s ++ "/")
  | segments names => if names.getLast? = some "" then segments names else segments (names ++ [""])

end Path

end RegionApi.Url
