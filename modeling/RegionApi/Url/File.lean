import RegionApi.Url.Reference

/-!
# File URLs

The scheme `file` always has an authority, mostly an empty one; the host `localhost` counts as none.
A path may begin with the name of a drive, which no reference leaves and which takes the place of a
host.
-/

namespace RegionApi.Url.File

variable [HostNames]

/-- A drive in its normal spelling. -/
def normalDrive (s : String) : String := String.ofList (s.toList.take 1 ++ [':'])

/-- Whether a reference begins with a drive as a whole segment. -/
def startsWithDrive (cs : List Char) : Bool :=
  Path.isDrive (String.ofList (cs.takeWhile fun c => !isSlash true c))

/-- The names of a path with a drive in front spelled normally. -/
def withDrive : List String → List String
  | [] => []
  | s :: rest => if Path.isDrive s then normalDrive s :: rest else s :: rest

/-- The names of a path without empty ones in front. -/
def trimmed (names : List String) : List String :=
  match names.dropWhile (· = "") with
  | [] => [""]
  | s :: rest => s :: rest

/-- The names reached from a directory along the names of a reference. A drive that the reference
puts in front is spelled normally; one that stands there already stays as it is. -/
def walk (directory reference : List String) : List String :=
  let reached := Path.walk directory.reverse reference
  if directory.head?.any Path.isDrive then reached else withDrive reached

/-- The names reached from a directory along a reference. -/
def names (directory : List String) (cs : List Char) : List String :=
  walk directory (Path.split true cs)

/-- A file URL of its host and the names of its path. -/
def url (host : Host) (path : List String) (query fragment : Option String) : Url :=
  { scheme := "file"
    authority := some ⟨"", none, host, none⟩
    path := .segments (trimmed path)
    query, fragment }

/-- The first name of a path. -/
def first (p : Path) : String :=
  match p with
  | .segments (s :: _) => s
  | _ => ""

/-- The names reached from a drive that ends a path without being all of it. The drive is not left,
and no slash comes behind it, so the reference goes on in the same name. -/
def beyondDrive (directory : List String) (drive : String) : List String → List String
  | [] => directory ++ [drive]
  | s :: rest =>
    if Path.isDotDot s && rest.isEmpty then directory ++ [drive]
    else if Path.isDotDot s || Path.isDot s then walk (directory ++ [drive]) rest
    else walk directory ((drive ++ s) :: rest)

/-- The names reached from a path along a relative reference, which takes the place of the last
name unless that is a drive. -/
def namesFrom (p : Path) (cs : List Char) : List String :=
  match p with
  | .flat _ => names [] cs
  | .segments ns =>
    let last := ns.getLast?.getD ""
    if !Path.isNormalDrive last then names ns.dropLast cs
    else if ns.length = 1 then names ns cs
    else beyondDrive ns.dropLast last (Path.split true cs)

/-- An absolute path: it stays on the drive of the base, or else on its host. -/
def fromRoot (base : Option Url) (host : Host) (cs : List Char) (query fragment : Option String) :
    Url :=
  let drive := first ((base.map (·.path)).getD (.segments []))
  if startsWithDrive cs || base.isNone then url .empty (names [] cs) query fragment
  else if Path.isNormalDrive drive then url .empty (names [drive] cs) query fragment
  else url host (names [] cs) query fragment

/-- A reference behind the scheme `file`, or one relative to a file URL. -/
def resolve (base : Option Url) (r : Reference) : Except Fault Url := do
  let query := r.queryText true
  let fragment := r.fragmentText
  let baseHost : Host := ((base.bind (·.authority)).map (·.host)).getD .empty
  match r.body with
  | [] =>
    match base with
    | some b => return { b with query := query.orElse fun _ => b.query, fragment }
    | none => return url .empty (names [] []) query fragment
  | c :: cs =>
    if isSlash true c then
      match cs with
      | d :: ds =>
        if isSlash true d then
          if startsWithDrive ds then
            return url .empty (names [] ds) query fragment
          else
            let hostText := ds.takeWhile fun x => !isSlash true x
            let host ← if hostText = [] then pure Host.empty else Host.read hostText
            let path := names [] ((ds.dropWhile fun x => !isSlash true x).drop 1)
            let dropped := host = .name "localhost" || Path.isDrive (path.head?.getD "")
            return url (if dropped then .empty else host) path query fragment
        else return fromRoot base baseHost cs query fragment
      | [] => return fromRoot base baseHost cs query fragment
    else
      match base with
      | some b =>
        if startsWithDrive (c :: cs) then
          return url .empty (names [] (c :: cs)) query fragment
        else return url baseHost (namesFrom b.path (c :: cs)) query fragment
      | none => return url .empty (names [] (c :: cs)) query fragment

end RegionApi.Url.File
