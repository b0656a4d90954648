import RegionApi.Url.File

/-!
# Resolving references

What a reference means against a base, by the rules of the web's URL standard. A reference with a
scheme of its own is absolute, except that a web scheme equal to the base's may be left standing
before a relative reference; one without is relative and inherits what it does not give.
-/

namespace RegionApi.Url

variable [HostNames]

/-- A reference whose authority begins a text. -/
def resolveAuthority (scheme : String) (r : Reference) (cs : List Char) : Except Fault Url := do
  let special := isSpecial scheme
  let (authority, rest) ← readAuthority scheme r.endsWithBody cs
  return { scheme
           authority := some authority
           path := pathAfterAuthority special rest
           query := r.queryText special
           fragment := r.fragmentText }

/-- A relative reference with a body: slashes begin an authority or a path from the root, anything
else a path from the directory of the base. -/
def resolveBody (base : Url) (r : Reference) (cs : List Char) : Except Fault Url :=
  let special := isSpecial base.scheme
  let slashes := cs.takeWhile (isSlash true)
  let reached (path : Path) : Url :=
    { base with path, query := r.queryText special, fragment := r.fragmentText }
  match slashes with
  | [] => .ok (reached (.along special base.path.directory cs))
  | [_] => .ok (reached (.along special [] (cs.drop 1)))
  | a :: b :: _ =>
    resolveAuthority base.scheme r
      (if a = '/' ∧ b = '/' then cs.drop 2 else cs.dropWhile (isSlash true))

/-- A reference relative to a base with a hierarchical path. -/
def resolveRelative (base : Url) (r : Reference) : Except Fault Url :=
  match r.body with
  | [] =>
    .ok { base with
          query := (r.queryText (isSpecial base.scheme)).orElse fun _ => base.query
          fragment := r.fragmentText }
  | c :: cs => resolveBody base r (c :: cs)

/-- A reference behind a scheme without rules of its own. -/
def resolvePlain (scheme : String) (r : Reference) : Except Fault Url :=
  let reached (path : Path) : Url :=
    { scheme, authority := none, path, query := r.queryText false, fragment := r.fragmentText }
  match r.body with
  | '/' :: '/' :: cs => resolveAuthority scheme r cs
  | '/' :: cs => .ok (reached (.along false [] cs))
  | cs => .ok (reached (.flat (Escape.text Escape.printable cs)))

/-- A reference behind its scheme. -/
def resolveScheme (base : Option Url) (scheme : String) (r : Reference) : Except Fault Url :=
  if scheme = "file" then
    File.resolve (base.filter fun b => b.scheme = "file") r
  else if isSpecial scheme then
    match base with
    | some b =>
      if b.scheme = scheme ∧ (r.body.takeWhile (isSlash true)).length < 2 then resolveRelative b r
      else resolveAuthority scheme r (r.body.dropWhile (isSlash true))
    | none => resolveAuthority scheme r (r.body.dropWhile (isSlash true))
  else resolvePlain scheme r

/-- A reference without a scheme: it needs a base, and unless it is a mere fragment the base needs a
hierarchical path. -/
def resolveWithoutScheme (base : Option Url) (cs : List Char) : Except Fault Url :=
  match base with
  | none => .error .noBase
  | some b =>
    let r := Reference.ofChars cs
    if cs.head? = some '#' then .ok { b with fragment := r.fragmentText }
    else if b.path.isFlat then .error .flatBase
    else if b.scheme = "file" then File.resolve base r
    else resolveRelative b r

/-- What a text means, perhaps against a base. -/
def resolve (base : Option Url) (s : String) : Except Fault Url :=
  match splitScheme? (cleaned s) with
  | some (scheme, rest) => resolveScheme base scheme (Reference.ofChars rest)
  | none => resolveWithoutScheme base (cleaned s)

/-- The URL a text is. -/
def parse (s : String) : Except Fault Url := resolve none s

/-- What a reference means against a base. -/
def join (base : Url) (s : String) : Except Fault Url := resolve (some base) s

end RegionApi.Url
