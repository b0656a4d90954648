import RegionApi.Url.Address
import RegionApi.Url.Escape
import RegionApi.Url.Fault
import RegionApi.Url.HostNames

/-!
# Hosts

A host is a name or a numeric address. In the schemes of the web a host is percent-decoded and
written in ASCII, names with forbidden characters are refused, and a host that ends in a number has
to be an IPv4 address. In other schemes a host is any text without reserved characters.
-/

namespace RegionApi.Url

/-- The host of a URL that names an authority. -/
inductive Host where
  /-- No host between the slashes, as in `file:///etc`. -/
  | empty
  | name (s : String)
  | v4 (x : Ipv4)
  | v6 (x : Ipv6)
deriving DecidableEq

namespace Host

/-- The host as it stands in a URL. -/
def text : Host → List Char
  | empty => []
  | name s => s.toList
  | v4 x => x.text
  | v6 x => '[' :: x.text ++ [']']

/-- The characters that no host name may hold: controls, the space and what delimits other parts. -/
def forbidden (c : Char) : Bool :=
  c.toNat ≤ 0x20 || 0x7f ≤ c.toNat || "%#/:<>?@[\\]^|".toList.contains c

/-- The characters that the host of a scheme without rules of its own may not hold. -/
def reserved (c : Char) : Bool :=
  ['\x00', '\t', '\n', '\r', ' '].contains c || "#/:<>?@[\\]^|".toList.contains c

/-- A host in brackets, without them. -/
def readBracketed (cs : List Char) : Except Fault Host :=
  if cs.getLast? = some ']' then
    match Ipv6.read? cs.dropLast with
    | some x => .ok (v6 x)
    | none => .error .badIpv6
  else .error .badIpv6

/-- A host name in ASCII, or an IPv4 address. -/
def readAscii (cs : List Char) : Except Fault Host :=
  if cs = [] then .error .emptyHost
  else if cs.any forbidden then .error .badName
  else if Ipv4.isMeant cs then
    match Ipv4.read? cs with
    | some x => .ok (v4 x)
    | none => .error .badIpv4
  else .ok (name (String.ofList cs))

/-- A host name of any alphabet, or an IPv4 address. -/
def readName [HostNames] (cs : List Char) : Except Fault Host :=
  match HostNames.toAscii? cs with
  | some ascii => readAscii ascii
  | none => .error .badName

/-- The host of a web scheme. -/
def read [HostNames] : List Char → Except Fault Host
  | '[' :: rest => readBracketed rest
  | cs =>
    match Text.ofUtf8? (Text.Percent.decodeChars cs) with
    | some s => readName s.toList
    | none => .error .badName

/-- The host of a scheme without rules of its own. -/
def readPlain : List Char → Except Fault Host
  | '[' :: rest => readBracketed rest
  | cs =>
    if cs.any reserved then .error .badCharacter
    else if cs = [] then .ok empty
    else .ok (name (Escape.text Escape.printable cs))

end Host

end RegionApi.Url
