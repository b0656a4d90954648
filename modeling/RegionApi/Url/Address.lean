import RegionApi.Text.Digits

/-!
# Internet addresses

Numeric hosts. An IPv4 address is read from one to four numbers, each decimal, octal behind a zero
or hexadecimal behind `0x`, the last filling all bytes that are left; an IPv6 address from groups of
hexadecimal digits, one stretch of zeros left out at a double colon, and perhaps an IPv4 address for
the last two groups. Both are written in one canonical way.
-/

namespace RegionApi

open Text (decimal hexadecimal readDigits?)

/-! ## IPv4 -/

/-- Four bytes, the most significant first. -/
structure Ipv4 where
  a : UInt8
  b : UInt8
  c : UInt8
  d : UInt8
deriving DecidableEq

namespace Ipv4

/-- The address that a number of 32 bits stands for. -/
def ofNat (n : Nat) : Ipv4 :=
  ⟨UInt8.ofNat (n / 0x1000000), UInt8.ofNat (n / 0x10000), UInt8.ofNat (n / 0x100), UInt8.ofNat n⟩

/-- The dotted form. -/
def text (x : Ipv4) : List Char :=
  decimal x.a.toNat ++ '.' :: (decimal x.b.toNat ++ '.' :: (decimal x.c.toNat ++ '.' ::
    decimal x.d.toNat))

/-- A number of a dotted form, in the base its first characters tell. -/
def number? : List Char → Option Nat
  | [] => none
  | ['0'] => some 0
  | '0' :: c :: cs => if c = 'x' ∨ c = 'X' then readDigits? 16 cs else readDigits? 8 (c :: cs)
  | cs => readDigits? 10 cs

/-- The parts between dots, without an empty one at the end. -/
def parts (cs : List Char) : List (List Char) :=
  let ps := List.splitOn '.' cs
  if ps.getLast? = some [] then ps.dropLast else ps

/-- Whether a host is to be read as an IPv4 address: its last part is a number or all digits. -/
def isMeant (cs : List Char) : Bool :=
  match (parts cs).getLast? with
  | none => false
  | some last => (!last.isEmpty && last.all Char.isDigit) || (number? last).isSome

/-- The address with the given numbers, the last one filling the bytes that are left. -/
def ofNumbers? (ns : List Nat) : Option Ipv4 :=
  match ns.reverse with
  | [] => none
  | last :: initial =>
    let room := Nat.pow 256 (4 - initial.length)
    if initial.length < 4 ∧ initial.all (· < 256) ∧ last < room then
      some (ofNat (ns.dropLast.foldl (fun n b => 256 * n + b) 0 * room + last))
    else none

/-- The address a host spells. -/
def read? (cs : List Char) : Option Ipv4 := ((parts cs).mapM number?).bind ofNumbers?

/-- A byte in decimal without leading zeros. -/
def strictByte? (cs : List Char) : Option Nat :=
  if cs = [] ∨ (cs.length > 1 ∧ cs.head? = some '0') then none
  else (readDigits? 10 cs).bind fun n => if n < 256 then some n else none

/-- The address that exactly four bytes in decimal spell. -/
def readStrict? (cs : List Char) : Option Ipv4 :=
  match (List.splitOn '.' cs).mapM strictByte? with
  | some [a, b, c, d] => some ⟨UInt8.ofNat a, UInt8.ofNat b, UInt8.ofNat c, UInt8.ofNat d⟩
  | _ => none

end Ipv4

/-! ## IPv6 -/

/-- Eight groups of sixteen bits. -/
structure Ipv6 where
  groups : List UInt16
  eight : groups.length = 8
deriving DecidableEq

namespace Ipv6

/-- A group in hexadecimal, letters in lower case, no leading zeros. -/
def groupText (g : UInt16) : List Char := hexadecimal g.toNat

/-- Groups with colons between them. -/
def joined (gs : List UInt16) : List Char := List.intercalate [':'] (gs.map groupText)

/-- Where the longest stretch of zero groups begins, and its length; the first of equally long
ones. -/
def zeros (gs : List UInt16) : Nat × Nat :=
  (List.range gs.length).foldl (fun best i =>
    let n := ((gs.drop i).takeWhile (· = 0)).length
    if best.2 < n then (i, n) else best) (0, 0)

/-- The canonical form: the longest stretch of at least two zero groups is left out. -/
def text (x : Ipv6) : List Char :=
  let (i, n) := zeros x.groups
  if n < 2 then joined x.groups
  else joined (x.groups.take i) ++ ':' :: ':' :: joined (x.groups.drop (i + n))

/-- One to four hexadecimal digits. -/
def group? (cs : List Char) : Option UInt16 :=
  if 1 ≤ cs.length ∧ cs.length ≤ 4 then (readDigits? 16 cs).map UInt16.ofNat else none

/-- The two groups of an IPv4 address. -/
def ofIpv4 (x : Ipv4) : List UInt16 :=
  [UInt16.ofNat (256 * x.a.toNat + x.b.toNat), UInt16.ofNat (256 * x.c.toNat + x.d.toNat)]

/-- The groups of a list of parts; the last part may be a dotted IPv4 address if `dotted` says so.
-/
def groups? (dotted : Bool) : List (List Char) → Option (List UInt16)
  | [] => some []
  | [p] =>
    if dotted && p.contains '.' then (Ipv4.readStrict? p).map ofIpv4
    else (group? p).map fun g => [g]
  | p :: ps => do some ((← group? p) :: (← groups? dotted ps))

/-- The groups on one side of the double colon. -/
def side? (dotted : Bool) (cs : List Char) : Option (List UInt16) :=
  if cs = [] then some [] else groups? dotted (List.splitOn ':' cs)

/-- What stands before and after the first double colon. -/
def splitDouble? : List Char → Option (List Char × List Char)
  | ':' :: ':' :: rest => some ([], rest)
  | c :: rest => (splitDouble? rest).map fun (before, after) => (c :: before, after)
  | [] => none

/-- The address of eight groups. -/
def ofGroups? (gs : List UInt16) : Option Ipv6 := if h : gs.length = 8 then some ⟨gs, h⟩ else none

/-- The address a text without brackets spells; a double colon stands for at least one group. -/
def read? (cs : List Char) : Option Ipv6 :=
  match splitDouble? cs with
  | none => (side? true cs).bind ofGroups?
  | some (before, after) => do
    let l ← side? false before
    let r ← side? true after
    if l.length + r.length < 8 then
      ofGroups? (l ++ List.replicate (8 - (l.length + r.length)) 0 ++ r)
    else none

end Ipv6

end RegionApi
