import RegionApi.Error

/-!
# Why a URL cannot be read
-/

namespace RegionApi.Url

/-- The reasons for which a text is no URL, or no reference for a given base. -/
inductive Fault where
  | emptyHost
  /-- A host name holds a character that no name may hold. -/
  | badName
  /-- The host of a scheme without rules of its own holds a reserved character. -/
  | badCharacter
  | badPort
  | badIpv4
  | badIpv6
  /-- A relative reference stands alone. -/
  | noBase
  /-- A relative reference meets a base whose path has no hierarchy. -/
  | flatBase
deriving DecidableEq, Repr

namespace Fault

/-- The text of a reason. -/
def message : Fault → String
  | emptyHost => "empty host"
  | badName => "invalid international domain name"
  | badCharacter => "invalid domain character"
  | badPort => "invalid port number"
  | badIpv4 => "invalid IPv4 address"
  | badIpv6 => "invalid IPv6 address"
  | noBase => "relative URL without a base"
  | flatBase => "relative URL with a cannot-be-a-base base"

/-- A reason as an error of the library, told without the text it is about. -/
def toError (f : Fault) : Error := .parse f.message

end Fault

end RegionApi.Url
