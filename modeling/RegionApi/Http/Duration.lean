import RegionApi.Text.Digits

/-!
# Lengths of time
-/

namespace RegionApi

/-- A length of time, exact to the nanosecond. -/
structure Duration where
  nanos : Nat
deriving DecidableEq

namespace Duration

/-- A number of seconds. -/
def ofSeconds (n : Nat) : Duration := ⟨n * 1000000000⟩

/-- A number of milliseconds. -/
def ofMillis (n : Nat) : Duration := ⟨n * 1000000⟩

/-- The whole seconds. -/
def seconds (d : Duration) : Nat := d.nanos / 1000000000

/-- The nanoseconds beyond the whole seconds. -/
def subsecond (d : Duration) : Nat := d.nanos % 1000000000

/-- A whole number and a fraction of some places, zeros at the end left out. -/
def fixed (whole fraction places : Nat) : String :=
  let digits := Text.decimal fraction
  let padded := List.replicate (places - digits.length) '0' ++ digits
  let shown := (padded.reverse.dropWhile (· = '0')).reverse
  String.ofList (Text.decimal whole ++ if shown = [] then [] else '.' :: shown)

/-- A length of time as diagnostics show it: in the largest unit that it fills. -/
def describe (d : Duration) : String :=
  let n := d.nanos
  if 1000000000 ≤ n then fixed (n / 1000000000) (n % 1000000000) 9 ++ "s"
  else if 1000000 ≤ n then fixed (n / 1000000) (n % 1000000) 6 ++ "ms"
  else if 1000 ≤ n then fixed (n / 1000) (n % 1000) 3 ++ "µs"
  else String.ofList (Text.decimal n) ++ "ns"

end Duration

end RegionApi
