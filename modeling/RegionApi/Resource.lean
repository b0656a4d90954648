import RegionApi.Client
import RegionApi.Json.Parser
import RegionApi.Json.Printer

/-!
# Resources

A resource is a JSON object of the server that tells its own address in the field `resource_uri`.
Held together with the client that brought it, it can be read again, changed, removed and asked for
its operations, and the resources below it can be reached by their names.
-/

namespace RegionApi

variable [HostNames]

/-- A resource: the client to reach it by, its address as the server tells it, and its fields. -/
structure Resource where
  client : Client
  address : String
  fields : List (String × Json)

namespace Resource

/-- The field in which a resource tells its address. -/
def addressField : String := "resource_uri"

/-- The resource of an address of which nothing else is known. -/
def ofAddress (client : Client) (address : String) : Resource :=
  ⟨client, address, [(addressField, .string address)]⟩

/-- The resource at the base address of a client. -/
def root (client : Client) : Resource := ofAddress client client.base.text

/-- What a caller is told about an object that does not tell its address. -/
def noAddress : Error :=
  .decode ("MAAS object has no string " ++ Json.accented addressField.toList ++ " field")

/-- The resource with the fields of an object, if they tell its address. -/
def ofFields (client : Client) (fields : List (String × Json)) : Except Error Resource :=
  match (Json.find? addressField fields).bind Json.text? with
  | some address => .ok ⟨client, address, fields⟩
  | none => .error noAddress

/-- The URL of a resource. -/
def url (r : Resource) : Except Error Url := r.client.locate r.address

/-- A resource below another, which is named relative to it. Its address always ends in a slash. -/
def child (r : Resource) (name : String) : Except Error Resource := do
  let url ← r.url
  match url.join name with
  | .ok u => return ofAddress r.client u.asDirectory.text
  | .error f => .error f.toError

/-! ## Calls -/

/-- The value in a body; operations may answer with nothing at all. -/
def decodeBody (body : Bytes) : Except Error Json :=
  if body = [] then .ok .null else Json.decode body

/-- The resource in a body. -/
def decode (r : Resource) (body : Bytes) : Except Error Resource := do
  match ← decodeBody body with
  | .object fields => ofFields r.client fields
  | other =>
    .error (.decode ("expected a JSON object for " ++ Json.accented r.address.toList ++
      ", got " ++ other.text))

/-- Reads the resource again. -/
def fetch (r : Resource) (net : Http.Network) : Call Resource :=
  (r.client.get net r.address "" .empty).andThen r.decode

/-- Changes the resource. -/
def update (r : Resource) (net : Http.Network) (form : Form) : Call Resource :=
  (r.client.put net r.address form).andThen r.decode

/-- Removes the resource. -/
def delete (r : Resource) (net : Http.Network) : Call Unit := r.client.delete net r.address

/-- Reads by an operation of the resource. -/
def callGet (r : Resource) (net : Http.Network) (operation : String) (form : Form) : Call Json :=
  (r.client.get net r.address operation form).andThen decodeBody

/-- Invokes an operation of the resource. -/
def callPost (r : Resource) (net : Http.Network) (operation : String) (form : Form) : Call Json :=
  (r.client.post net r.address operation form).andThen decodeBody

/-! ## Address and fields -/

/-- A resource made of fields has these fields, and its address is the one they tell. -/
theorem ofFields_ok {client : Client} {fields : List (String × Json)} {r : Resource}
    (h : ofFields client fields = .ok r) :
    r.client = client ∧ r.fields = fields ∧
      Json.find? addressField fields = some (.string r.address) := by
  unfold ofFields at h
  split at h
  · rename_i address found
    cases h
    refine ⟨rfl, rfl, ?_⟩
    cases value : Json.find? addressField fields with
    | none => simp [value] at found
    | some v =>
        cases v <;> simp_all [Json.text?]
  · cases h

end Resource

end RegionApi
