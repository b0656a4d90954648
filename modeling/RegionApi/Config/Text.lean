import RegionApi.Config.Draft
import RegionApi.Json.Printer

/-!
# Configurations as text

The written form of a configuration is a JSON object. The API key is never written, and a
certificate that is not there is left out.
-/

namespace RegionApi.Config

/-- The members that are written, in the order in which they are written. -/
def members (c : Config) : List (Field × Json) :=
  [(.url, .string c.url), (.verifyTls, .bool c.verifyTls)] ++
    (c.caCertificate.map fun path => (Field.caCertificate, Json.string path)).toList ++
    [(.timeout, .number (.integer (.ofUInt64 c.timeoutSeconds)))]

/-- The written form. -/
def text (c : Config) : String := Json.text (.object (c.members.map fun m => (m.1.name, m.2)))

/-- The written form does not depend on the API key. -/
theorem text_withApiKey (c : Config) (key : String) : (c.withApiKey key).text = c.text := rfl

end RegionApi.Config
