import RegionApi.Text.Percent

/-!
# What each part of a URL keeps

A part of a URL keeps printable ASCII less the characters that would end it or that tools outside
are known to stumble on; everything else is percent-encoded. An escape that is already there is
kept, as the percent sign is.
-/

namespace RegionApi.Url.Escape

/-- A printable ASCII character, the space among them. -/
def printable (c : Char) : Bool := 0x20 ≤ c.toNat && c.toNat < 0x7f

/-- What a fragment keeps. -/
def fragment (c : Char) : Bool := printable c && !List.contains [' ', '"', '<', '>', '\x60'] c

/-- What a segment of a path keeps. -/
def path (c : Char) : Bool := fragment c && !List.contains ['#', '?', '\x7b', '\x7d'] c

/-- What a query keeps; in the schemes of the web it loses the apostrophe. -/
def query (special : Bool) (c : Char) : Bool :=
  printable c && !List.contains [' ', '"', '#', '<', '>'] c && !(special && c = '\x27')

/-- What a user name or a password keeps. -/
def userInfo (c : Char) : Bool :=
  path c && !List.contains ['/', ':', ';', '=', '@', '[', '\\', ']', '^', '|'] c

/-- A part encoded with the characters it keeps. -/
def text (keep : Char → Bool) (cs : List Char) : String :=
  String.ofList (Text.Percent.encodeChars keep cs)

end RegionApi.Url.Escape
