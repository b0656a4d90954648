import RegionApi.Text.Pem

/-!
# Certificates

A certificate to trust is read from an armoured file. Only its outline is looked at: what it holds
is a sequence of elements, each a tag, a length and a content, and a certificate is a sequence of
the part that is signed, the algorithm and the signature.
-/

namespace RegionApi.Certificate

/-- A tag and a content. -/
structure Element where
  tag : UInt8
  content : Bytes
deriving DecidableEq

/-- The tag of a sequence. -/
def sequence : UInt8 := 0x30

/-- The tag of an integer. -/
def integer : UInt8 := 0x02

/-- The tag of a string of bits. -/
def bits : UInt8 := 0x03

/-- The number that bytes spell, the greatest first. -/
def number (bytes : Bytes) : Nat := bytes.foldl (fun n b => 256 * n + b.toNat) 0

/-- A length: one byte below 128, or the number of bytes that spell it. -/
def length? : Bytes → Option (Nat × Bytes)
  | [] => none
  | b :: rest =>
    if b < 0x80 then some (b.toNat, rest)
    else
      let count := b.toNat - 0x80
      if count = 0 || 4 < count || rest.length < count then none
      else some (number (rest.take count), rest.drop count)

/-- The element at the beginning of some bytes. -/
def element? : Bytes → Option (Element × Bytes)
  | [] => none
  | tag :: rest => do
    let (n, rest) ← length? rest
    if rest.length < n then none else some (⟨tag, rest.take n⟩, rest.drop n)

/-- The elements that some bytes are, at most as many as are asked for. -/
def elements? : Nat → Bytes → Option (List Element)
  | _, [] => some []
  | 0, _ :: _ => none
  | n + 1, b :: bytes => do
    let (e, rest) ← element? (b :: bytes)
    return e :: (← elements? n rest)

/-- The parts of an element. -/
def parts? (e : Element) : Option (List Element) := elements? e.content.length e.content

/-- Whether elements are the signed part of a certificate: perhaps a version, then number,
algorithm, issuer, validity, subject and key, then perhaps extensions. -/
def isSigned (es : List Element) : Bool :=
  let tags := es.map (·.tag)
  let tags := if tags.head? = some 0xA0 then tags.drop 1 else tags
  [integer, sequence, sequence, sequence, sequence, sequence].isPrefixOf tags &&
    (tags.drop 6).all fun t => [0x81, 0x82, 0xA1, 0xA2, 0xA3].contains t

/-- Whether some bytes are a certificate. -/
def isOutlined (bytes : Bytes) : Bool :=
  match element? bytes with
  | none => false
  | some (e, _) =>
    e.tag = sequence &&
      match parts? e with
      | some [signed, algorithm, signature] =>
        signed.tag = sequence && algorithm.tag = sequence && signature.tag = bits &&
          (parts? signed).any isSigned
      | _ => false

/-- Whether a file holds a certificate. -/
def isIn (file : Bytes) : Bool :=
  (Text.Pem.find? ["CERTIFICATE", "X509 CERTIFICATE", "TRUSTED CERTIFICATE"] file).any isOutlined

end RegionApi.Certificate
