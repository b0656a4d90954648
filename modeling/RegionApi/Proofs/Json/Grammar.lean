import RegionApi.Json.Parser

/-!
# JSON texts

What a JSON text is, and which value it is a text of. A text is made of bytes. Its tokens are ASCII,
except that the characters of strings may stand for themselves in UTF-8, and spaces may stand before
every token and at the end. How deep brackets may be is part of the grammar, as a text whose
brackets are deeper is refused.
-/

namespace RegionApi.Json

open Text (ascii)

/-! ## Strings -/

namespace Literal

/-- Whether some bytes are the four hexadecimal digits of a UTF-16 unit. -/
structure IsUnit (ds : Bytes) (n : Nat) : Prop where
  four : ds.length = 4
  spelled : Text.readDigits? 16 (ds.map fun d => Char.ofNat d.toNat) = some n

/-- The letters that may stand behind a backslash, and what they stand for. -/
def shortEscapes : List (Char × Char) :=
  [('\x22', '\x22'), ('\\', '\\'), ('/', '/'), ('b', '\x08'), ('f', '\x0c'), ('n', '\n'),
    ('r', '\r'), ('t', '\t')]

/-- Whether some bytes are a character in UTF-16 units, each of which but the first stands behind
an escape of its own. -/
inductive IsInUnits : Bytes → Char → Prop
  /-- A unit that is no surrogate. -/
  | single {ds : Bytes} {c : Char} (digits : IsUnit ds c.toNat) : IsInUnits ds c
  /-- A pair of surrogates. -/
  | paired {ds es : Bytes} {n m : Nat} {c : Char} (first : IsUnit ds n) (second : IsUnit es m)
      (leading : 0xD800 ≤ n ∧ n < 0xDC00) (trailing : 0xDC00 ≤ m ∧ m < 0xE000)
      (meant : c.toNat = 0x10000 + (n - 0xD800) * 0x400 + (m - 0xDC00)) :
      IsInUnits (ds ++ ascii '\\' :: ascii 'u' :: es) c

/-- Whether some bytes are what stands behind the backslash of an escape. -/
inductive IsEscape : Bytes → Char → Prop
  | short {letter c : Char} (listed : (letter, c) ∈ shortEscapes) : IsEscape [ascii letter] c
  | units {s : Bytes} {c : Char} (units : IsInUnits s c) : IsEscape (ascii 'u' :: s) c

/-- Whether some bytes are one character of a string. -/
inductive Spells : Bytes → Char → Prop
  | plain {c : Char} (shown : 0x20 ≤ c.toNat) (quote : c ≠ '\x22') (backslash : c ≠ '\\') :
      Spells (String.utf8EncodeChar c) c
  | escaped {s : Bytes} {c : Char} (escape : IsEscape s c) : Spells (ascii '\\' :: s) c

/-- Whether some bytes are characters of a string. -/
inductive SpellsAll : Bytes → List Char → Prop
  | nil : SpellsAll [] []
  | cons {s t : Bytes} {c : Char} {cs : List Char} (first : Spells s c) (others : SpellsAll t cs) :
      SpellsAll (s ++ t) (c :: cs)

/-- Whether some bytes are a string between its quotes. -/
def IsString (s : Bytes) (text : String) : Prop :=
  ∃ inner, s = ascii '\x22' :: (inner ++ [ascii '\x22']) ∧ SpellsAll inner text.toList

end Literal

/-! ## Numbers -/

namespace Numeral

/-- A numeral in its parts: the digits of a whole number, of a fraction, and of an exponent. What is
not there has no digits. -/
structure Parts where
  negative : Bool
  whole : Bytes
  fraction : Bytes
  exponentNegative : Bool
  exponent : Bytes

/-- Whether some bytes are digits, at least one. -/
structure AreDigits (ds : Bytes) : Prop where
  nonempty : ds ≠ []
  each : ∀ d ∈ ds, isDigit d = true

/-- Whether some bytes are the digits of a whole number: none but zero begins with a zero. -/
structure IsWhole (ds : Bytes) : Prop where
  digits : AreDigits ds
  zero : ds.head? = some (ascii '0') → ds = [ascii '0']

/-- Whether some bytes are a fraction of these digits, or nothing. -/
inductive IsFraction : Bytes → Bytes → Prop
  | none : IsFraction [] []
  | some {ds : Bytes} (digits : AreDigits ds) : IsFraction (ascii '.' :: ds) ds

/-- Whether some bytes are digits behind a sign, if there is one. -/
inductive IsSigned : Bytes → Bool → Bytes → Prop
  | unsigned {ds : Bytes} (digits : AreDigits ds) : IsSigned ds false ds
  | plus {ds : Bytes} (digits : AreDigits ds) : IsSigned (ascii '+' :: ds) false ds
  | minus {ds : Bytes} (digits : AreDigits ds) : IsSigned (ascii '-' :: ds) true ds

/-- Whether some bytes are an exponent of this sign and these digits, or nothing. -/
inductive IsExponent : Bytes → Bool → Bytes → Prop
  | none : IsExponent [] false []
  | some {mark : UInt8} {s ds : Bytes} {negative : Bool}
      (marked : mark = ascii 'e' ∨ mark = ascii 'E') (signed : IsSigned s negative ds) :
      IsExponent (mark :: s) negative ds

/-- Whether some bytes are a numeral of these parts, without a sign before it. -/
structure IsUnsigned (s : Bytes) (p : Parts) : Prop where
  whole : IsWhole p.whole
  text : ∃ f e, s = p.whole ++ f ++ e ∧ IsFraction f p.fraction ∧
    IsExponent e p.exponentNegative p.exponent

/-- Whether some bytes are a numeral of these parts. -/
def IsNumeral (s : Bytes) (p : Parts) : Prop :=
  ∃ t, s = (if p.negative then [ascii '-'] else []) ++ t ∧ IsUnsigned t p

/-- The number that digits make when they are put behind those of another. -/
def valueFrom (start : Nat) (ds : Bytes) : Nat := ds.foldl (fun n d => 10 * n + digitValue d) start

/-- Whether as many digits are put behind a number as make one below a limit, and which are left. -/
structure IsCut (limit start : Nat) (ds : Bytes) (n : Nat) (left : Bytes) : Prop where
  taken : ∃ taken, ds = taken ++ left ∧ n = valueFrom start taken
  below : n < limit
  most : ∀ d ∈ left.head?, limit ≤ 10 * n + digitValue d

/-- The exponent of a numeral as a number. -/
def Parts.power (p : Parts) : Int :=
  if p.exponentNegative then -(value p.exponent : Int) else value p.exponent

/-- Whether a numeral stands for a number. A whole number below the limit for words is kept as it is
if it can be. In all other numerals the first digits count, as many as make a number below that
limit, every further digit of the whole number counts as a place, and what they say is rounded. -/
inductive Parts.Means (p : Parts) : Number → Prop
  | whole {x : Number} (fraction : p.fraction = []) (exponent : p.exponent = [])
      (below : value p.whole < wordLimit)
      (meant : Number.ofInteger? p.negative (value p.whole) = some x) : Means p x
  | scaled {start n : Nat} {places unused : Bytes} {x : Binary64}
      (other : p.fraction ≠ [] ∨ p.exponent ≠ [] ∨ wordLimit ≤ value p.whole)
      (first : IsCut wordLimit 0 p.whole start places)
      (further : IsCut wordLimit start p.fraction n unused)
      (bounded : n = 0 ∨ p.exponentNegative = true ∨ value p.exponent < exponentLimit)
      (meant : Number.ofScientific? p.negative n
        (places.length - (p.fraction.length - unused.length) + p.power) = some x) :
      Means p (.float x)

end Numeral

/-! ## Lists -/

/-- Whether some bytes are spaces. -/
def AreSpaces (s : Bytes) : Prop := ∀ b ∈ s, isSpace b = true

section Lists

variable {α : Type} (part : Bytes → α → Prop)

/-- Whether some bytes are spaces and then something. -/
inductive Spaced : Bytes → α → Prop
  | mk {spaces s : Bytes} {a : α} (are : AreSpaces spaces) (h : part s a) : Spaced (spaces ++ s) a

/-- Whether some bytes are a list of things, each behind a comma. -/
inductive Further : Bytes → List α → Prop
  | nil : Further [] []
  | cons {spaces s t : Bytes} {a : α} {as : List α} (are : AreSpaces spaces) (first : part s a)
      (others : Further t as) : Further (spaces ++ ascii ',' :: (s ++ t)) (a :: as)

/-- Whether some bytes are a list of things with commas between them. -/
inductive Listed : Bytes → List α → Prop
  | nil : Listed [] []
  | cons {s t : Bytes} {a : α} {as : List α} (first : part s a) (others : Further part t as) :
      Listed (s ++ t) (a :: as)

end Lists

/-! ## Values -/

/-- Whether some bytes are a value without brackets. -/
inductive IsScalar : Bytes → Json → Prop
  | null : IsScalar (Text.utf8 "null") null
  | yes : IsScalar (Text.utf8 "true") (bool true)
  | no : IsScalar (Text.utf8 "false") (bool false)
  | string {s : Bytes} {text : String} (spelled : Literal.IsString s text) :
      IsScalar s (string text)
  | number {s : Bytes} {p : Numeral.Parts} {x : Number} (spelled : Numeral.IsNumeral s p)
      (means : p.Means x) : IsScalar s (number x)

/-- Whether some bytes are a member of an object: a name, a colon and a value. -/
inductive IsMember (inner : Bytes → Json → Prop) : Bytes → String × Json → Prop
  | mk {s spaces t : Bytes} {name : String} {v : Json} (named : Literal.IsString s name)
      (are : AreSpaces spaces) (value : Spaced inner t v) :
      IsMember inner (s ++ (spaces ++ ascii ':' :: t)) (name, v)

/-- Whether some bytes are an array or an object of given values. An object has the members that are
listed, in order of their names, and of several with one name the last. -/
inductive IsBracketed (inner : Bytes → Json → Prop) : Bytes → Json → Prop
  | array {s spaces : Bytes} {items : List Json} (listed : Listed (Spaced inner) s items)
      (are : AreSpaces spaces) :
      IsBracketed inner (ascii '[' :: (s ++ (spaces ++ [ascii ']']))) (array items)
  | object {s spaces : Bytes} {members fields : List (String × Json)}
      (listed : Listed (Spaced (IsMember inner)) s members) (are : AreSpaces spaces)
      (order : Ascending fields)
      (last : ∀ name, find? name fields = find? name members.reverse) :
      IsBracketed inner (ascii '\x7b' :: (s ++ (spaces ++ [ascii '\x7d']))) (object fields)

/-- Whether some bytes are a value whose brackets are at most some levels deep. -/
def Spells : Nat → Bytes → Json → Prop
  | 0, s, v => IsScalar s v
  | depth + 1, s, v => IsScalar s v ∨ IsBracketed (Spells depth) s v

/-- Whether some bytes are a text of one value and nothing else, spaces apart. Brackets may be 127
levels deep. -/
def IsText (text : Bytes) (v : Json) : Prop :=
  ∃ s spaces, text = s ++ spaces ∧ Spaced (Spells 127) s v ∧ AreSpaces spaces

end RegionApi.Json
