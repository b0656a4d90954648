import RegionApi.Text.Bytes

/-!
# Host names of all alphabets

A host may be named in any alphabet, but a URL holds ASCII. Which ASCII a name stands for is laid
down in tables that are no part of this library, so the mapping is a parameter of everything that
reads URLs. Little has to be known about it: names of plain ASCII are put in lower case, and a name
that has been mapped stays as it is.
-/

namespace RegionApi

namespace Url

/-- Whether a label, the text behind a dot, claims to stand for one of another alphabet. -/
def hasEncodedLabel : List Char → Bool
  | [] => false
  | c :: cs => (c = '.' && "xn--".toList.isPrefixOf cs) || hasEncodedLabel cs

/-- Whether a host name is ASCII that stands for itself, whatever its case. -/
def isPlainHost (cs : List Char) : Bool :=
  cs.all (fun c => decide (c.toNat < 128)) && !hasEncodedLabel ('.' :: cs.map Char.toLower)

end Url

/-- How host names are written in ASCII. -/
class HostNames where
  /-- The ASCII name that a name stands for, if it stands for one. -/
  toAscii? : List Char → Option (List Char)
  /-- A plain name is put in lower case. -/
  toAscii?_of_isPlainHost : ∀ {cs}, Url.isPlainHost cs = true →
    toAscii? cs = some (cs.map Char.toLower)
  /-- A name that has been written in ASCII stands for itself. -/
  toAscii?_of_toAscii? : ∀ {cs name}, toAscii? cs = some name → toAscii? name = some name

namespace HostNames

theorem toLower_of_ascii {c : Char} (ascii : c.toNat < 128) :
    c.toLower.toNat < 128 ∧ c.toLower.toLower = c.toLower :=
  Text.of_toNat_lt ascii (by decide)

theorem map_toLower_of_isPlainHost {cs : List Char} (plain : Url.isPlainHost cs = true) :
    (cs.map Char.toLower).map Char.toLower = cs.map Char.toLower := by
  obtain ⟨ascii, -⟩ := Bool.and_eq_true_iff.mp plain
  rw [List.map_map]
  refine List.map_congr_left fun c hc => ?_
  exact (toLower_of_ascii (of_decide_eq_true (List.all_eq_true.mp ascii c hc))).2

theorem isPlainHost_map_toLower {cs : List Char} (plain : Url.isPlainHost cs = true) :
    Url.isPlainHost (cs.map Char.toLower) = true := by
  rw [Url.isPlainHost, map_toLower_of_isPlainHost plain]
  obtain ⟨ascii, labels⟩ := Bool.and_eq_true_iff.mp plain
  refine Bool.and_eq_true_iff.mpr ⟨List.all_eq_true.mpr fun c hc => ?_, labels⟩
  obtain ⟨d, hd, rfl⟩ := List.mem_map.mp hc
  exact decide_eq_true (toLower_of_ascii (of_decide_eq_true (List.all_eq_true.mp ascii d hd))).1

/-- The mapping that knows plain names only. -/
instance plain : HostNames where
  toAscii? cs := if Url.isPlainHost cs then some (cs.map Char.toLower) else none
  toAscii?_of_isPlainHost plain := if_pos plain
  toAscii?_of_toAscii? {cs name} mapped := by
    split at mapped
    · rename_i plain
      cases mapped
      rw [if_pos (isPlainHost_map_toLower plain), map_toLower_of_isPlainHost plain]
    · cases mapped

end HostNames

end RegionApi
