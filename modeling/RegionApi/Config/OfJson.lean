import RegionApi.Config.Draft

/-!
# Configurations from JSON values

A configuration is an object of its members, other members being passed over, or a list of their
values in order.
-/

namespace RegionApi.Config

open Json (Mismatch)

/-- A draft with the members of an object. -/
def readMembers (d : Draft) : List (String × Json) → Except Mismatch Draft
  | [] => .ok d
  | (name, v) :: ms =>
    match Field.ofName? name with
    | none => readMembers d ms
    | some f =>
      if d.has f then .error (.repeatedField f.name)
      else do readMembers (← d.put f v.shape) ms

/-- A draft with the values of a list, and the values left over. -/
def readItems (d : Draft) : List Field → List Json → Except Mismatch (Draft × List Json)
  | [], vs => .ok (d, vs)
  | f :: fs, [] =>
    match Draft.absent f with
    | some m => .error m
    | none => readItems d fs []
  | f :: fs, v :: vs => do readItems (← d.put f v.shape) fs vs

/-- The configuration that a value is. -/
def ofJson (v : Json) : Except Mismatch Config :=
  match v with
  | .object ms => do (← readMembers .empty ms).finish
  | .array vs => do
    let (d, surplus) ← readItems .empty Field.all vs
    let c ← d.finish
    if surplus = [] then .ok c else .error (.wrongLength vs.length "fewer elements in array")
  | _ => .error (.wrongType v.shape Draft.expectation)

end RegionApi.Config
