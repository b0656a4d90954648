import Mathlib.Data.List.Induction
import RegionApi.Proofs.Client.FirstRequest
import RegionApi.Proofs.Except
import RegionApi.Proofs.Json.Canonical
import RegionApi.Resource

/-!
# Addresses and fields

A resource keeps its address twice, beside its fields and in them. However a program goes from
resource to resource, both are the same in every resource it comes by, and the fields are those of
the object it was made of, with nothing added and nothing left out (`fields_tell_address`).
-/

namespace RegionApi.Resource

section Runs

variable [HostNames]

/-- The resource of a client that has these fields and the address they tell. -/
structure Holds (client : Client) (fields : List (String × Json)) (r : Resource) : Prop where
  client_eq : r.client = client
  fields_eq : r.fields = fields
  address : Json.find? addressField fields = some (.string r.address)

/-- The one field of a resource of which only the address is known. -/
def addressOnly (address : String) : List (String × Json) := [(addressField, .string address)]

omit [HostNames] in
theorem find?_addressOnly (address : String) :
    Json.find? addressField (addressOnly address) = some (.string address) := by
  simp [addressOnly, Json.find?]

omit [HostNames] in
theorem isCanonical_addressOnly (address : String) :
    (Json.object (addressOnly address)).IsCanonical := by
  refine .object (List.pairwise_singleton _ _) fun m hm => ?_
  rw [List.mem_singleton.mp hm]
  exact .string address

theorem ofFields_eq_ok_iff {client : Client} {fields : List (String × Json)} {r : Resource} :
    ofFields client fields = .ok r ↔ r.Holds client fields := by
  constructor
  · intro h
    obtain ⟨client, fields, address⟩ := ofFields_ok h
    exact ⟨client, fields, address⟩
  · rintro ⟨rfl, rfl, address⟩
    rw [ofFields, address]
    rfl

theorem holds_addressOnly_iff {client : Client} {address : String} {r : Resource} :
    r.Holds client (addressOnly address) ↔ r = ofAddress client address := by
  constructor
  · intro h
    obtain ⟨c, a, fs⟩ := r
    obtain ⟨rfl, rfl, told⟩ := h
    rw [find?_addressOnly] at told
    have same : address = a := Json.string.inj (Option.some.inj told)
    rw [same]
    rfl
  · rintro rfl
    exact ⟨rfl, rfl, find?_addressOnly address⟩

/-! ## Bodies -/

omit [HostNames] in
/-- An operation may answer with nothing at all, but then not with an object. -/
theorem decodeBody_eq_object_iff {body : Bytes} {fields : List (String × Json)} :
    decodeBody body = .ok (.object fields) ↔ Json.decode body = .ok (.object fields) := by
  unfold decodeBody
  split
  · rename_i empty
    subst empty
    constructor
    · intro h
      cases h
    · intro h
      cases h
  · rfl

/-- A body brings the resource of the object it is. -/
theorem decode_eq_ok_iff {r new : Resource} {body : Bytes} :
    r.decode body = .ok new ↔
      ∃ fields, Json.decode body = .ok (.object fields) ∧ new.Holds r.client fields := by
  constructor
  · intro h
    obtain ⟨v, read, h⟩ := bind_eq_ok.mp h
    cases v with
    | object fields => exact ⟨fields, decodeBody_eq_object_iff.mp read, ofFields_eq_ok_iff.mp h⟩
    | null | bool | number | string | array => cases h
  · rintro ⟨fields, read, holds⟩
    exact bind_eq_ok.mpr
      ⟨.object fields, decodeBody_eq_object_iff.mpr read, ofFields_eq_ok_iff.mpr holds⟩

theorem child_eq_ok_iff {r new : Resource} {name : String} :
    r.child name = .ok new ↔
      ∃ u v, r.url = .ok u ∧ u.join name = .ok v ∧
        new.Holds r.client (addressOnly v.asDirectory.text) := by
  constructor
  · intro h
    obtain ⟨u, url, h⟩ := bind_eq_ok.mp h
    cases joined : u.join name with
    | error f =>
        rw [joined] at h
        cases h
    | ok v =>
        rw [joined] at h
        cases h
        exact ⟨u, v, url, joined, holds_addressOnly_iff.mpr rfl⟩
  · rintro ⟨u, v, url, joined, holds⟩
    refine bind_eq_ok.mpr ⟨u, url, ?_⟩
    rw [joined, holds_addressOnly_iff.mp holds]
    rfl

/-! ## What can be done with a resource -/

/-- What can be done with a resource. Every call may find another network, and fields may be
those of any object. -/
inductive Action where
  | child (name : String)
  | ofFields (client : Client) (fields : List (String × Json))
      (canonical : (Json.object fields).IsCanonical)
  | fetch (net : Http.Network)
  | update (net : Http.Network) (form : Form)
  | callGet (net : Http.Network) (operation : String) (form : Form)
  | callPost (net : Http.Network) (operation : String) (form : Form)
  | delete (net : Http.Network)

namespace Action

/-- How it ends: with a resource, without one, or with an error. -/
def result (r : Resource) : Action → Except Error (Option Resource)
  | child name => (r.child name).map some
  | ofFields client fields _ => (Resource.ofFields client fields).map some
  | fetch net => (r.fetch net).result.map some
  | update net form => (r.update net form).result.map some
  | callGet net operation form => (r.callGet net operation form).result.map fun _ => none
  | callPost net operation form => (r.callPost net operation form).result.map fun _ => none
  | delete net => (r.delete net).result.map fun _ => none

/-- The client of the resource it ends with. -/
def client (r : Resource) : Action → Client
  | ofFields client _ _ => client
  | _ => r.client

/-- The fields of the resource it ends with. -/
def Brings (r : Resource) (fields : List (String × Json)) : Action → Prop
  | child name =>
      ∃ u v, r.url = .ok u ∧ u.join name = .ok v ∧ fields = addressOnly v.asDirectory.text
  | ofFields _ given _ => fields = given
  | fetch net =>
      ∃ body, (r.client.get net r.address "" .empty).result = .ok body ∧
        Json.decode body = .ok (.object fields)
  | update net form =>
      ∃ body, (r.client.put net r.address form).result = .ok body ∧
        Json.decode body = .ok (.object fields)
  | callGet _ _ _ | callPost _ _ _ | delete _ => False

/-- Whether a resource is what is made of another. -/
def Makes (r : Resource) (a : Action) (new : Resource) : Prop :=
  ∃ fields, a.Brings r fields ∧ new.Holds (a.client r) fields

/-- A call made into a resource. -/
theorem andThen_decode_eq_ok_iff {r new : Resource} {call : Call Bytes} :
    (call.andThen r.decode).result = .ok new ↔
      ∃ fields, (∃ body, call.result = .ok body ∧ Json.decode body = .ok (.object fields)) ∧
        new.Holds r.client fields := by
  rw [Call.result_andThen, bind_eq_ok]
  constructor
  · rintro ⟨body, brought, decoded⟩
    obtain ⟨fields, read, holds⟩ := decode_eq_ok_iff.mp decoded
    exact ⟨fields, ⟨body, brought, read⟩, holds⟩
  · rintro ⟨fields, ⟨body, brought, read⟩, holds⟩
    exact ⟨body, brought, decode_eq_ok_iff.mpr ⟨fields, read, holds⟩⟩

/-- A resource comes of what is done exactly if it is made by it. -/
theorem result_eq_ok_some_iff {r new : Resource} {a : Action} :
    a.result r = .ok (some new) ↔ a.Makes r new := by
  cases a with
  | child name =>
      refine map_some_eq_ok_some.trans (child_eq_ok_iff.trans ?_)
      constructor
      · rintro ⟨u, v, url, joined, holds⟩
        exact ⟨_, ⟨u, v, url, joined, rfl⟩, holds⟩
      · rintro ⟨_, ⟨u, v, url, joined, rfl⟩, holds⟩
        exact ⟨u, v, url, joined, holds⟩
  | ofFields client fields canonical =>
      refine map_some_eq_ok_some.trans (ofFields_eq_ok_iff.trans ?_)
      constructor
      · intro holds
        exact ⟨fields, rfl, holds⟩
      · rintro ⟨given, brings, holds⟩
        have same : given = fields := brings
        rwa [same] at holds
  | fetch net => exact map_some_eq_ok_some.trans andThen_decode_eq_ok_iff
  | update net form => exact map_some_eq_ok_some.trans andThen_decode_eq_ok_iff
  | callGet | callPost | delete =>
      refine ⟨fun h => absurd h (map_none_ne_ok_some _ new), ?_⟩
      rintro ⟨_, ⟨⟩, -⟩

/-- What is brought are the members of an object, in order and each name once. -/
theorem isCanonical_of_brings {r : Resource} {a : Action} {fields : List (String × Json)}
    (h : a.Brings r fields) : (Json.object fields).IsCanonical := by
  cases a with
  | child name =>
      obtain ⟨u, v, -, -, rfl⟩ := h
      exact isCanonical_addressOnly _
  | ofFields client given canonical =>
      cases h
      exact canonical
  | fetch net =>
      obtain ⟨body, -, read⟩ := h
      exact Json.isCanonical_of_decode read
  | update net form =>
      obtain ⟨body, -, read⟩ := h
      exact Json.isCanonical_of_decode read
  | callGet | callPost | delete => cases h

end Action

/-! ## Going from resource to resource -/

/-- Whether the fields of a resource tell the address that is kept beside them. -/
structure TellsAddress (r : Resource) : Prop where
  canonical : (Json.object r.fields).IsCanonical
  address : Json.find? addressField r.fields = some (.string r.address)

theorem Holds.tellsAddress {client : Client} {fields : List (String × Json)} {r : Resource}
    (h : r.Holds client fields) (canonical : (Json.object fields).IsCanonical) :
    r.TellsAddress := by
  obtain ⟨-, rfl, address⟩ := h
  exact ⟨canonical, address⟩

/-- How a resource is come by. -/
inductive Origin where
  | root
  | step (parent : Resource) (action : Action)

/-- Whether a resource is what its origin makes, for a program that starts with a client. -/
def Origin.Makes (c : Client) (r : Resource) : Origin → Prop
  | root => r.Holds c (addressOnly c.base.text)
  | step parent action => action.Makes parent r

theorem Origin.tellsAddress {c : Client} {r : Resource} {o : Origin} (h : o.Makes c r) :
    r.TellsAddress := by
  cases o with
  | root => exact h.tellsAddress (isCanonical_addressOnly _)
  | step parent action =>
      obtain ⟨fields, brings, holds⟩ := h
      exact holds.tellsAddress (Action.isCanonical_of_brings brings)

/-- A resource with its origin. -/
structure Found where
  resource : Resource
  origin : Origin

/-- One step of a program: something is done with one of the resources found so far. -/
structure Step where
  place : Nat
  action : Action

/-- What a step finds. -/
def Step.finds (s : Step) (found : List Found) : List Found :=
  match found[s.place]? with
  | none => []
  | some f =>
    match s.action.result f.resource with
    | .ok (some new) => [⟨new, .step f.resource s.action⟩]
    | _ => []

/-- All that is found in a number of steps, from the root of a client. -/
def run (c : Client) (steps : List Step) : List Found :=
  steps.foldl (fun found s => found ++ s.finds found) [⟨root c, .root⟩]

theorem run_append (c : Client) (steps : List Step) (s : Step) :
    run c (steps ++ [s]) = run c steps ++ s.finds (run c steps) := by
  rw [run, List.foldl_append]
  rfl

theorem Step.mem_finds_iff {s : Step} {found : List Found} {g : Found} :
    g ∈ s.finds found ↔
      ∃ f, found[s.place]? = some f ∧ s.action.Makes f.resource g.resource ∧
        g.origin = .step f.resource s.action := by
  constructor
  · intro h
    unfold finds at h
    split at h
    · cases h
    · rename_i f held
      split at h
      · rename_i new made
        rw [List.mem_singleton.mp h]
        exact ⟨f, held, Action.result_eq_ok_some_iff.mp made, rfl⟩
      · cases h
  · rintro ⟨f, held, makes, origin⟩
    obtain ⟨new, _⟩ := g
    cases origin
    rw [finds, held]
    simp only [Action.result_eq_ok_some_iff.mpr makes, List.mem_singleton]

/-- Every resource that is found is what its origin makes. -/
theorem makes_of_mem_run {c : Client} {steps : List Step} {f : Found} (h : f ∈ run c steps) :
    f.origin.Makes c f.resource := by
  -- A step adds to what was found before it, so the induction is from the last step.
  induction steps using List.reverseRecOn with
  | nil =>
      rw [List.mem_singleton.mp h]
      exact holds_addressOnly_iff.mpr rfl
  | append_singleton steps s ih =>
      rw [run_append] at h
      rcases List.mem_append.mp h with h | h
      · exact ih h
      · obtain ⟨parent, -, makes, origin⟩ := Step.mem_finds_iff.mp h
        rw [origin]
        exact makes

/-- In every resource that is found, the fields tell the address that is kept beside them, and they
are those which its origin brings: the address alone for the root and for a resource below another,
and else the fields that were given or that the body is read as. Whatever a step makes is found. -/
theorem fields_tell_address (c : Client) (steps : List Step) :
    (∀ f ∈ run c steps, f.resource.TellsAddress ∧ f.origin.Makes c f.resource) ∧
    ∀ s f new, (run c steps)[s.place]? = some f → s.action.Makes f.resource new →
      ⟨new, .step f.resource s.action⟩ ∈ run c (steps ++ [s]) := by
  constructor
  · intro f hf
    have makes := makes_of_mem_run hf
    exact ⟨Origin.tellsAddress makes, makes⟩
  · intro s f new held makes
    rw [run_append]
    exact List.mem_append_right _ (Step.mem_finds_iff.mpr ⟨f, held, makes, rfl⟩)

end Runs

/-- A name below the root is read, with a body that tells two addresses, and then changed, with an
empty body. -/
def visits : List Step :=
  [⟨0, .child "m"⟩,
    ⟨1, .fetch (.plain [.response ⟨200, [], Text.utf8
      "\x7b\"resource_uri\":1,\"power\":[],\"resource_uri\":\"m/2/\"\x7d"⟩ .complete])⟩,
    ⟨2, .update (.plain []) .empty⟩]

/-- The address is the last one the body tells, and what lies below is named from there. -/
theorem fields_tell_address_visits :
    ∃ f new, (run Client.loopback visits)[2]? = some f ∧ f.resource.address = "m/2/" ∧
      f.resource.TellsAddress ∧ (Action.child "op").Makes f.resource new ∧
      new.address = "http://localhost/m/2/op/" ∧
      ⟨new, .step f.resource (.child "op")⟩ ∈
        run Client.loopback (visits ++ [⟨2, .child "op"⟩]) := by
  have seen : ((run Client.loopback visits)[2]?.map fun f =>
      (f.resource.address, (f.resource.child "op").map Resource.address)) =
      some ("m/2/", .ok "http://localhost/m/2/op/") := by decide +kernel
  obtain ⟨f, held, seen⟩ := Option.map_eq_some_iff.mp seen
  obtain ⟨address, below⟩ := Prod.mk.inj seen
  obtain ⟨new, child, below⟩ := map_eq_ok.mp below
  have makes : (Action.child "op").Makes f.resource new :=
    Action.result_eq_ok_some_iff.mp (map_some_eq_ok_some.mpr child)
  obtain ⟨tells, finds⟩ := fields_tell_address Client.loopback visits
  exact ⟨f, new, held, address, (tells f (List.mem_of_getElem? held)).1, makes, below,
    finds ⟨2, .child "op"⟩ f new held makes⟩

end RegionApi.Resource
