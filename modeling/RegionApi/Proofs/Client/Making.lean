import RegionApi.Config.Check
import RegionApi.Proofs.Client.Secrecy
import RegionApi.Proofs.OAuth.Key

/-!
# Ways to an authenticated client

A client for an API key is made at once, step by step, or from a configuration. All ways make the
same choices for an address that can be read and a key that is well formed, so they end in the same
client, and none of them ends in one otherwise (`waysAgree`). Only what is told of two faults
differs: made at once, a client is refused for its key, and else for its address.
-/

namespace RegionApi

/-- Whether a text is an absolute URL. -/
def Url.IsAddress [HostNames] (s : String) : Prop := ∃ u, parse s = .ok u

namespace Client

/-! ## Choices -/

namespace Setup

variable [HostNames]

/-- The usual choices can be made for an address, and for nothing else. -/
theorem exists_ofBase_iff {base : String} :
    (∃ s, ofBase base = .ok s) ↔ Url.IsAddress base := by
  unfold ofBase
  constructor
  · rintro ⟨s, h⟩
    split at h
    · rename_i u read
      exact ⟨u, read⟩
    · cases h
  · rintro ⟨u, read⟩
    split
    · exact ⟨_, rfl⟩
    · rename_i f unread
      rw [read] at unread
      cases unread

/-- What is not an address is told as such. -/
theorem exists_ofBase_eq_error {base : String} (unread : ¬ Url.IsAddress base) :
    ∃ text, ofBase base = .error (.parse text) := by
  unfold ofBase
  split
  · rename_i u read
    exact absurd ⟨u, read⟩ unread
  · exact ⟨_, rfl⟩

/-- The usual choices, which are also those of a default configuration. -/
theorem eq_of_ofBase {base : String} {s : Setup} (h : ofBase base = .ok s) :
    Url.parse base = .ok s.base ∧
      s.settings = .default ∧ s.verifyTls = true ∧ s.caCertificate = none := by
  unfold ofBase at h
  split at h
  · rename_i u read
    cases h
    exact ⟨read, rfl, rfl, rfl⟩
  · cases h

/-- A configuration for an address and a key, the default one otherwise, comes to choosing the
address first and the key then. -/
theorem ofConfig_withApiKey (base key : String) :
    ofConfig ((Config.default.withUrl base).withApiKey key) = ofBase base >>= (withKey · key) := by
  unfold ofConfig
  cases chosen : ofBase base with
  | error e =>
      change (ofBase base >>= _) = _
      rw [chosen]
      rfl
  | ok s =>
      obtain ⟨-, settings, verifies, -⟩ := eq_of_ofBase chosen
      change (ofBase base >>= _) = _
      rw [chosen, ok_bind, ok_bind]
      change Setup.withKey { s with settings := .default, verifyTls := true } key = s.withKey key
      rw [← settings, ← verifies]

/-- The usual choices with any signer make a client. -/
theorem build_withSigner_of_ofBase {base : String} {s : Setup} (h : ofBase base = .ok s)
    (signer : Signer) (files : Files) :
    (s.withSigner signer).build files = ⟨.ok ⟨s.base, signer, s.agent, s.isRead⟩, []⟩ := by
  obtain ⟨-, settings, verifies, trusts⟩ := eq_of_ofBase h
  have made : (s.withSigner signer).client files = .ok ⟨s.base, signer, s.agent, s.isRead⟩ := by
    refine client_eq_ok_iff.mpr ⟨?_, ?_, rfl⟩
    · have untold : (s.withSigner signer).caCertificate = none := trusts
      rw [checkTrust, untold]
    · have name : s.agent.name = defaultAgent := by
        rw [agent, settings]
        rfl
      change Http.Header.isValue s.agent.name = true
      rw [name]
      decide
  have quiet : (s.withSigner signer).events = [] := by
    change (if s.verifyTls then [] else _) ++ (s.caCertificate.map _).toList = []
    rw [verifies, trusts]
    rfl
  rw [build, made, quiet]

end Setup

/-! ## Ways -/

/-- A way to a client for a base address and an API key. -/
inductive Way where
  /-- From both at once. -/
  | atOnce
  /-- Choice by choice, the address before the key. -/
  | stepwise
  /-- From a configuration that holds both and is the default one otherwise. -/
  | configured
deriving DecidableEq

namespace Way

/-- The choices made on a way. -/
def chosen [HostNames] (base key : String) : Way → Except Error Setup
  | atOnce => do
    let p ← OAuth.Plaintext.ofKey key
    return (← Setup.ofBase base).withSigner (.plaintext p)
  | stepwise => Setup.ofBase base >>= (Setup.withKey · key)
  | configured => Setup.ofConfig ((Config.default.withUrl base).withApiKey key)

/-- What comes of a way. -/
def made [HostNames] (files : Files) (base key : String) : Way → Made
  | atOnce => authenticated files base key
  | stepwise => Setup.buildIfOk files (Setup.ofBase base >>= (Setup.withKey · key))
  | configured => Client.ofConfig files ((Config.default.withUrl base).withApiKey key)

/-- Which of two faults is told, that of the address or that of the key. -/
def told (ofBase ofKey : Error) : Way → Error
  | atOnce => ofKey
  | stepwise | configured => ofBase

variable [HostNames] (w : Way)

theorem made_eq (files : Files) (base key : String) :
    w.made files base key = Setup.buildIfOk files (w.chosen base key) := by
  cases w <;> rfl

/-- All ways make the same choices, the connection settings among them, and are refused for the
same faults. -/
theorem chosen_eq (base key : String) :
    w.chosen base key =
      match Setup.ofBase base, OAuth.Plaintext.ofKey key with
      | .ok s, .ok p => .ok (s.withSigner (.plaintext p))
      | .ok _, .error f => .error f
      | .error e, .ok _ => .error e
      | .error e, .error f => .error (w.told e f) := by
  have stepwise : (Setup.ofBase base >>= (Setup.withKey · key)) =
      match Setup.ofBase base, OAuth.Plaintext.ofKey key with
      | .ok s, .ok p => .ok (s.withSigner (.plaintext p))
      | .ok _, .error f => .error f
      | .error e, .ok _ => .error e
      | .error e, .error _ => .error e := by
    unfold Setup.withKey
    cases Setup.ofBase base <;> cases OAuth.Plaintext.ofKey key <;> rfl
  cases w with
  | atOnce =>
      unfold chosen
      cases Setup.ofBase base <;> cases OAuth.Plaintext.ofKey key <;> rfl
  | stepwise => exact stepwise
  | configured => exact (Setup.ofConfig_withApiKey base key).trans stepwise

section Made

variable {files : Files} {base key : String}

/-- An address and a key that are in order make a client, and nothing is reported. -/
theorem made_of_ofBase {s : Setup} {p : OAuth.Plaintext} (chosen : Setup.ofBase base = .ok s)
    (accepted : OAuth.Plaintext.ofKey key = .ok p) :
    w.made files base key = ⟨.ok ⟨s.base, .plaintext p, s.agent, s.isRead⟩, []⟩ := by
  rw [made_eq, chosen_eq, chosen, accepted]
  exact Setup.build_withSigner_of_ofBase chosen (.plaintext p) files

theorem exists_of_chosen {s : Setup} (h : w.chosen base key = .ok s) :
    ∃ s₀ p, Setup.ofBase base = .ok s₀ ∧ OAuth.Plaintext.ofKey key = .ok p ∧
      s = s₀.withSigner (.plaintext p) := by
  rw [chosen_eq] at h
  split at h
  · rename_i s₀ p chosen accepted
    exact ⟨s₀, p, chosen, accepted, (Except.ok.inj h).symm⟩
  all_goals cases h

/-- A way that leads to a client has been taken with an address and a key. -/
theorem exists_of_made {c : Client} (h : (w.made files base key).result = .ok c) :
    ∃ s p, Setup.ofBase base = .ok s ∧ OAuth.Plaintext.ofKey key = .ok p ∧
      c = ⟨s.base, .plaintext p, s.agent, s.isRead⟩ := by
  cases chosen : w.chosen base key with
  | error e =>
      rw [made_eq, chosen] at h
      cases h
  | ok s =>
      obtain ⟨s₀, p, base, accepted, -⟩ := w.exists_of_chosen chosen
      rw [w.made_of_ofBase base accepted] at h
      exact ⟨s₀, p, base, accepted, (Except.ok.inj h).symm⟩

end Made

end Way

/-! ## Agreement -/

/-- Whether a configuration for a text is in order is a matter of its being an address. -/
theorem exists_ofUrl?_iff [HostNames] {base : String} :
    (∃ c, Config.ofUrl? base = .ok c) ↔ Url.IsAddress base := by
  have timely : Config.isTimeout (Config.ofUrl base).timeoutSeconds = true :=
    show Config.isTimeout Config.defaultTimeout = true by decide
  have named : (Config.ofUrl base).url = base := rfl
  unfold Config.ofUrl? Url.IsAddress
  rw [Config.check, if_pos timely, named]
  cases Url.parse base <;> simp

theorem exists_parseUrl_iff [HostNames] {c : Config} :
    (∃ u, c.parseUrl = .ok u) ↔ Url.IsAddress c.url := by
  unfold Config.parseUrl Url.IsAddress
  cases Url.parse c.url <;> simp

/-- Whether all ways to a client for an address and a key agree. -/
structure WaysAgree [HostNames] (files : Files) (base key : String) : Prop where
  /-- Every way leads to a client for an address and a well-formed key, and for nothing else. -/
  succeeds : ∀ w : Way, (∃ c, (w.made files base key).result = .ok c) ↔
    Url.IsAddress base ∧ OAuth.IsWellFormedKey key
  /-- The clients have the same base address, and send and tell the same for the same calls. -/
  same : ∀ (w₁ w₂ : Way) (c₁ c₂ : Client), (w₁.made files base key).result = .ok c₁ →
    (w₂.made files base key).result = .ok c₂ →
    c₁.base = c₂.base ∧ ∀ net turns, c₁.session net turns = c₂.session net turns
  /-- They have been set up with the same choices, how long to wait among them. -/
  chosen : ∀ (w₁ w₂ : Way) (s₁ s₂ : Setup), w₁.chosen base key = .ok s₁ →
    w₂.chosen base key = .ok s₂ → s₁ = s₂
  /-- A bad key alone is told as a bad argument. -/
  badKey : Url.IsAddress base → ¬ OAuth.IsWellFormedKey key →
    ∀ w : Way, ∃ text, (w.made files base key).result = .error (.invalidArgument text)
  /-- A bad address alone is told as a text that cannot be read. -/
  badAddress : ¬ Url.IsAddress base → OAuth.IsWellFormedKey key →
    ∀ w : Way, ∃ text, (w.made files base key).result = .error (.parse text)
  /-- Of the two faults, the key is told at once, and else the address. -/
  bothBad : ¬ Url.IsAddress base → ¬ OAuth.IsWellFormedKey key →
    (∃ text, (Way.atOnce.made files base key).result = .error (.invalidArgument text)) ∧
    ∀ w : Way, w ≠ .atOnce → ∃ text, (w.made files base key).result = .error (.parse text)
  /-- A configuration for the text, the choices for it and its reading succeed together. -/
  config : ((∃ c, Config.ofUrl? base = .ok c) ↔ ∃ s, Setup.ofBase base = .ok s) ∧
    ∀ c : Config, c.url = base →
      ((∃ s, Setup.ofBase base = .ok s) ↔ ∃ u, c.parseUrl = .ok u)

/-- All ways to a client for an address and a key agree. -/
theorem waysAgree [HostNames] (files : Files) (base key : String) :
    WaysAgree files base key where
  succeeds w := by
    rw [← Setup.exists_ofBase_iff, ← OAuth.Plaintext.exists_ofKey_iff]
    constructor
    · rintro ⟨c, made⟩
      obtain ⟨s, p, chosen, accepted, -⟩ := w.exists_of_made made
      exact ⟨⟨s, chosen⟩, p, accepted⟩
    · rintro ⟨⟨s, chosen⟩, p, accepted⟩
      rw [w.made_of_ofBase chosen accepted]
      exact ⟨_, rfl⟩
  same w₁ w₂ c₁ c₂ made₁ made₂ := by
    obtain ⟨s, p, chosen, accepted, rfl⟩ := w₁.exists_of_made made₁
    rw [w₂.made_of_ofBase chosen accepted] at made₂
    cases made₂
    exact ⟨rfl, fun _ _ => rfl⟩
  chosen w₁ w₂ s₁ s₂ chosen₁ chosen₂ := by
    obtain ⟨s, p, chosen, accepted, rfl⟩ := w₁.exists_of_chosen chosen₁
    obtain ⟨s', p', chosen', accepted', rfl⟩ := w₂.exists_of_chosen chosen₂
    cases chosen.symm.trans chosen'
    cases accepted.symm.trans accepted'
    rfl
  badKey isAddress malformed w := by
    obtain ⟨s, chosen⟩ := Setup.exists_ofBase_iff.mpr isAddress
    obtain ⟨text, refused⟩ := OAuth.Plaintext.exists_ofKey_eq_error malformed
    refine ⟨text, ?_⟩
    rw [Way.made_eq, Way.chosen_eq, chosen, refused]
    rfl
  badAddress unread wellFormed w := by
    obtain ⟨text, unchosen⟩ := Setup.exists_ofBase_eq_error unread
    obtain ⟨p, accepted⟩ := OAuth.Plaintext.exists_ofKey_iff.mpr wellFormed
    refine ⟨text, ?_⟩
    rw [Way.made_eq, Way.chosen_eq, unchosen, accepted]
    rfl
  bothBad unread malformed := by
    obtain ⟨text, unchosen⟩ := Setup.exists_ofBase_eq_error unread
    obtain ⟨text', refused⟩ := OAuth.Plaintext.exists_ofKey_eq_error malformed
    have result (w : Way) : (w.made files base key).result =
        .error (w.told (.parse text) (.invalidArgument text')) := by
      rw [Way.made_eq, Way.chosen_eq, unchosen, refused]
      rfl
    refine ⟨⟨text', result .atOnce⟩, fun w other => ⟨text, ?_⟩⟩
    cases w with
    | atOnce => exact absurd rfl other
    | stepwise => exact result .stepwise
    | configured => exact result .configured
  config := by
    refine ⟨exists_ofUrl?_iff.trans Setup.exists_ofBase_iff.symm, ?_⟩
    rintro c rfl
    exact Setup.exists_ofBase_iff.trans exists_parseUrl_iff.symm

/-- An address and a key in order, either of them bad, and both. -/
theorem waysAgree_bothBad (files : Files) :
    (∀ w : Way, ∃ c, (w.made files "http://maas.local/MAAS/" "c:t:s").result = .ok c) ∧
    (∀ w : Way, ∃ text, (w.made files "http://maas.local/MAAS/" "c:t:").result =
      .error (.invalidArgument text)) ∧
    (∀ w : Way, ∃ text, (w.made files "maas.local" "c:t:s").result = .error (.parse text)) ∧
    (∃ text, (Way.atOnce.made files "maas.local" "c::t:s").result =
      .error (.invalidArgument text)) ∧
    ∃ text, (Way.configured.made files "maas.local" "c::t:s").result = .error (.parse text) := by
  have isAddress : Url.IsAddress "http://maas.local/MAAS/" := ⟨_, by rfl⟩
  have unread : ¬ Url.IsAddress "maas.local" := by
    rintro ⟨u, read⟩
    cases (show Url.parse "maas.local" = .error .noBase from rfl).symm.trans read
  have wellFormed : OAuth.IsWellFormedKey "c:t:s" :=
    ⟨"c", "t", "s", ⟨by decide, by decide, by decide, by decide⟩, by decide, by decide, by decide⟩
  have malformed : ¬ OAuth.IsWellFormedKey "c:t:" ∧ ¬ OAuth.IsWellFormedKey "c::t:s" := by
    simp only [← OAuth.Plaintext.exists_ofKey_iff]
    exact ⟨by rintro ⟨p, ⟨⟩⟩, by rintro ⟨p, ⟨⟩⟩⟩
  have bothBad := (waysAgree files "maas.local" "c::t:s").bothBad unread malformed.2
  exact ⟨fun w => ((waysAgree files _ _).succeeds w).mpr ⟨isAddress, wellFormed⟩,
    (waysAgree files _ _).badKey isAddress malformed.1,
    (waysAgree files _ _).badAddress unread wellFormed, bothBad.1,
    bothBad.2 .configured (by decide)⟩

end Client

end RegionApi
