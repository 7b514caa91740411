import NoPorts.Lib.Json
import NoPorts.Lib.Machine
import NoPorts.Lib.Table

/-! The desktop app's profiles: the repository's cache before the atServer, with any number of calls at once. -/
namespace NoPorts.ProfileRepository
open Lib

/-! Profiles -/

structure Profile where
  uuid : String
  displayName : String
  relayAtsign : Option String
  sshnpdAtsign : Option String
  deviceName : String
  remoteHost : String
  remotePort : Int64
  localPort : Int64
  localHost : String
  only443 : Bool
  keepAlive : Bool
  connectUri : Option String
  connectUriProtocol : Option String
  connectUriUsername : Option String
  deriving DecidableEq, Repr

def localhost : String := "localhost"

/-- `as String?`, as the casts below `none` where it throws. -/
def asString? : Json → Option (Option String)
  | .null => some none
  | .str s => some (some s)
  | _ => none

def asBool? : Json → Option (Option Bool)
  | .null => some none
  | .bool b => some (some b)
  | _ => none

/-- `(json as num).toInt()`: the nearest integer of 64 bits. A decoder reads a longer literal as a double. -/
def toInt : Json → Option Int64
  | .int n => some (Int64.ofIntClamp n)
  | .double q => some (Int64.ofIntClamp (q.num.tdiv q.den))
  | _ => none

def toExportableJson (profile : Profile) : List (String × Json) :=
  [("displayName", .str profile.displayName),
    ("relayAtsign", Json.ofStr? profile.relayAtsign),
    ("sshnpdAtsign", Json.ofStr? profile.sshnpdAtsign),
    ("deviceName", .str profile.deviceName),
    ("remoteHost", .str profile.remoteHost),
    ("remotePort", .int profile.remotePort.toInt),
    ("localPort", .int profile.localPort.toInt),
    ("localHost", .str profile.localHost),
    ("only443", .bool profile.only443),
    ("keepAlive", .bool profile.keepAlive),
    ("connectUri", Json.ofStr? profile.connectUri),
    ("connectUriProtocol", Json.ofStr? profile.connectUriProtocol),
    ("connectUriUsername", Json.ofStr? profile.connectUriUsername)]

def toJson (profile : Profile) : Json := .obj (toExportableJson profile ++ [("uuid", .str profile.uuid)])

/-- `_$ProfileFromJson` -/
def profileFromJson (json : List (String × Json)) : Option Profile := do
  let uuid ← asString? (Json.field json "uuid")
  let displayName ← (Json.field json "displayName").str?
  let relayAtsign ← asString? (Json.field json "relayAtsign")
  let sshnpdAtsign ← asString? (Json.field json "sshnpdAtsign")
  let deviceName ← (Json.field json "deviceName").str?
  let remoteHost ← asString? (Json.field json "remoteHost")
  let remotePort ← toInt (Json.field json "remotePort")
  let localPort ← toInt (Json.field json "localPort")
  let localHost ← asString? (Json.field json "localHost")
  let only443 ← asBool? (Json.field json "only443")
  let keepAlive ← asBool? (Json.field json "keepAlive")
  let connectUri ← asString? (Json.field json "connectUri")
  let connectUriProtocol ← asString? (Json.field json "connectUriProtocol")
  let connectUriUsername ← asString? (Json.field json "connectUriUsername")
  return {
    uuid := uuid.getD "", displayName, relayAtsign, sshnpdAtsign, deviceName
    remoteHost := remoteHost.getD localhost, remotePort, localPort
    localHost := localHost.getD localhost
    only443 := only443.getD false, keepAlive := keepAlive.getD false
    connectUri, connectUriProtocol, connectUriUsername }

/-- `generated` is the uuid that is generated where there is none. -/
def fromJson (json : Json) (generated : String) : Option Profile := do
  let profile ← profileFromJson (← json.obj?)
  return if profile.uuid = "" then { profile with uuid := generated } else profile

@[simp] theorem asString?_str (s : String) : asString? (.str s) = some (some s) := rfl

@[simp] theorem asString?_ofStr? (s : Option String) : asString? (Json.ofStr? s) = some s := by
  cases s <;> rfl

/-- What is stored of a profile is the profile. -/
theorem fromJson_toJson {profile : Profile} (h : profile.uuid ≠ "") (generated : String) :
    fromJson (toJson profile) generated = some profile := by
  have hfields : profileFromJson (toExportableJson profile ++ [("uuid", .str profile.uuid)]) = some profile := by
    simp [profileFromJson, toExportableJson, Json.field, List.lookup_cons, Json.str?, toInt, asBool?]
  simp only [fromJson, toJson, Json.obj?, Option.bind_eq_bind, Option.bind_some, hfields, if_neg h]
  rfl

/-! Calls -/

/-- The name of a profile's key, before the namespace. -/
def toProfileAtKey (uuid : String) : String := uuid ++ ".profiles"

inductive Call where
  | getProfile (uuid : String) (useCache : Bool)
  | putProfile (profile : Profile)
  | deleteProfile (uuid : String)
  deriving DecidableEq, Repr

def Call.uuid : Call → String
  | .getProfile uuid _ => uuid
  | .putProfile profile => profile.uuid
  | .deleteProfile uuid => uuid

/-- The call changes what the atServer holds. -/
def Call.writes : Call → Bool
  | .getProfile .. => false
  | _ => true

inductive Result where
  | profile (profile : Option Profile)
  | success (success : Bool)
  deriving DecidableEq, Repr

/-- Where a call is: at the atClient's operation, or after it. -/
inductive Pc where
  | waiting
  /-- The operation throws, and the call is yet to go on. -/
  | failed
  /-- The atServer has acted, a get has its value, and the call is yet to go on. -/
  | acted (value : Option Json)
  | returned (result : Result)

structure Running where
  call : Call
  pc : Pc

structure State where
  cache : Table String Profile
  server : Table String Json
  calls : List Running
  /-- The call that has last set what is cached under a uuid. -/
  cachedBy : Table String ℕ
  /-- The calls for which the atServer has acted, in the order it has. -/
  acted : List ℕ

inductive Event where
  | call (c : Call)
  /-- The atClient's operation of call `i` takes effect, or fails. -/
  | atServer (i : ℕ) (takesEffect : Bool)
  /-- Call `i` goes on; `generated` is the uuid for a profile without one. -/
  | resume (i : ℕ) (generated : String)

def State.add (s : State) (r : Running) : State := { s with calls := s.calls ++ [r] }

def State.setPc (s : State) (i : ℕ) (c : Call) (pc : Pc) : State := { s with calls := s.calls.set i ⟨c, pc⟩ }

def State.setCache (s : State) (uuid : String) (profile : Profile) (i : ℕ) : State :=
  { s with cache := s.cache.set uuid profile, cachedBy := s.cachedBy.set uuid i }

/-- A call up to its first `await`. -/
def State.begin (s : State) (c : Call) : State :=
  match c with
  | .getProfile uuid useCache =>
    match useCache, s.cache.get? uuid with
    | true, some profile => s.add ⟨c, .returned (.profile (some profile))⟩
    | _, _ => s.add ⟨c, .waiting⟩
  | .putProfile profile => (s.setCache profile.uuid profile s.calls.length).add ⟨c, .waiting⟩
  | .deleteProfile uuid => { s with cache := s.cache.erase uuid }.add ⟨c, .waiting⟩

/-- The operation of call `i`. A get of a key that isn't there throws. -/
def State.act (s : State) (i : ℕ) (c : Call) (takesEffect : Bool) : State :=
  let key := toProfileAtKey c.uuid
  let done := fun value server => { s.setPc i c (.acted value) with server, acted := s.acted ++ [i] }
  match takesEffect, c, s.server.get? key with
  | false, _, _ => s.setPc i c .failed
  | true, .getProfile .., none => s.setPc i c .failed
  | true, .getProfile .., some value => done (some value) s.server
  | true, .putProfile profile, _ => done none (s.server.set key (toJson profile))
  | true, .deleteProfile _, _ => done none (s.server.erase key)

/-- The rest of call `i`, after an operation that has failed, or has given `answer`. -/
def State.proceed (s : State) (i : ℕ) (c : Call) (answer : Option (Option Json)) (generated : String) : State :=
  match c, answer with
  | .getProfile .., none => s.setPc i c (.returned (.profile none))
  | .getProfile uuid _, some value =>
    match value.bind (fromJson · generated) with
    | none => s.setPc i c (.returned (.profile none))
    | some profile => (s.setCache uuid profile i).setPc i c (.returned (.profile (some profile)))
  | _, none => s.setPc i c (.returned (.success false))
  | _, some _ => s.setPc i c (.returned (.success true))

def step (s : State) : Event → Option State
  | .call c => some (s.begin c)
  | .atServer i takesEffect =>
    match s.calls[i]? with
    | some ⟨c, .waiting⟩ => some (s.act i c takesEffect)
    | _ => none
  | .resume i generated =>
    if generated = "" then none
    else
      match s.calls[i]? with
      | some ⟨c, .failed⟩ => some (s.proceed i c none generated)
      | some ⟨c, .acted value⟩ => some (s.proceed i c (some value) generated)
      | _ => none

def machine : Machine State Event := ⟨step⟩

/-- The profile that the atServer holds. -/
def State.held (s : State) (uuid generated : String) : Option Profile :=
  (s.server.get? (toProfileAtKey uuid)).bind (fromJson · generated)

/-- What `getProfile` gives with the cache, where its operation takes effect. -/
def State.getProfile (s : State) (uuid generated : String) : Option Profile :=
  match s.cache.get? uuid with
  | some profile => some profile
  | none => s.held uuid generated

/-- A call of `getProfile` with the cache returns `profile`, where its operation takes effect and nothing comes in
between. -/
def State.Gives (s : State) (uuid : String) (profile : Option Profile) : Prop :=
  ∃ more t, machine.run s (.call (.getProfile uuid true) :: more) = some t ∧
    t.calls[s.calls.length]? = some ⟨.getProfile uuid true, .returned (.profile profile)⟩

/-- The atServer has done another call's put or delete of the uuid after what it has done for call `i`. -/
def State.Overtaken (s : State) (uuid : String) (i : ℕ) : Prop :=
  ∃ pre mid j post r, s.acted = pre ++ i :: (mid ++ j :: post) ∧ j ≠ i ∧ s.calls[j]? = some r ∧ r.call.writes = true ∧
    r.call.uuid = uuid

/-- Calls stay the calls they are, and the atServer acts for one at a time. -/
structure Stepped (s t : State) : Prop where
  calls : ∀ (i : ℕ) (r : Running), s.calls[i]? = some r → ∃ pc, t.calls[i]? = some ⟨r.call, pc⟩
  acted : t.acted = s.acted ∧ t.server = s.server ∨
    ∃ (i : ℕ) (c : Call), s.calls[i]? = some (.mk c .waiting) ∧ t.acted = s.acted ++ [i] ∧
      ∀ uuid, (c.writes = true → c.uuid ≠ uuid) →
        t.server.get? (toProfileAtKey uuid) = s.server.get? (toProfileAtKey uuid)

/-- What the atServer has for call `i`, unless it has done another's put or delete since. -/
def Fresh (s : State) (uuid : String) (i : ℕ) (value : Json) : Prop :=
  i ∈ s.acted ∧ (s.Overtaken uuid i ∨ s.server.get? (toProfileAtKey uuid) = some value)

theorem Fresh.stepped {s t : State} {uuid : String} {i : ℕ} {value : Json} (h : Fresh s uuid i value)
    (hst : Stepped s t) (hacted : ∀ r, s.calls[i]? = some r → r.pc ≠ .waiting) : Fresh t uuid i value := by
  obtain ⟨hmem, hvalue⟩ := h
  have hovertaken : ∀ more, t.acted = s.acted ++ more → s.Overtaken uuid i → t.Overtaken uuid i := by
    rintro more hmore ⟨pre, mid, j, post, r, hlog, hji, hr, hwrites, huuid⟩
    obtain ⟨pc, hpc⟩ := hst.calls j r hr
    refine ⟨pre, mid, j, post ++ more, ⟨r.call, pc⟩, ?_, hji, hpc, hwrites, huuid⟩
    rw [hmore, hlog]
    simp only [List.append_assoc, List.cons_append]
  rcases hst.acted with ⟨hlog, hserver⟩ | ⟨j, c, hj, hlog, hserver⟩
  · rw [Fresh, hlog, hserver]
    refine ⟨hmem, hvalue.imp_left (hovertaken [] ?_)⟩
    rw [hlog, List.append_nil]
  · refine ⟨hlog ▸ List.mem_append_left _ hmem, ?_⟩
    -- a put or a delete of the uuid overtakes call `i`, anything else leaves its key as it is
    by_cases hother : c.writes = true ∧ c.uuid = uuid
    · left
      obtain ⟨pre, mid, hsplit⟩ := List.append_of_mem hmem
      obtain ⟨pc, hpc⟩ := hst.calls j _ hj
      refine ⟨pre, mid, j, [], ⟨c, pc⟩, ?_, ?_, hpc, hother.1, hother.2⟩
      · rw [hlog, hsplit]
        simp only [List.append_assoc, List.cons_append]
      · rintro rfl
        exact hacted _ hj rfl
    · rcases hvalue with hbefore | hheld
      · exact Or.inl (hovertaken [j] hlog hbefore)
      · exact Or.inr ((hserver uuid fun hw hu => hother ⟨hw, hu⟩).trans hheld)

/-- What is known of call `i`. -/
structure Entry (s : State) (i : ℕ) (r : Running) : Prop where
  read : ∀ uuid useCache value, r = ⟨.getProfile uuid useCache, .acted value⟩ →
    ∃ json, value = some json ∧ Fresh s uuid i json
  wrote : ∀ profile, r.call = .putProfile profile → (∃ value, r.pc = .acted value) ∨ r.pc = .returned (.success true) →
    Fresh s profile.uuid i (toJson profile)
  returned : ∀ profile result, r = ⟨.putProfile profile, .returned result⟩ → ∃ b, result = .success b
  acted : i ∈ s.acted → r.pc ≠ .waiting

structure Known (s : State) : Prop where
  cached : ∀ uuid profile, s.cache.get? uuid = some profile → ∃ i, s.cachedBy.get? uuid = some i ∧
    ((∃ pc, s.calls[i]? = some (.mk (.putProfile profile) pc) ∧ profile.uuid = uuid) ∨
      ∃ value generated, generated ≠ "" ∧ Fresh s uuid i value ∧ fromJson value generated = some profile)
  entries : ∀ (i : ℕ) (r : Running), s.calls[i]? = some r → Entry s i r
  bound : ∀ i ∈ s.acted, i < s.calls.length

section
variable {s t : State}

theorem Known.fresh (hk : Known s) (hst : Stepped s t) {uuid : String} {i : ℕ} {value : Json} (h : Fresh s uuid i value) :
    Fresh t uuid i value :=
  h.stepped hst fun r hr => (hk.entries i r hr).acted h.1

/-- A call that the step leaves where it is. -/
theorem Known.entry (hk : Known s) (hst : Stepped s t) {i : ℕ} {r : Running} (hr : s.calls[i]? = some r)
    (hacted : i ∈ t.acted → i ∈ s.acted) : Entry t i r := by
  have h := hk.entries i r hr
  refine ⟨fun uuid useCache value he => ?_, fun profile hc hp => hk.fresh hst (h.wrote profile hc hp), h.returned,
    fun hi => h.acted (hacted hi)⟩
  obtain ⟨json, hjson, hfresh⟩ := h.read uuid useCache value he
  exact ⟨json, hjson, hk.fresh hst hfresh⟩

end

/-! Whole runs -/

end NoPorts.ProfileRepository
