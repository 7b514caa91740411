import NoPorts.SshnpdRequests
import NoPorts.SshnpdChannel
import Mathlib.Data.List.Infix
import Mathlib.Data.Option.Basic

/-! The responses that a client session waits for: the relay's, the daemon's to a ping and the daemon's to the
session request. Each is read in a stream's listener, out of reach of whoever waits for it. -/
namespace NoPorts.ClientResponses
open Lib SshnpdRequests

structure Runtime extends SshnpdChannel.Runtime where
  intParse : String → Except Thrown ℤ
  toAtsign : String → Except Thrown String

structure Params extends SshnpdChannel.Params where
  srvdAtSign : String

/-! ### relay_messages.dart -/

structure RelayResponse where
  address : String
  portA : ℤ
  portB : ℤ
  rvdNonce : String
  supportsEventLogging : Bool
  autoDetectsRelayAuth : Bool
  deriving DecidableEq, Repr

def RelayResponse.fromJson (json : List (String × Json)) : Except Thrown RelayResponse := do
  return {
    address := ← cast (Json.field json "address").str?
    portA := ← cast (int? (Json.field json "portA"))
    portB := ← cast (int? (Json.field json "portB"))
    rvdNonce := ← cast (Json.field json "rvdNonce").str?
    supportsEventLogging := ← cast (bool? (Json.field json "supportsEventLogging"))
    autoDetectsRelayAuth := (← castNullable (bool? (Json.field json "autoDetectsRelayAuth"))
      (Json.field json "autoDetectsRelayAuth")).getD false }

/-! ### srvd_channel.dart -/

inductive SrvdAck where
  | acknowledged
  | acknowledgedWithErrors
  | notAcknowledged
  deriving DecidableEq, Repr

/-- Where an asynchronous call is. -/
inductive Call where
  | notStarted
  /-- At its `notify`. -/
  | sending
  /-- For the response. -/
  | waiting
  | returned
  | threw (e : Thrown)
  | timedOut
  deriving DecidableEq, Repr

structure SrvdChannel where
  /-- `acked` has completed. -/
  acked : Bool
  fetched : Bool
  srvdAck : SrvdAck
  srvdNackMessage : String
  relayResponse : Option RelayResponse
  /-- `getHostAndPortFromSrvd` -/
  call : Call
  deriving DecidableEq, Repr

/-- `value.split(',')` -/
def splitCommas (value : String) : List String := (value.toList.splitOn ',').map String.ofList

/-- `notification.value.toString()` -/
def valueText (n : AtNotification) : String := n.value.getD "null"

def isNack (sessionId : String) (n : AtNotification) : Bool :=
  decide (("nack." ++ sessionId).toList <:+: n.key.toList)

def startsWithBrace (value : String) : Bool := value.toList.head? == some '\x7b'

namespace Runtime
variable (rt : Runtime)

/-- `jsonDecode(value)` as a map. -/
def decodeMap (value : String) : Except Thrown (List (String × Json)) := do
  cast (← cast (rt.jsonDecode value)).obj?

def readRelayResponse (notifVal : String) : Except Thrown RelayResponse :=
  if startsWithBrace notifVal then do
    RelayResponse.fromJson (← rt.decodeMap notifVal)
  else do
    let results := splitCommas notifVal
    return {
      address := ← SshnpdImpl.elementAt results 0
      portA := ← rt.intParse (← SshnpdImpl.elementAt results 1)
      portB := ← rt.intParse (← SshnpdImpl.elementAt results 2)
      rvdNonce := ← SshnpdImpl.elementAt results 3
      supportsEventLogging := false
      autoDetectsRelayAuth := false }

end Runtime

/-- The listener of `getHostAndPortFromSrvd`, which a throw leaves before it has set anything. -/
def SrvdChannel.onNotification (rt : Runtime) (params : Params) (c : SrvdChannel) (n : AtNotification) :
    Except Thrown SrvdChannel := do
  if (← rt.toAtsign n.fromAtsign) ≠ (← rt.toAtsign params.srvdAtSign) then return c
  else if c.acked then return c
  else if isNack params.sessionId n then
    return { c with srvdNackMessage := valueText n, srvdAck := .acknowledgedWithErrors, acked := true }
  else
    let relayResponse ← rt.readRelayResponse (valueText n)
    return { c with relayResponse := some relayResponse, srvdAck := .acknowledged, fetched := true, acked := true }

/-! ### sshnpd_channel.dart -/

structure FeatureCheck where
  /-- The completer of `ping`. -/
  completer : Option (List (String × Json))
  pingResponse : Option (List (String × Json))
  twinKeys : Option Bool
  /-- `featureCheck`, over its `ping` -/
  call : Call
  /-- Its future is ignored: an error of it that nobody awaits is nobody's. -/
  ignored : Bool

namespace FeatureCheck

/-- The listener of `ping`. -/
def onNotification (rt : Runtime) (params : Params) (f : FeatureCheck) (n : AtNotification) :
    Except Thrown FeatureCheck := do
  if (← rt.toAtsign n.fromAtsign) = (← rt.toAtsign params.sshnpdAtSign) then
    if f.completer.isSome then return f
    else return { f with completer := some (← rt.decodeMap (n.value.getD "\x7b\x7d")) }
  else return f

/-- `featureCheck` once it has the response. -/
def onPong (f : FeatureCheck) (pong : List (String × Json)) : FeatureCheck :=
  let supportedFeatures := Json.field pong "supportedFeatures"
  match castNullable supportedFeatures.obj? supportedFeatures with
  | .error e => { f with pingResponse := some pong, call := .threw e }
  | .ok features =>
    let twinKeys := features.any fun features => bool? (Json.field features "twinKeys") == some true
    { f with pingResponse := some pong, twinKeys := some twinKeys, call := .returned }

/-- The error it ends with, when that is left to nobody. -/
def unhandled (f : FeatureCheck) : List Thrown :=
  match f.call with
  | .threw e => if f.ignored then [] else [e]
  | .timedOut => if f.ignored then [] else [.other "Daemon feature check timed out"]
  | _ => []

end FeatureCheck

/-! ### npt.dart -/

/-- Where `_NptImpl`'s initialization is. -/
inductive Initialization where
  | notStarted
  /-- At the relay's. -/
  | relay
  /-- At the feature check. -/
  | features
  | returned
  | threw (e : Thrown)
  deriving DecidableEq, Repr

structure Client where
  channel : SshnpdChannel.Channel
  srvd : SrvdChannel
  check : FeatureCheck
  npt : Initialization
  uncaught : List Thrown

inductive Event where
  | initializeNpt
  | pingSent (sent : Except Thrown Unit)
  | pong (n : AtNotification)
  /-- `featureCheck` goes on, timed out or not. -/
  | checked (timedOut : Bool)
  | relaySent (sent : Except Thrown Unit)
  | relayResponse (n : AtNotification)
  /-- `getHostAndPortFromSrvd` goes on, timed out or not. -/
  | relayWaited (timedOut : Bool)
  /-- The initialization goes on; `published` is what publishing the signing key has come to. -/
  | resumed (published : Except Thrown Unit)
  | daemon (e : SshnpdChannel.Event)

/-- Whether the event completes `acked` of a channel where it has completed. -/
def completesTwice (channel : SshnpdChannel.Channel) : SshnpdChannel.Event → Bool
  | .resumed _ => channel.acked
  | _ => false

namespace Client
variable (rt : Runtime) (params : Params)

/-- A listener's throw. -/
def escape (c : Client) (e : Thrown) : Client := { c with uncaught := c.uncaught ++ [e] }

/-- The feature check has ended. -/
def endCheck (c : Client) (check : FeatureCheck) : Client :=
  { c with check, uncaught := c.uncaught ++ check.unhandled }

/-- The initialization, after a call that it awaits. -/
def afterCall (call : Call) (next : Initialization) : Option Initialization :=
  match call with
  | .returned => some next
  | .threw e => some (.threw e)
  | .timedOut => some (.threw (.other "Timed out"))
  | _ => none

def step (c : Client) : Event → Option Client
  | .initializeNpt => do
    guard (c.npt = .notStarted)
    return { c with
      npt := .relay
      check := { c.check with call := .sending, ignored := true }
      srvd := { c.srvd with srvdAck := .notAcknowledged, call := .sending } }
  | .pingSent sent =>
    match c.check.call with
    | .sending =>
      match sent with
      | .ok _ => some { c with check := { c.check with call := .waiting } }
      | .error e => some (c.endCheck { c.check with call := .threw e })
    | .timedOut => some c
    | _ => none
  | .pong n => do
    guard (c.check.call ≠ .notStarted)
    -- the first response has cancelled the subscription
    if c.check.completer.isSome then return c
    match c.check.onNotification rt params n with
    | .ok check => return { c with check }
    | .error e => return c.escape e
  | .checked true => do
    guard (c.check.call = .sending ∨ c.check.call = .waiting)
    return c.endCheck { c.check with call := .timedOut }
  | .checked false => do
    guard (c.check.call = .waiting)
    let pong ← c.check.completer
    return c.endCheck (c.check.onPong pong)
  | .relaySent sent => do
    guard (c.srvd.call = .sending)
    match sent with
    | .ok _ => return { c with srvd := { c.srvd with call := .waiting } }
    | .error e => return { c with srvd := { c.srvd with call := .threw e } }
  | .relayResponse n => do
    guard (c.srvd.call ≠ .notStarted)
    match c.srvd.onNotification rt params n with
    | .ok srvd => return { c with srvd }
    | .error e => return c.escape e
  | .relayWaited true => do
    guard (c.srvd.call = .waiting)
    return { c with srvd := { c.srvd with call := .timedOut } }
  | .relayWaited false => do
    guard (c.srvd.call = .waiting)
    guard (c.srvd.acked = true)
    if c.srvd.srvdAck = .acknowledgedWithErrors then
      return { c with srvd := { c.srvd with call := .threw (.other c.srvd.srvdNackMessage) } }
    else return { c with srvd := { c.srvd with call := .returned } }
  | .resumed published =>
    match c.npt with
    | .relay => do
      let next := match published with
        | .ok _ => Initialization.features
        | .error e => .threw e
      return { c with npt := ← afterCall c.srvd.call next }
    | .features => do return { c with npt := ← afterCall c.check.call .returned }
    | _ => none
  | .daemon e => do
    let channel ← c.channel.step rt.toRuntime params.toParams e
    let again := if completesTwice c.channel e then [Signing.Failure.other "Future already completed"] else []
    return { c with channel, uncaught := c.uncaught ++ again }

def machine : Machine Client Event := ⟨step rt params⟩

def start : Client :=
  { channel := SshnpdChannel.Channel.start
    srvd := ⟨false, false, .notAcknowledged, "", none, .notStarted⟩
    check := ⟨none, none, none, .notStarted, false⟩
    npt := .notStarted
    uncaught := [] }

/-! ### What is to hold -/

/-- A relay's response, taken from `c` and read whole. -/
def RelayRead (r : RelayResponse) (c : Client) (e : Event) : Prop :=
  ∃ n, e = .relayResponse n ∧ c.srvd.acked = false ∧ rt.readRelayResponse (valueText n) = .ok r

/-- A daemon's response to the ping, read whole. -/
def PongRead (pong : List (String × Json)) (c : Client) (e : Event) : Prop :=
  ∃ n, e = .pong n ∧ c.check.completer = none ∧ rt.decodeMap (n.value.getD "\x7b\x7d") = .ok pong

structure Upheld (es : List Event) (t : Client) : Prop where
  contained : t.uncaught = []
  /-- A wait that nothing ends is ended by its time-out. -/
  relayTimesOut : t.srvd.call = .waiting → ∃ u, t.step rt params (.relayWaited true) = some u ∧
    u.srvd.call = .timedOut
  checkTimesOut : t.check.call = .waiting → ∃ u, t.step rt params (.checked true) = some u ∧
    u.check.call = .timedOut
  daemonTimesOut : ∀ w, t.channel.waiters[w]? = some .waiting → ∃ u,
    t.step rt params (.daemon (.waited w true)) = some u ∧ u.channel.waiters[w]? ≠ some .waiting
  /-- An error reaches whoever awaits. -/
  relayThrows : ∀ e published, t.srvd.call = .threw e → t.npt = .relay → ∃ u,
    t.step rt params (.resumed published) = some u ∧ u.npt = .threw e
  checkThrows : ∀ e published, t.check.call = .threw e → t.npt = .features → ∃ u,
    t.step rt params (.resumed published) = some u ∧ u.npt = .threw e
  /-- A value comes whole, from one response. -/
  relayReturns : t.srvd.call = .returned → t.srvd.fetched = true
  relayWhole : t.srvd.fetched = true → ∃ r, t.srvd.relayResponse = some r ∧
    (machine rt params).At start es (RelayRead rt r)
  checkReturns : t.check.call = .returned → t.check.twinKeys.isSome = true ∧
    ∃ pong, t.check.pingResponse = some pong ∧ (machine rt params).At start es (PongRead rt pong)

/-! ### The condition -/

/-- The fields of a relay's response, of the types they are read as. -/
structure RelayFields (json : List (String × Json)) : Prop where
  address : (Json.field json "address").str?.isSome = true
  portA : (int? (Json.field json "portA")).isSome = true
  portB : (int? (Json.field json "portB")).isSome = true
  rvdNonce : (Json.field json "rvdNonce").str?.isSome = true
  supportsEventLogging : (bool? (Json.field json "supportsEventLogging")).isSome = true
  autoDetectsRelayAuth : (Json.field json "autoDetectsRelayAuth").isNull = true ∨
    (bool? (Json.field json "autoDetectsRelayAuth")).isSome = true

/-- The text is a JSON object. -/
def JsonObject (value : String) (fields : List (String × Json)) : Prop :=
  ∃ decoded, rt.jsonDecode value = some decoded ∧ decoded.obj? = some fields

/-- The text of a relay's response, in either of its formats. -/
def WellFormed (value : String) : Prop :=
  if startsWithBrace value then ∃ json, JsonObject rt value json ∧ RelayFields json
  else ∃ address portA portB rvdNonce rest, splitCommas value = address :: portA :: portB :: rvdNonce :: rest ∧
    Returns (rt.intParse portA) ∧ Returns (rt.intParse portB)

/-- The sender's atSign and the one it is compared with are atSigns, and if they are one, `P` is met. -/
def FromWhom (sender expected : String) (P : Prop) : Prop :=
  ∃ a b, rt.toAtsign sender = .ok a ∧ rt.toAtsign expected = .ok b ∧ (a = b → P)

/-- A response that its listener is to read can be read. -/
def Readable (c : Client) : Event → Prop
  | .relayResponse n => FromWhom rt n.fromAtsign params.srvdAtSign
      (c.srvd.acked = false → isNack params.sessionId n = false → WellFormed rt (valueText n))
  | .pong n => c.check.completer = none → FromWhom rt n.fromAtsign params.sshnpdAtSign
      (∃ fields, JsonObject rt (n.value.getD "\x7b\x7d") fields)
  | _ => True

/-! ### Reading a response -/

variable {rt : Runtime} {params : Params}

theorem returns_cast_bind {α β : Type} {v : Option α} {next : α → Except Thrown β} :
    Returns (SshnpdRequests.cast v >>= next) ↔ ∃ a, v = some a ∧ Returns (next a) := by
  rw [returns_bind]
  exact exists_congr fun a => and_congr_left fun _ => cast_eq_ok

theorem decodeMap_eq_ok {value : String} {fields : List (String × Json)} :
    rt.decodeMap value = .ok fields ↔ JsonObject rt value fields := by
  rw [Runtime.decodeMap, bind_eq_ok]
  exact exists_congr fun decoded => and_congr cast_eq_ok cast_eq_ok

theorem returns_decodeMap {value : String} : Returns (rt.decodeMap value) ↔ ∃ fields, JsonObject rt value fields :=
  exists_congr fun _ => decodeMap_eq_ok

theorem returns_castNullable {α : Type} {v : Option α} {json : Json} :
    Returns (castNullable v json) ↔ json.isNull = true ∨ v.isSome = true := by
  rw [castNullable]
  cases json.isNull with
  | true => simp
  | false =>
    cases v with
    | none => simp [SshnpdRequests.cast]
    | some a => simp [SshnpdRequests.cast]

theorem returns_relayFields {json : List (String × Json)} : Returns (RelayResponse.fromJson json) ↔ RelayFields json := by
  unfold RelayResponse.fromJson
  simp only [returns_cast_bind]
  simp only [returns_bind, returns_pure, and_true]
  constructor
  · rintro ⟨address, haddress, portA, hportA, portB, hportB, rvdNonce, hrvdNonce, logging, hlogging, hauto⟩
    exact ⟨Option.isSome_iff_exists.mpr ⟨address, haddress⟩, Option.isSome_iff_exists.mpr ⟨portA, hportA⟩,
      Option.isSome_iff_exists.mpr ⟨portB, hportB⟩, Option.isSome_iff_exists.mpr ⟨rvdNonce, hrvdNonce⟩,
      Option.isSome_iff_exists.mpr ⟨logging, hlogging⟩, returns_castNullable.mp hauto⟩
  · intro h
    obtain ⟨address, haddress⟩ := Option.isSome_iff_exists.mp h.address
    obtain ⟨portA, hportA⟩ := Option.isSome_iff_exists.mp h.portA
    obtain ⟨portB, hportB⟩ := Option.isSome_iff_exists.mp h.portB
    obtain ⟨rvdNonce, hrvdNonce⟩ := Option.isSome_iff_exists.mp h.rvdNonce
    obtain ⟨logging, hlogging⟩ := Option.isSome_iff_exists.mp h.supportsEventLogging
    exact ⟨address, haddress, portA, hportA, portB, hportB, rvdNonce, hrvdNonce, logging, hlogging,
      returns_castNullable.mpr h.autoDetectsRelayAuth⟩

theorem returns_readRelayResponse {value : String} : Returns (rt.readRelayResponse value) ↔ WellFormed rt value := by
  rw [Runtime.readRelayResponse, WellFormed]
  split
  · rw [returns_bind]
    exact exists_congr fun json => and_congr decodeMap_eq_ok returns_relayFields
  · simp only [SshnpdImpl.returns_elementAt_bind]
    simp only [returns_bind, returns_pure, and_true]
    generalize splitCommas value = results
    constructor
    · rintro ⟨address, haddress, portA, hportA, a, ha, portB, hportB, b, hb, rvdNonce, hrvdNonce⟩
      rcases results with _ | ⟨address', _ | ⟨portA', _ | ⟨portB', _ | ⟨rvdNonce', rest⟩⟩⟩⟩
      · cases haddress
      · cases hportA
      · cases hportB
      · cases hrvdNonce
      · cases hportA
        cases hportB
        exact ⟨address', portA, portB, rvdNonce', rest, rfl, ⟨a, ha⟩, ⟨b, hb⟩⟩
    · rintro ⟨address, portA, portB, rvdNonce, rest, rfl, ⟨a, ha⟩, ⟨b, hb⟩⟩
      exact ⟨address, rfl, portA, rfl, a, ha, portB, rfl, b, hb, rvdNonce, rfl⟩

theorem returns_fromWhom {α : Type} {sender expected : String} {next : String → String → Except Thrown α}
    {P : Prop} (hnext : ∀ a b, Returns (next a b) ↔ (a = b → P)) :
    Returns (do next (← rt.toAtsign sender) (← rt.toAtsign expected)) ↔ FromWhom rt sender expected P := by
  simp only [returns_bind, FromWhom, hnext, exists_and_left]

theorem returns_relayListener {c : SrvdChannel} {n : AtNotification} : Returns (c.onNotification rt params n) ↔
    FromWhom rt n.fromAtsign params.srvdAtSign
      (c.acked = false → isNack params.sessionId n = false → WellFormed rt (valueText n)) := by
  apply returns_fromWhom
  intro a b
  by_cases hab : a = b
  · rw [if_neg (not_not.mpr hab)]
    cases hacked : c.acked with
    | true => simp
    | false =>
      cases hnack : isNack params.sessionId n with
      | true => simp
      | false => simp [hab, returns_readRelayResponse]
  · rw [if_pos hab]
    exact iff_of_true (returns_pure c) fun h => absurd h hab

theorem returns_pingListener {f : FeatureCheck} {n : AtNotification} (hopen : f.completer = none) :
    Returns (f.onNotification rt params n) ↔ FromWhom rt n.fromAtsign params.sshnpdAtSign
      (∃ fields, JsonObject rt (n.value.getD "\x7b\x7d") fields) := by
  apply returns_fromWhom
  intro a b
  by_cases hab : a = b
  · rw [if_pos hab, hopen]
    simp [hab, returns_decodeMap]
  · rw [if_neg hab]
    exact iff_of_true (returns_pure f) fun h => absurd h hab

/-! ### The daemon's response -/

/-- One notification at most is taken for the response, and `acked` completes with it. -/
structure Sole (channel : SshnpdChannel.Channel) : Prop where
  handlers : channel.handlers.length ≤ 1
  fresh : channel.responded = false → channel.handlers = [] ∧ channel.acked = false
  done : channel.acked = true → ∀ h ∈ channel.handlers, h.pc = .done

/-- A handler that has not ended goes on, or ends with what it leaves. -/
theorem Sole.goesOn {channel d : SshnpdChannel.Channel} (h : Sole channel) {i : ℕ} {found : SshnpdChannel.Handler}
    (hi : channel.handlers[i]? = some found) (hhandlers : d.handlers = channel.handlers)
    (hresponded : d.responded = channel.responded) (pc : SshnpdChannel.PayloadPc)
    (hdone : d.acked = true → pc = .done) : Sole (d.setPc i found pc) := by
  have hlt := (List.getElem?_eq_some_iff.mp hi).1
  have hone := h.handlers
  constructor
  · simpa [SshnpdChannel.Channel.setPc, hhandlers] using hone
  · intro hfresh
    have hnone := (h.fresh (hresponded.symm.trans hfresh)).1
    rw [hnone] at hlt
    cases hlt
  · intro hacked other hother
    obtain ⟨j, hj⟩ := List.mem_iff_getElem?.mp hother
    rw [SshnpdChannel.Channel.setPc, hhandlers] at hj
    rcases getElem?_set_cases hj with ⟨rfl, rfl⟩ | ⟨hne, hold⟩
    · exact hdone hacked
    · have hltj := (List.getElem?_eq_some_iff.mp hold).1
      omega

/-- The completer is still open while a handler has something to do. -/
theorem Sole.open {channel : SshnpdChannel.Channel} (h : Sole channel) {i : ℕ} {found : SshnpdChannel.Handler}
    (hi : channel.handlers[i]? = some found) (hpc : found.pc ≠ .done) : channel.acked = false := by
  cases hacked : channel.acked with
  | false => rfl
  | true => exact absurd (h.done hacked found (List.mem_of_getElem? hi)) hpc

theorem kept_readResponse_ok {payload : List (String × Json)} {c c' : SshnpdChannel.Channel}
    (h : rt.toRuntime.readResponse payload c = .ok c') : SshnpdChannel.Channel.Kept c c' := by
  obtain ⟨ephemeral, -, h⟩ := bind_eq_ok.mp h
  apply SshnpdChannel.Channel.Kept.trans ⟨_, c.eventLoggingConfig, rfl⟩
  obtain ⟨key, -, h⟩ := bind_eq_ok.mp h
  obtain ⟨iv, -, h⟩ := bind_eq_ok.mp h
  obtain ⟨c1, hc1, h⟩ := bind_eq_ok.mp h
  apply SshnpdChannel.Channel.Kept.trans (SshnpdChannel.Channel.kept_decryptPair_ok hc1)
  obtain ⟨key', -, h⟩ := bind_eq_ok.mp h
  obtain ⟨iv', -, h⟩ := bind_eq_ok.mp h
  obtain ⟨c2, hc2, h⟩ := bind_eq_ok.mp h
  apply SshnpdChannel.Channel.Kept.trans (SshnpdChannel.Channel.kept_decryptPair_ok hc2)
  dsimp only at h
  split at h
  · exact SshnpdChannel.Channel.Kept.of_eq (Except.ok.inj h).symm
  · obtain ⟨config, -, h⟩ := bind_eq_ok.mp h
    exact ⟨_, _, (Except.ok.inj h).symm⟩

theorem Sole.deliver {channel : SshnpdChannel.Channel} (h : Sole channel) (n : SshnpdChannel.AtNotification) :
    Sole (channel.handleSshnpdResponses rt.toRuntime params.toParams n) := by
  rw [SshnpdChannel.Channel.handleSshnpdResponses]
  split
  · exact h
  split
  · exact h
  rename_i hfresh _
  obtain ⟨hnone, hopen⟩ := h.fresh (Bool.eq_false_iff.mpr hfresh)
  rcases @SshnpdChannel.Channel.handleSshnpdPayload_cases rt.toRuntime { channel with responded := true } n with
    ⟨errorReceived, heq⟩ | ⟨value, response, hashing, -, -, -, heq⟩
  · rw [heq]
    refine ⟨by simp [hnone], fun hno => (by cases hno), fun hacked => ?_⟩
    rw [hopen] at hacked
    cases hacked
  · rw [heq]
    refine ⟨by simp [hnone], fun hno => (by cases hno), fun hacked => ?_⟩
    rw [hopen] at hacked
    cases hacked

theorem Sole.step {channel channel' : SshnpdChannel.Channel} {e : SshnpdChannel.Event} (h : Sole channel)
    (hstep : channel.step rt.toRuntime params.toParams e = some channel') :
    Sole channel' ∧ completesTwice channel e = false := by
  cases e with
  | deliver n =>
    obtain rfl := Option.some.inj hstep
    exact ⟨h.deliver n, rfl⟩
  | fetched i server =>
    obtain ⟨found, hi, hstep⟩ := Option.bind_eq_some_iff.mp hstep
    refine ⟨?_, rfl⟩
    cases hpc : found.pc with
    | fetching response hashing =>
      rw [hpc] at hstep
      obtain rfl := Option.some.inj hstep
      have hopen := h.open hi (by rw [hpc]; exact fun hdone => by cases hdone)
      rw [SshnpdChannel.Channel.onFetched]
      split
      · exact h.goesOn hi rfl rfl _ (by simp [hopen])
      · exact h.goesOn hi rfl rfl _ (by simp [hopen])
    | verifying response hashing pk | returned ack | done =>
      rw [hpc] at hstep
      cases hstep
  | verified i =>
    obtain ⟨found, hi, hstep⟩ := Option.bind_eq_some_iff.mp hstep
    refine ⟨?_, rfl⟩
    cases hpc : found.pc with
    | verifying response hashing pk =>
      rw [hpc] at hstep
      obtain rfl := Option.some.inj hstep
      have hopen := h.open hi (by rw [hpc]; exact fun hdone => by cases hdone)
      rw [SshnpdChannel.Channel.onVerified]
      split
      · split
        · rename_i c' hread
          obtain ⟨keys, config, rfl⟩ := kept_readResponse_ok hread
          exact h.goesOn (d := { channel with keys, eventLoggingConfig := config }) hi rfl rfl _ (by simp [hopen])
        · rename_i c' hread
          obtain ⟨keys, config, rfl⟩ := SshnpdChannel.Channel.kept_readResponse hread
          exact h.goesOn (d := { channel with keys, eventLoggingConfig := config }) hi rfl rfl _ (by simp [hopen])
      · exact h.goesOn hi rfl rfl _ (by simp [hopen])
    | fetching response hashing | returned ack | done =>
      rw [hpc] at hstep
      cases hstep
  | resumed i =>
    obtain ⟨found, hi, hstep⟩ := Option.bind_eq_some_iff.mp hstep
    cases hpc : found.pc with
    | returned ack =>
      rw [hpc] at hstep
      obtain rfl := Option.some.inj hstep
      refine ⟨?_, h.open hi (by rw [hpc]; exact fun hdone => by cases hdone)⟩
      cases ack with
      | none =>
        exact h.goesOn (d := { channel with
          errorReceived := some "Failed to read the daemon's response"
          sshnpdAck := .acknowledgedWithErrors
          acked := true }) hi rfl rfl .done fun _ => rfl
      | some ack =>
        exact h.goesOn (d := { channel with sshnpdAck := ack, acked := true }) hi rfl rfl .done fun _ => rfl
    | fetching response hashing | verifying response hashing pk | done =>
      rw [hpc] at hstep
      cases hstep
  | wait =>
    obtain rfl := Option.some.inj hstep
    exact ⟨⟨h.handlers, h.fresh, h.done⟩, rfl⟩
  | waited w timedOut =>
    obtain ⟨_, -, hstep⟩ := Option.bind_eq_some_iff.mp hstep
    obtain ⟨_, -, hstep⟩ := Option.bind_eq_some_iff.mp hstep
    obtain rfl := Option.some.inj hstep
    exact ⟨⟨h.handlers, h.fresh, h.done⟩, rfl⟩
  | logged w threw =>
    obtain ⟨_, -, hstep⟩ := Option.bind_eq_some_iff.mp hstep
    obtain rfl := Option.some.inj hstep
    exact ⟨⟨h.handlers, h.fresh, h.done⟩, rfl⟩

/-! ### What each step keeps -/

variable {es : List Event} {c c' : Client} {e : Event}

structure RelayInv (rt : Runtime) (params : Params) (es : List Event) (srvd : SrvdChannel) : Prop where
  acked : srvd.acked = true → srvd.srvdAck = .acknowledgedWithErrors ∨ srvd.fetched = true
  returns : srvd.call = .returned → srvd.fetched = true
  whole : srvd.fetched = true → ∃ r, srvd.relayResponse = some r ∧
    (machine rt params).At start es (RelayRead rt r)

structure CheckInv (rt : Runtime) (params : Params) (es : List Event) (check : FeatureCheck) : Prop where
  ignored : check.call ≠ .notStarted → check.ignored = true
  whole : ∀ pong, check.completer = some pong → (machine rt params).At start es (PongRead rt pong)
  returns : check.call = .returned → check.twinKeys.isSome = true ∧
    ∃ pong, check.pingResponse = some pong ∧ check.completer = some pong

structure Inv (rt : Runtime) (params : Params) (es : List Event) (c : Client) : Prop where
  sole : Sole c.channel
  relay : RelayInv rt params es c.srvd
  check : CheckInv rt params es c.check
  /-- Nothing has been sent or come before the initialization. -/
  fresh : c.npt = .notStarted → c.srvd = start.srvd ∧ c.check = start.check

theorem RelayInv.later {srvd : SrvdChannel} (h : RelayInv rt params es srvd) (e : Event) :
    RelayInv rt params (es ++ [e]) srvd := by
  refine ⟨h.acked, h.returns, fun hfetched => ?_⟩
  obtain ⟨r, hr, hat⟩ := h.whole hfetched
  exact ⟨r, hr, hat.later e⟩

theorem CheckInv.later {check : FeatureCheck} (h : CheckInv rt params es check) (e : Event) :
    CheckInv rt params (es ++ [e]) check :=
  ⟨h.ignored, fun pong hpong => (h.whole pong hpong).later e, h.returns⟩

theorem Inv.started (h : Inv rt params es c) (hcall : c.check.call ≠ .notStarted ∨ c.srvd.call ≠ .notStarted) :
    c.npt ≠ .notStarted := by
  intro hnpt
  obtain ⟨hsrvd, hcheck⟩ := h.fresh hnpt
  rcases hcall with hcall | hcall
  · rw [hcheck] at hcall
    exact hcall rfl
  · rw [hsrvd] at hcall
    exact hcall rfl

/-- Of the relay's channel only where the call is changes. -/
theorem RelayInv.call {srvd : SrvdChannel} (h : RelayInv rt params es srvd) {call : Call}
    (hreturns : call = .returned → srvd.fetched = true) : RelayInv rt params es { srvd with call } :=
  ⟨h.acked, hreturns, h.whole⟩

theorem CheckInv.call {check : FeatureCheck} (h : CheckInv rt params es check) {call : Call}
    (hbefore : check.call ≠ .notStarted) (hreturns : call ≠ .returned) : CheckInv rt params es { check with call } :=
  ⟨fun _ => h.ignored hbefore, h.whole, fun hcall => absurd hcall hreturns⟩

theorem RelayInv.onNotification (h : RelayInv rt params es c.srvd)
    (hu : (machine rt params).run start es = some c) {n : AtNotification} {srvd : SrvdChannel}
    (hok : c.srvd.onNotification rt params n = .ok srvd) :
    RelayInv rt params (es ++ [.relayResponse n]) srvd := by
  obtain ⟨sender, -, hok⟩ := bind_eq_ok.mp hok
  obtain ⟨relay, -, hok⟩ := bind_eq_ok.mp hok
  split at hok
  · obtain rfl := Except.ok.inj hok
    exact h.later _
  split at hok
  · obtain rfl := Except.ok.inj hok
    exact h.later _
  rename_i hopen
  split at hok
  · obtain rfl := Except.ok.inj hok
    refine ⟨fun _ => Or.inl rfl, h.returns, fun hfetched => ?_⟩
    obtain ⟨r, hr, hat⟩ := h.whole hfetched
    exact ⟨r, hr, hat.later _⟩
  · obtain ⟨r, hr, hok⟩ := bind_eq_ok.mp hok
    obtain rfl := Except.ok.inj hok
    refine ⟨fun _ => Or.inr rfl, fun _ => rfl, fun _ => ⟨r, rfl, ?_⟩⟩
    exact Machine.At.now hu ⟨n, rfl, Bool.eq_false_iff.mpr hopen, hr⟩

theorem CheckInv.onNotification (h : CheckInv rt params es c.check)
    (hu : (machine rt params).run start es = some c) {n : AtNotification} {check : FeatureCheck}
    (hok : c.check.onNotification rt params n = .ok check) : CheckInv rt params (es ++ [.pong n]) check := by
  obtain ⟨sender, -, hok⟩ := bind_eq_ok.mp hok
  obtain ⟨daemon, -, hok⟩ := bind_eq_ok.mp hok
  split at hok
  · split at hok
    · obtain rfl := Except.ok.inj hok
      exact h.later _
    · rename_i hopen
      have hnone := Option.not_isSome_iff_eq_none.mp hopen
      obtain ⟨pong, hpong, hok⟩ := bind_eq_ok.mp hok
      obtain rfl := Except.ok.inj hok
      refine ⟨h.ignored, fun pong' heq => ?_, fun hcall => ?_⟩
      · obtain rfl := Option.some.inj heq
        exact Machine.At.now hu ⟨n, rfl, hnone, hpong⟩
      · obtain ⟨-, pong', -, hcompleter⟩ := h.returns hcall
        rw [hnone] at hcompleter
        cases hcompleter
  · obtain rfl := Except.ok.inj hok
    exact h.later _

theorem CheckInv.onPong {check : FeatureCheck} (h : CheckInv rt params es check) {pong : List (String × Json)}
    (hpong : check.completer = some pong) (hbefore : check.call ≠ .notStarted) :
    CheckInv rt params es (check.onPong pong) := by
  rw [FeatureCheck.onPong]
  dsimp only
  split
  · exact ⟨fun _ => h.ignored hbefore, h.whole, fun hcall => (by cases hcall)⟩
  · exact ⟨fun _ => h.ignored hbefore, h.whole, fun _ => ⟨rfl, pong, rfl, hpong⟩⟩

/-- An ignored future leaves its error to nobody. -/
theorem unhandled_of_ignored {check : FeatureCheck} (h : check.ignored = true) : check.unhandled = [] := by
  rw [FeatureCheck.unhandled]
  split
  · rw [if_pos h]
  · rw [if_pos h]
  · rfl

theorem Inv.relayResponse (h : Inv rt params es c) (hu : (machine rt params).run start es = some c)
    {n : AtNotification} (hstep : c.step rt params (.relayResponse n) = some c') :
    Inv rt params (es ++ [.relayResponse n]) c' ∧
      (c'.uncaught = [] ↔ c.uncaught = [] ∧ Readable rt params c (.relayResponse n)) := by
  obtain ⟨_, hguard, hstep⟩ := Option.bind_eq_some_iff.mp hstep
  have hstarted := h.started (Or.inr ((Option.guard_eq_some' _).mp hguard))
  have hread := @returns_relayListener rt params c.srvd n
  cases hlistener : c.srvd.onNotification rt params n with
  | ok srvd =>
    rw [hlistener] at hstep hread
    obtain rfl := Option.some.inj hstep
    refine ⟨⟨h.sole, h.relay.onNotification hu hlistener, h.check.later _, fun hno => absurd hno hstarted⟩, ?_⟩
    exact ⟨fun hnone => ⟨hnone, hread.mp (returns_ok srvd)⟩, fun hboth => hboth.1⟩
  | error thrown =>
    rw [hlistener] at hstep hread
    obtain rfl := Option.some.inj hstep
    refine ⟨⟨h.sole, h.relay.later _, h.check.later _, h.fresh⟩, ?_⟩
    refine iff_of_false (by simp [escape]) fun hboth => ?_
    exact not_returns_error thrown (hread.mpr hboth.2)

theorem Inv.pong (h : Inv rt params es c) (hu : (machine rt params).run start es = some c)
    {n : AtNotification} (hstep : c.step rt params (.pong n) = some c') :
    Inv rt params (es ++ [.pong n]) c' ∧
      (c'.uncaught = [] ↔ c.uncaught = [] ∧ Readable rt params c (.pong n)) := by
  obtain ⟨_, hguard, hstep⟩ := Option.bind_eq_some_iff.mp hstep
  have hstarted := h.started (Or.inl ((Option.guard_eq_some' _).mp hguard))
  split at hstep
  · rename_i hcompleted
    obtain rfl := Option.some.inj hstep
    refine ⟨⟨h.sole, h.relay.later _, h.check.later _, h.fresh⟩, fun hnone => ⟨hnone, fun hopen => ?_⟩, And.left⟩
    rw [hopen] at hcompleted
    cases hcompleted
  rename_i hopen
  have hnone := Option.not_isSome_iff_eq_none.mp hopen
  have hread := @returns_pingListener rt params c.check n hnone
  cases hlistener : c.check.onNotification rt params n with
  | ok check =>
    rw [hlistener] at hstep hread
    obtain rfl := Option.some.inj hstep
    refine ⟨⟨h.sole, h.relay.later _, h.check.onNotification hu hlistener, fun hno => absurd hno hstarted⟩, ?_⟩
    exact ⟨fun hempty => ⟨hempty, fun _ => hread.mp (returns_ok check)⟩, fun hboth => hboth.1⟩
  | error thrown =>
    rw [hlistener] at hstep hread
    obtain rfl := Option.some.inj hstep
    refine ⟨⟨h.sole, h.relay.later _, h.check.later _, h.fresh⟩, ?_⟩
    refine iff_of_false (by simp [escape]) fun hboth => ?_
    exact not_returns_error thrown (hread.mpr (hboth.2 hnone))

/-- An initialization that goes on has begun. -/
theorem afterCall_ne {call : Call} {next npt : Initialization} (h : afterCall call next = some npt)
    (hnext : next ≠ .notStarted) : npt ≠ .notStarted := by
  cases call with
  | returned =>
    obtain rfl := Option.some.inj h
    exact hnext
  | threw e =>
    obtain rfl := Option.some.inj h
    exact fun hno => by cases hno
  | timedOut =>
    obtain rfl := Option.some.inj h
    exact fun hno => by cases hno
  | notStarted | sending | waiting => cases h

/-- The check ends, its future ignored. -/
theorem Inv.endCheck (h : Inv rt params es c) {check : FeatureCheck} (e : Event)
    (hcheck : CheckInv rt params es check) (hcall : check.call ≠ .notStarted) (hstarted : c.npt ≠ .notStarted) :
    Inv rt params (es ++ [e]) (c.endCheck check) ∧ (c.endCheck check).uncaught = c.uncaught := by
  refine ⟨⟨h.sole, h.relay.later e, hcheck.later e, fun hno => absurd hno hstarted⟩, ?_⟩
  rw [Client.endCheck, unhandled_of_ignored (hcheck.ignored hcall), List.append_nil]

theorem Inv.step (h : Inv rt params es c) (hu : (machine rt params).run start es = some c)
    (hstep : c.step rt params e = some c') : Inv rt params (es ++ [e]) c' ∧
      (c'.uncaught = [] ↔ c.uncaught = [] ∧ Readable rt params c e) := by
  -- but for the two listeners no step leaves an error uncaught
  have hquiet {d : Client} (hd : Inv rt params (es ++ [e]) d ∧ d.uncaught = c.uncaught)
      (htrue : Readable rt params c e = True) : Inv rt params (es ++ [e]) d ∧
        (d.uncaught = [] ↔ c.uncaught = [] ∧ Readable rt params c e) := by
    rw [hd.2, htrue, and_true]
    exact ⟨hd.1, Iff.rfl⟩
  cases e with
  | initializeNpt =>
    obtain ⟨_, hguard, hstep⟩ := Option.bind_eq_some_iff.mp hstep
    obtain ⟨hsrvd, hcheck⟩ := h.fresh ((Option.guard_eq_some' _).mp hguard)
    obtain rfl := Option.some.inj hstep
    refine hquiet ⟨⟨h.sole, ?_, ?_, fun hno => (by cases hno)⟩, rfl⟩ rfl
    · rw [hsrvd]
      exact ⟨fun hno => (by cases hno), fun hno => (by cases hno), fun hno => (by cases hno)⟩
    · rw [hcheck]
      exact ⟨fun _ => rfl, fun _ hno => (by cases hno), fun hno => (by cases hno)⟩
  | pingSent sent =>
    refine hquiet ?_ rfl
    dsimp only [Client.step] at hstep
    split at hstep
    · rename_i hsending
      have hbefore : c.check.call ≠ .notStarted := by
        rw [hsending]
        exact fun hno => by cases hno
      have hstarted := h.started (Or.inl hbefore)
      cases sent with
      | ok _ =>
        obtain rfl := Option.some.inj hstep
        exact ⟨⟨h.sole, h.relay.later _, (h.check.later _).call hbefore fun hno => (by cases hno),
          fun hno => absurd hno hstarted⟩, rfl⟩
      | error thrown =>
        obtain rfl := Option.some.inj hstep
        exact h.endCheck _ (h.check.call hbefore fun hno => (by cases hno)) (fun hno => (by cases hno)) hstarted
    · obtain rfl := Option.some.inj hstep
      exact ⟨⟨h.sole, h.relay.later _, h.check.later _, h.fresh⟩, rfl⟩
    · cases hstep
  | pong n => exact h.pong hu hstep
  | checked timedOut =>
    refine hquiet ?_ rfl
    cases timedOut with
    | true =>
      obtain ⟨_, hguard, hstep⟩ := Option.bind_eq_some_iff.mp hstep
      have hbefore : c.check.call ≠ .notStarted := by
        intro hno
        rcases (Option.guard_eq_some' _).mp hguard with hsending | hwaiting
        · rw [hno] at hsending
          cases hsending
        · rw [hno] at hwaiting
          cases hwaiting
      obtain rfl := Option.some.inj hstep
      exact h.endCheck _ (h.check.call hbefore fun hno => (by cases hno)) (fun hno => (by cases hno))
        (h.started (Or.inl hbefore))
    | false =>
      obtain ⟨_, hguard, hstep⟩ := Option.bind_eq_some_iff.mp hstep
      obtain ⟨pong, hpong, hstep⟩ := Option.bind_eq_some_iff.mp hstep
      have hbefore : c.check.call ≠ .notStarted := by
        rw [(Option.guard_eq_some' _).mp hguard]
        exact fun hno => by cases hno
      obtain rfl := Option.some.inj hstep
      refine h.endCheck _ (h.check.onPong hpong hbefore) ?_ (h.started (Or.inl hbefore))
      rw [FeatureCheck.onPong]
      dsimp only
      split
      · exact fun hno => by cases hno
      · exact fun hno => by cases hno
  | relaySent sent =>
    obtain ⟨_, hguard, hstep⟩ := Option.bind_eq_some_iff.mp hstep
    have hcall := (Option.guard_eq_some' _).mp hguard
    have hstarted := h.started (Or.inr (by rw [hcall]; exact fun hno => by cases hno))
    refine hquiet ?_ rfl
    cases sent with
    | ok _ =>
      obtain rfl := Option.some.inj hstep
      exact ⟨⟨h.sole, (h.relay.later _).call fun hno => (by cases hno), h.check.later _,
        fun hno => absurd hno hstarted⟩, rfl⟩
    | error thrown =>
      obtain rfl := Option.some.inj hstep
      exact ⟨⟨h.sole, (h.relay.later _).call fun hno => (by cases hno), h.check.later _,
        fun hno => absurd hno hstarted⟩, rfl⟩
  | relayResponse n => exact h.relayResponse hu hstep
  | relayWaited timedOut =>
    refine hquiet ?_ rfl
    have hstarted (hcall : c.srvd.call = .waiting) : c.npt ≠ .notStarted := by
      apply h.started (Or.inr _)
      rw [hcall]
      exact fun hno => by cases hno
    cases timedOut with
    | true =>
      obtain ⟨_, hguard, hstep⟩ := Option.bind_eq_some_iff.mp hstep
      obtain rfl := Option.some.inj hstep
      exact ⟨⟨h.sole, (h.relay.later _).call fun hno => (by cases hno), h.check.later _,
        fun hno => absurd hno (hstarted ((Option.guard_eq_some' _).mp hguard))⟩, rfl⟩
    | false =>
      obtain ⟨_, hguard, hstep⟩ := Option.bind_eq_some_iff.mp hstep
      obtain ⟨_, hacked, hstep⟩ := Option.bind_eq_some_iff.mp hstep
      have hbegun := hstarted ((Option.guard_eq_some' _).mp hguard)
      split at hstep
      · obtain rfl := Option.some.inj hstep
        exact ⟨⟨h.sole, (h.relay.later _).call fun hno => (by cases hno), h.check.later _,
          fun hno => absurd hno hbegun⟩, rfl⟩
      · rename_i hnonack
        obtain rfl := Option.some.inj hstep
        have hfetched := (h.relay.acked ((Option.guard_eq_some' _).mp hacked)).resolve_left hnonack
        exact ⟨⟨h.sole, (h.relay.later _).call fun _ => hfetched, h.check.later _,
          fun hno => absurd hno hbegun⟩, rfl⟩
  | resumed published =>
    refine hquiet ?_ rfl
    dsimp only [Client.step] at hstep
    split at hstep
    · obtain ⟨npt, hnpt, hstep⟩ := Option.bind_eq_some_iff.mp hstep
      obtain rfl := Option.some.inj hstep
      refine ⟨⟨h.sole, h.relay.later _, h.check.later _, fun hno => absurd hno (afterCall_ne hnpt ?_)⟩, rfl⟩
      split
      · exact fun hno => by cases hno
      · exact fun hno => by cases hno
    · obtain ⟨npt, hnpt, hstep⟩ := Option.bind_eq_some_iff.mp hstep
      obtain rfl := Option.some.inj hstep
      exact ⟨⟨h.sole, h.relay.later _, h.check.later _,
        fun hno => absurd hno (afterCall_ne hnpt fun hno => (by cases hno))⟩, rfl⟩
    · cases hstep
  | daemon d =>
    obtain ⟨channel, hchannel, hstep⟩ := Option.bind_eq_some_iff.mp hstep
    obtain ⟨hsole, honce⟩ := h.sole.step hchannel
    obtain rfl := Option.some.inj hstep
    refine hquiet ⟨⟨hsole, h.relay.later _, h.check.later _, h.fresh⟩, ?_⟩ rfl
    simp [honce]

theorem inv_start : Inv rt params [] start := by
  refine ⟨⟨Nat.zero_le _, fun _ => ⟨rfl, rfl⟩, fun hno => (by cases hno)⟩,
    ⟨fun hno => (by cases hno), fun hno => (by cases hno), fun hno => (by cases hno)⟩,
    ⟨fun hno => absurd rfl hno, fun _ hno => (by cases hno), fun hno => (by cases hno)⟩, fun _ => ⟨rfl, rfl⟩⟩

/-- Over a run: the invariant, and no error uncaught just when everything that was to be read could be. -/
theorem inv_run {t : Client} (hr : (machine rt params).run start es = some t) :
    Inv rt params es t ∧ (t.uncaught = [] ↔ (machine rt params).Meets (Readable rt params) start es) := by
  refine Machine.run_induction (machine rt params) (I := fun es t => Inv rt params es t ∧
    (t.uncaught = [] ↔ (machine rt params).Meets (Readable rt params) start es)) ?_ ?_ hr
  · exact ⟨inv_start, iff_of_true rfl trivial⟩
  · intro es e u v hu h hstep
    obtain ⟨hinv, hcaught⟩ := h.1.step hu hstep
    refine ⟨hinv, ?_⟩
    rw [hcaught, h.2, Machine.meets_concat]
    refine and_congr_right fun _ => ⟨fun hread w hw => ?_, fun hread => hread u hu⟩
    rw [← Option.some.inj (hu.symm.trans hw)]
    exact hread

theorem upheld_iff {t : Client} (hr : (machine rt params).run start es = some t) :
    Upheld rt params es t ↔ (machine rt params).Meets (Readable rt params) start es := by
  obtain ⟨h, hcaught⟩ := inv_run hr
  rw [← hcaught]
  refine ⟨fun hupheld => hupheld.contained, fun hcontained => ?_⟩
  constructor
  · exact hcontained
  · intro hcall
    refine ⟨{ t with srvd := { t.srvd with call := .timedOut } }, ?_, rfl⟩
    simp [step, hcall]
  · intro hcall
    refine ⟨t.endCheck { t.check with call := .timedOut }, ?_, rfl⟩
    simp [step, hcall]
  · intro w hw
    obtain ⟨hlt, -⟩ := List.getElem?_eq_some_iff.mp hw
    have hchannel : t.channel.step rt.toRuntime params.toParams (.waited w true) =
        some { t.channel with waiters := t.channel.waiters.set w t.channel.onWaited } := by
      simp [SshnpdChannel.Channel.step, hw]
    refine ⟨{ t with channel := { t.channel with waiters := t.channel.waiters.set w t.channel.onWaited } }, ?_, ?_⟩
    · simp [step, hchannel, completesTwice]
    · simp only [List.getElem?_set_self hlt, SshnpdChannel.Channel.onWaited]
      split
      · exact fun hno => by cases hno
      · exact fun hno => by cases hno
  · intro e published hcall hnpt
    exact ⟨{ t with npt := .threw e }, by simp [step, hnpt, hcall, afterCall], rfl⟩
  · intro e published hcall hnpt
    exact ⟨{ t with npt := .threw e }, by simp [step, hnpt, hcall, afterCall], rfl⟩
  · exact h.relay.returns
  · exact h.relay.whole
  · intro hcall
    obtain ⟨htwin, pong, hresponse, hcompleter⟩ := h.check.returns hcall
    exact ⟨htwin, pong, hresponse, h.check.whole pong hcompleter⟩

/-- A client whose texts are not JSON. -/
def plain : Runtime :=
  { jsonDecode := fun _ => none, jsonEncode := fun _ => "", rsaVerifyString := fun _ _ _ _ => none
    rsaDecryptString := fun _ => none, eventConfig := fun _ => none, fixAtSign := id
    intParse := fun s => if s = "80" then .ok 80 else .error (.other "FormatException"), toAtsign := .ok }

def session : Params :=
  { sshnpdAtSign := "@daemon", sessionId := "s1", encryptRvdTraffic := true, twinKeys := true, srvdAtSign := "@relay" }

def relayNotification (value : Option String) : AtNotification :=
  ⟨"1", "@client:s1.sshrvd@relay", "@relay", "@client", value⟩

def answered : List Event :=
  [.initializeNpt, .relaySent (.ok ()), .relayResponse (relayNotification (some "host,80,80,nonce")), .relayWaited false,
    .resumed (.ok ())]

/-- The relay's channel that waits. -/
def waiting : SrvdChannel := ⟨false, false, .notAcknowledged, "", none, .waiting⟩

theorem run_answered : (machine plain session).run start answered = some { start with
    npt := .features
    check := ⟨none, none, none, .sending, true⟩
    srvd := ⟨true, true, .acknowledged, "", some ⟨"host", 80, 80, "nonce", false, false⟩, .returned⟩ } := by
  have hlistener : waiting.onNotification plain session (relayNotification (some "host,80,80,nonce")) =
      .ok ⟨true, true, .acknowledged, "", some ⟨"host", 80, 80, "nonce", false, false⟩, .waiting⟩ := by
    decide +kernel
  rw [waiting] at hlistener
  simp [answered, Machine.run_cons, machine, step, start, hlistener, afterCall]

theorem upheld_answered : ∃ t, (machine plain session).run start answered = some t ∧ t.srvd.call = .returned ∧
    Upheld plain session answered t :=
  ⟨_, run_answered, rfl, (upheld_iff run_answered).mpr ((inv_run run_answered).2.mp rfl)⟩

/-- A relay's response without a value. -/
def valueless : List Event := [.initializeNpt, .relaySent (.ok ()), .relayResponse (relayNotification none)]

theorem valueless_not_upheld : ∃ t, (machine plain session).run start valueless = some t ∧
    ¬Upheld plain session valueless t := by
  have hlistener : waiting.onNotification plain session (relayNotification none) = .error (.other "RangeError") := by
    decide +kernel
  refine ⟨{ start with
    npt := .relay
    check := ⟨none, none, none, .sending, true⟩
    srvd := waiting
    uncaught := [.other "RangeError"] }, ?_, fun h => ?_⟩
  · rw [waiting] at hlistener ⊢
    simp [valueless, Machine.run_cons, machine, step, start, hlistener, escape]
  · cases h.contained

end Client
end NoPorts.ClientResponses
