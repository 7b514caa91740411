import NoPorts.EnrollmentSignature
import NoPorts.Lib.Except
import NoPorts.Lib.Machine

/-! The client's channel to the daemon: the daemon's response, and the session keys in it. -/
namespace NoPorts.SshnpdChannel
open Lib Signing

inductive SshnpdAck where
  | acknowledged
  | acknowledgedWithErrors
  | notAcknowledged
  deriving DecidableEq, Repr

structure AtNotification where
  value : Option String
  deriving DecidableEq, Repr

structure AtEventConfig where
  atSign : String
  topic : String
  ttln : ℤ
  deriving DecidableEq, Repr

/-- What the channel calls; `none` is a throw. -/
structure Runtime where
  jsonDecode : String → Option Json
  jsonEncode : Json → String
  rsaVerifyString : (data signature publicKey : String) → HashingAlgoType → Option Bool
  /-- With the session's own key pair. -/
  rsaDecryptString : String → Option String
  eventConfig : Json → Option AtEventConfig
  fixAtSign : String → String

structure Params where
  sshnpdAtSign : String
  sessionId : String
  encryptRvdTraffic : Bool
  twinKeys : Bool

/-- A response of the right form. -/
structure Response where
  signature : String
  hashingAlgo : String
  signingAlgo : String
  payload : List (String × Json)
  sessionId : String

structure Keys where
  ephemeralPrivateKey : Option String
  aesC2D : Option String
  ivC2D : Option String
  aesD2C : Option String
  ivD2C : Option String
  deriving DecidableEq, Repr

/-- Where `handleSshnpdPayload` is. -/
inductive PayloadPc where
  /-- At `getRemotePK`. -/
  | fetching (response : Response) (hashing : HashingAlgoType)
  /-- At `rsaVerifyString`. -/
  | verifying (response : Response) (hashing : HashingAlgoType) (pk : String)
  /-- With what it returned, or `none` when it threw. -/
  | returned (ack : Option SshnpdAck)
  | done

/-- A notification that `handleSshnpdResponses` took for the response. -/
structure Handler where
  notification : AtNotification
  pc : PayloadPc

/-- Where a `waitForDaemonResponse` is. -/
inductive Waiter where
  | waiting
  | logging
  | returned (ack : SshnpdAck)
  | threw
  deriving DecidableEq, Repr

structure Channel where
  sshnpdAck : SshnpdAck
  errorReceived : Option String
  eventLoggingConfig : Option AtEventConfig
  keys : Keys
  responded : Bool
  /-- `acked` has completed. -/
  acked : Bool
  handlers : List Handler
  waiters : List Waiter

inductive Event where
  | deliver (notification : AtNotification)
  /-- `getRemotePK` ends, with what the atServers hold under each key. -/
  | fetched (handler : ℕ) (server : String → Option String)
  /-- `rsaVerifyString` ends. -/
  | verified (handler : ℕ)
  /-- `handleSshnpdResponses` goes on. -/
  | resumed (handler : ℕ)
  | wait
  /-- A `waitForDaemonResponse` goes on, timed out or not. -/
  | waited (waiter : ℕ) (timedOut : Bool)
  | logged (waiter : ℕ) (threw : Bool)

/-! ### A response -/

/-- `String?` of a decoded value; anything else throws. -/
def text : Json → Option (Option String)
  | .null => some none
  | .str s => some (some s)
  | _ => none

/-- A value that has had two names. -/
def either (payload : List (String × Json)) (old new : String) : Json :=
  match Json.field payload old with
  | .null => Json.field payload new
  | v => v

namespace Runtime
variable (rt : Runtime)

/-- The session the notification's payload names. -/
def namedSession (notification : AtNotification) : Option String := do
  let decoded ← rt.jsonDecode (notification.value.getD "")
  let fields ← decoded.obj?
  let payload ← (Json.field fields "payload").obj?
  (Json.field payload "sessionId").str?

def isForAnotherSession (params : Params) (notification : AtNotification) : Bool :=
  match rt.namedSession notification with
  | some id => id != params.sessionId
  | none => false

/-- The checks of `handleSshnpdPayload` on the form of a response. -/
def readEnvelope (value : String) : Option Response := do
  let decoded ← rt.jsonDecode value
  let envelope ← decoded.obj?
  let signature ← (Json.field envelope "signature").str?
  let hashingAlgo ← (Json.field envelope "hashingAlgo").str?
  let signingAlgo ← (Json.field envelope "signingAlgo").str?
  let payload ← (Json.field envelope "payload").obj?
  let sessionId ← (Json.field payload "sessionId").str?
  return ⟨signature, hashingAlgo, signingAlgo, payload, sessionId⟩

/-- The record that `getRemotePK` looks up. -/
def publicKeyRecord (params : Params) : String := "public:publickey" ++ rt.fixAtSign params.sshnpdAtSign

/-- What a throw leaves of the channel is as far as it was read. -/
def orThrow {α : Type} (c : Channel) : Option α → Except Channel α
  | some a => .ok a
  | none => .error c

/-- A session key and its IV, when the response has both. -/
def decryptPair (c : Channel) (setKey setIv : Keys → String → Keys) :
    Option String → Option String → Except Channel Channel
  | some key, some iv => do
    let aes ← orThrow c (rt.rsaDecryptString key)
    let c := { c with keys := setKey c.keys aes }
    let iv ← orThrow c (rt.rsaDecryptString iv)
    return { c with keys := setIv c.keys iv }
  | _, _ => return c

/-- `handleSshnpdPayload` once the signature is verified. -/
def readResponse (payload : List (String × Json)) (c : Channel) : Except Channel Channel := do
  let ephemeralPrivateKey ← orThrow c (text (Json.field payload "ephemeralPrivateKey"))
  let c := { c with keys := { c.keys with ephemeralPrivateKey } }
  let aesKeyC2DEncrypted ← orThrow c (text (either payload "sessionAESKey" "aesKeyC2D"))
  let ivC2DEncrypted ← orThrow c (text (either payload "sessionIV" "ivC2D"))
  let c ← rt.decryptPair c (fun keys aes => { keys with aesC2D := some aes })
    (fun keys iv => { keys with ivC2D := some iv }) aesKeyC2DEncrypted ivC2DEncrypted
  let aesKeyD2CEncrypted ← orThrow c (text (Json.field payload "aesKeyD2C"))
  let ivD2CEncrypted ← orThrow c (text (Json.field payload "ivD2C"))
  let c ← rt.decryptPair c (fun keys aes => { keys with aesD2C := some aes })
    (fun keys iv => { keys with ivD2C := some iv }) aesKeyD2CEncrypted ivD2CEncrypted
  let elcJson := Json.field payload "eventLoggingConfig"
  if elcJson.isNull then return c
  else
    let eventLoggingConfig ← orThrow c (rt.eventConfig elcJson)
    return { c with eventLoggingConfig := some eventLoggingConfig }

end Runtime

/-- The checks of `verifyEnvelopeSignature` before its lookup. -/
def Response.hashing? (r : Response) : Option HashingAlgoType := do
  let hashingAlgo ← HashingAlgoType.byName? r.hashingAlgo
  let signingAlgo ← SigningAlgoType.byName? r.signingAlgo
  guard (signingAlgo = .rsa2048)
  return hashingAlgo

namespace Channel
variable (rt : Runtime) (params : Params)

/-- `handleSshnpdPayload` up to its first await. -/
def handleSshnpdPayload (c : Channel) (notification : AtNotification) : Channel × PayloadPc :=
  match notification.value with
  | none => ({ c with errorReceived := none }, .returned (some .acknowledgedWithErrors))
  | some value =>
    if value.toList.head? ≠ some '\x7b' then
      ({ c with errorReceived := some value }, .returned (some .acknowledgedWithErrors))
    else
      match rt.readEnvelope value with
      | none => (c, .returned (some .acknowledgedWithErrors))
      | some response =>
        match response.hashing? with
        | none => (c, .returned (some .acknowledgedWithErrors))
        | some hashing => (c, .fetching response hashing)

def handleSshnpdResponses (c : Channel) (notification : AtNotification) : Channel :=
  if c.responded then c
  else if rt.isForAnotherSession params notification then c
  else
    let (c, pc) := handleSshnpdPayload rt { c with responded := true } notification
    { c with handlers := c.handlers ++ [⟨notification, pc⟩] }

def setPc (c : Channel) (i : ℕ) (h : Handler) (pc : PayloadPc) : Channel :=
  { c with handlers := c.handlers.set i { h with pc } }

/-- After `getRemotePK`. -/
def onFetched (c : Channel) (i : ℕ) (h : Handler) (response : Response) (hashing : HashingAlgoType)
    (server : String → Option String) : Channel :=
  match server (rt.publicKeyRecord params) with
  | none => c.setPc i h (.returned (some .acknowledgedWithErrors))
  | some pk => c.setPc i h (.verifying response hashing pk)

/-- Whether the signature of the response verifies; it does not when the verification throws. -/
def verifies (response : Response) (hashing : HashingAlgoType) (pk : String) : Bool :=
  rt.rsaVerifyString (rt.jsonEncode (.obj response.payload)) response.signature pk hashing == some true

/-- After `rsaVerifyString`. -/
def onVerified (c : Channel) (i : ℕ) (h : Handler) (response : Response) (hashing : HashingAlgoType)
    (pk : String) : Channel :=
  if verifies rt response hashing pk then
    match rt.readResponse response.payload c with
    | .ok c => c.setPc i h (.returned (some .acknowledged))
    | .error c => c.setPc i h (.returned none)
  else c.setPc i h (.returned (some .acknowledgedWithErrors))

/-- `handleSshnpdResponses` after `handleSshnpdPayload`. -/
def onResumed (c : Channel) (i : ℕ) (h : Handler) : Option SshnpdAck → Channel
  | some ack => { c.setPc i h .done with sshnpdAck := ack, acked := true }
  | none => { c.setPc i h .done with
      errorReceived := some "Failed to read the daemon's response"
      sshnpdAck := .acknowledgedWithErrors
      acked := true }

/-- `waitForDaemonResponse` after its wait. -/
def onWaited (c : Channel) : Waiter :=
  if c.eventLoggingConfig.isSome && c.sshnpdAck = .acknowledged then .logging
  else .returned c.sshnpdAck

def step (c : Channel) : Event → Option Channel
  | .deliver notification => some (c.handleSshnpdResponses rt params notification)
  | .fetched i server => do
    let h ← c.handlers[i]?
    match h.pc with
    | .fetching response hashing => return c.onFetched rt params i h response hashing server
    | _ => none
  | .verified i => do
    let h ← c.handlers[i]?
    match h.pc with
    | .verifying response hashing pk => return c.onVerified rt i h response hashing pk
    | _ => none
  | .resumed i => do
    let h ← c.handlers[i]?
    match h.pc with
    | .returned ack => return c.onResumed i h ack
    | _ => none
  | .wait => some { c with waiters := c.waiters ++ [.waiting] }
  | .waited w timedOut => do
    guard (c.waiters[w]? = some .waiting)
    guard (timedOut = true ∨ c.acked = true)
    return { c with waiters := c.waiters.set w c.onWaited }
  | .logged w threw => do
    guard (c.waiters[w]? = some .logging)
    return { c with waiters := c.waiters.set w (if threw then .threw else .returned c.sshnpdAck) }

def machine : Machine Channel Event := ⟨step rt params⟩

def noKeys : Keys := ⟨none, none, none, none, none⟩

def start : Channel := ⟨.notAcknowledged, none, none, noKeys, false, false, [], []⟩

/-! ### What is to hold -/

/-- A key and its IV as decrypted, or neither. -/
def pairOf (key iv : Json) : Option String × Option String :=
  match text key, text iv with
  | some (some key), some (some iv) => (rt.rsaDecryptString key, rt.rsaDecryptString iv)
  | _, _ => (none, none)

/-- The keys in a response. -/
def keysOf (payload : List (String × Json)) : Keys :=
  let c2d := pairOf rt (either payload "sessionAESKey" "aesKeyC2D") (either payload "sessionIV" "ivC2D")
  let d2c := pairOf rt (Json.field payload "aesKeyD2C") (Json.field payload "ivD2C")
  ⟨(Json.field payload "ephemeralPrivateKey").str?, c2d.1, c2d.2, d2c.1, d2c.2⟩

/-- A response to this session that has come, and verifies under the daemon's public key. -/
structure Accepted (es : List Event) (notification : AtNotification) (response : Response) : Prop where
  delivered : (machine rt params).At start es fun c e => e = .deliver notification ∧ c.responded = false
  read : ∃ value, notification.value = some value ∧ rt.readEnvelope value = some response
  session : response.sessionId = params.sessionId
  verified : ∃ pk hashing, response.hashing? = some hashing ∧
    ((machine rt params).At start es fun _ e => ∃ i server, e = .fetched i server ∧
      server (rt.publicKeyRecord params) = some pk) ∧
    verifies rt response hashing pk = true

/-- The session keys that the session was requested with are there. -/
def HasKeys (keys : Keys) : Prop :=
  params.encryptRvdTraffic = true → keys.aesC2D.isSome = true ∧ keys.ivC2D.isSome = true ∧
    (params.twinKeys = true → keys.aesD2C.isSome = true ∧ keys.ivD2C.isSome = true)

structure Trusted (es : List Event) (t : Channel) : Prop where
  acknowledged : t.sshnpdAck = .acknowledged → ∃ notification response,
    t.handlers.map (·.notification) = [notification] ∧ Accepted rt params es notification response ∧
    t.keys = keysOf rt response.payload
  foreign : ∀ (c : Channel) notification, rt.isForAnotherSession params notification = true →
    c.step rt params (.deliver notification) = some c
  used : t.responded = true → (machine rt params).At start es fun _ e =>
    ∃ notification, e = .deliver notification ∧ rt.isForAnotherSession params notification = false
  answered : .returned .acknowledged ∈ t.waiters → t.sshnpdAck = .acknowledged
  hasKeys : t.sshnpdAck = .acknowledged → HasKeys params t.keys

/-! ### The condition -/

def readablePair (key iv : Json) : Bool :=
  match text key, text iv with
  | some (some key), some (some iv) =>
    (rt.rsaDecryptString key).isSome && (rt.rsaDecryptString iv).isSome
  | some _, some _ => true
  | _, _ => false

/-- Everything in a response can be read. -/
def readable (payload : List (String × Json)) : Bool :=
  let elcJson := Json.field payload "eventLoggingConfig"
  (text (Json.field payload "ephemeralPrivateKey")).isSome &&
    readablePair rt (either payload "sessionAESKey" "aesKeyC2D") (either payload "sessionIV" "ivC2D") &&
    readablePair rt (Json.field payload "aesKeyD2C") (Json.field payload "ivD2C") &&
    (elcJson.isNull || (rt.eventConfig elcJson).isSome)

/-- A response with the keys that the session was requested with. -/
def Owed (payload : List (String × Json)) : Prop :=
  params.encryptRvdTraffic = true →
    (either payload "sessionAESKey" "aesKeyC2D").isNull = false ∧
    (either payload "sessionIV" "ivC2D").isNull = false ∧
    (params.twinKeys = true → (Json.field payload "aesKeyD2C").isNull = false ∧
      (Json.field payload "ivD2C").isNull = false)

/-- A response that verifies and can be read has the keys it owes. -/
def Carries (c : Channel) (e : Event) : Prop :=
  ∀ i h response hashing pk, e = .verified i → c.handlers[i]? = some h →
    h.pc = .verifying response hashing pk → verifies rt response hashing pk = true →
    readable rt response.payload = true → Owed params response.payload

/-! ### The invariant -/

/-- A response to this session that has come. -/
structure Begun (es : List Event) (notification : AtNotification) (response : Response)
    (hashing : HashingAlgoType) : Prop where
  delivered : (machine rt params).At start es fun c e => e = .deliver notification ∧ c.responded = false
  read : ∃ value, notification.value = some value ∧ rt.readEnvelope value = some response
  session : response.sessionId = params.sessionId
  hashing : response.hashing? = some hashing

/-- The daemon's public key, as it was looked up. -/
def Fetched (es : List Event) (pk : String) : Prop :=
  (machine rt params).At start es fun _ e => ∃ i server, e = .fetched i server ∧
    server (rt.publicKeyRecord params) = some pk

/-- What there is to an acknowledgement. -/
def Acknowledged (es : List Event) (keys : Keys) (notification : AtNotification) : Prop :=
  ∃ response, Accepted rt params es notification response ∧ keys = keysOf rt response.payload ∧
    HasKeys params keys

/-- What is known where the handling of a response is. -/
def Phase (es : List Event) (c : Channel) (notification : AtNotification) : PayloadPc → Prop
  | .fetching response hashing => c.sshnpdAck = .notAcknowledged ∧ c.keys = noKeys ∧
      Begun rt params es notification response hashing
  | .verifying response hashing pk => c.sshnpdAck = .notAcknowledged ∧ c.keys = noKeys ∧
      Begun rt params es notification response hashing ∧ Fetched rt params es pk
  | .returned ack => c.sshnpdAck = .notAcknowledged ∧
      (ack = some .acknowledged → Acknowledged rt params es c.keys notification)
  | .done => c.sshnpdAck = .acknowledged → Acknowledged rt params es c.keys notification

/-- No response has been taken. -/
structure Idle (c : Channel) : Prop where
  handlers : c.handlers = []
  responded : c.responded = false
  keys : c.keys = noKeys
  sshnpdAck : c.sshnpdAck = .notAcknowledged

/-- One has, and this is its handler. -/
structure Handling (es : List Event) (c : Channel) (h : Handler) : Prop where
  handlers : c.handlers = [h]
  responded : c.responded = true
  phase : Phase rt params es c h.notification h.pc
  used : (machine rt params).At start es fun _ e =>
    ∃ notification, e = .deliver notification ∧ rt.isForAnotherSession params notification = false

structure Inv (es : List Event) (c : Channel) : Prop where
  handler : Idle c ∨ ∃ h, Handling rt params es c h
  answered : .returned .acknowledged ∈ c.waiters → c.sshnpdAck = .acknowledged

/-! ### Reading a response -/

variable {rt : Runtime} {params : Params}

theorem orThrow_ok {α : Type} {c : Channel} {o : Option α} {a : α} :
    Runtime.orThrow c o = .ok a ↔ o = some a := by
  cases o with
  | none => exact iff_of_false (fun h => by cases h) fun h => by cases h
  | some b => exact ⟨fun h => congrArg some (Except.ok.inj h), fun h => congrArg Except.ok (Option.some.inj h)⟩

theorem decryptPair_ok {c c' : Channel} {setKey setIv : Keys → String → Keys} {key iv : Option String}
    (h : rt.decryptPair c setKey setIv key iv = .ok c') :
    (∃ k v aes d, key = some k ∧ iv = some v ∧ rt.rsaDecryptString k = some aes ∧
      rt.rsaDecryptString v = some d ∧ c' = { c with keys := setIv (setKey c.keys aes) d }) ∨
    ((key = none ∨ iv = none) ∧ c' = c) := by
  cases key with
  | none => exact Or.inr ⟨Or.inl rfl, (Except.ok.inj h).symm⟩
  | some k =>
    cases iv with
    | none => exact Or.inr ⟨Or.inr rfl, (Except.ok.inj h).symm⟩
    | some v =>
      obtain ⟨aes, haes, h⟩ := bind_eq_ok.mp h
      obtain ⟨d, hd, h⟩ := bind_eq_ok.mp h
      exact Or.inl ⟨k, v, aes, d, rfl, rfl, orThrow_ok.mp haes, orThrow_ok.mp hd, (Except.ok.inj h).symm⟩

/-- A pair that could be read, and what it leaves in two fields that were unset. -/
theorem decryptPair_pairOf {c c' : Channel} {setKey setIv : Keys → String → Keys} {key iv : Json}
    {key' iv' : Option String} (hkey : text key = some key') (hiv : text iv = some iv')
    (h : rt.decryptPair c setKey setIv key' iv' = .ok c') :
    readablePair rt key iv = true ∧
      ((pairOf rt key iv = (none, none) ∧ c' = c) ∨ ∃ aes d, pairOf rt key iv = (some aes, some d) ∧
        c' = { c with keys := setIv (setKey c.keys aes) d }) := by
  rcases decryptPair_ok h with ⟨k, v, aes, d, rfl, rfl, haes, hd, rfl⟩ | ⟨hnone, rfl⟩
  · refine ⟨?_, Or.inr ⟨aes, d, ?_, rfl⟩⟩
    · simp only [readablePair, hkey, hiv, haes, hd, Option.isSome_some, Bool.and_self]
    · simp only [pairOf, hkey, hiv, haes, hd]
  · rcases hnone with rfl | rfl
    · refine ⟨?_, Or.inl ⟨?_, rfl⟩⟩
      · simp only [readablePair, hkey, hiv]
      · simp only [pairOf, hkey]
    · refine ⟨?_, Or.inl ⟨?_, rfl⟩⟩
      · simp only [readablePair, hkey, hiv]
      · simp only [pairOf, hkey, hiv]

theorem isNull_of_text {v : Json} (h : text v = some none) : v.isNull = true := by
  cases v <;> first | rfl | cases h

theorem text_str? {v : Json} {s : Option String} (h : text v = some s) : v.str? = s := by
  cases v with
  | null => exact Option.some.inj h
  | str x => exact Option.some.inj h
  | bool b => cases h
  | int n => cases h
  | double q => cases h
  | arr items => cases h
  | obj fields => cases h

theorem readResponse_ok {payload : List (String × Json)} {c c' : Channel} (hfresh : c.keys = noKeys)
    (h : rt.readResponse payload c = .ok c') : readable rt payload = true ∧
      ∃ config, c' = { c with keys := keysOf rt payload, eventLoggingConfig := config } := by
  obtain ⟨ephemeral, hephemeral, h⟩ := bind_eq_ok.mp h
  obtain ⟨key, hkey, h⟩ := bind_eq_ok.mp h
  obtain ⟨iv, hiv, h⟩ := bind_eq_ok.mp h
  obtain ⟨c1, hc1, h⟩ := bind_eq_ok.mp h
  obtain ⟨key', hkey', h⟩ := bind_eq_ok.mp h
  obtain ⟨iv', hiv', h⟩ := bind_eq_ok.mp h
  obtain ⟨c2, hc2, h⟩ := bind_eq_ok.mp h
  obtain ⟨hread1, hpair1⟩ := decryptPair_pairOf (orThrow_ok.mp hkey) (orThrow_ok.mp hiv) hc1
  obtain ⟨hread2, hpair2⟩ := decryptPair_pairOf (orThrow_ok.mp hkey') (orThrow_ok.mp hiv') hc2
  have htext := orThrow_ok.mp hephemeral
  have hkeys : c2 = { c with keys := keysOf rt payload } := by
    rcases hpair1 with ⟨hp1, rfl⟩ | ⟨aes, d, hp1, rfl⟩ <;>
      rcases hpair2 with ⟨hp2, rfl⟩ | ⟨aes', d', hp2, rfl⟩ <;>
      simp only [keysOf, hp1, hp2, text_str? htext, hfresh, noKeys]
  have hconfig : ((Json.field payload "eventLoggingConfig").isNull ||
        (rt.eventConfig (Json.field payload "eventLoggingConfig")).isSome) = true ∧
      ∃ config, c' = { c2 with eventLoggingConfig := config } := by
    dsimp only at h
    split at h
    · rename_i hnull
      exact ⟨by rw [hnull, Bool.true_or], c2.eventLoggingConfig, (Except.ok.inj h).symm⟩
    · obtain ⟨config, hconfig, h⟩ := bind_eq_ok.mp h
      rw [orThrow_ok.mp hconfig]
      exact ⟨Bool.or_true _, some config, (Except.ok.inj h).symm⟩
  obtain ⟨hlogged, config, rfl⟩ := hconfig
  refine ⟨?_, config, by rw [hkeys]⟩
  simp only [readable, htext, hread1, hread2, hlogged, Option.isSome_some, Bool.and_self]

theorem isSome_pairOf {key iv : Json} (h : readablePair rt key iv = true) (hkey : key.isNull = false)
    (hiv : iv.isNull = false) : (pairOf rt key iv).1.isSome = true ∧ (pairOf rt key iv).2.isSome = true := by
  have hthere {v : Json} (hv : v.isNull = false) : text v ≠ some none := by
    intro htext
    rw [isNull_of_text htext] at hv
    cases hv
  rcases hk : text key with _ | _ | k
  · simp only [readablePair, hk, Bool.false_eq_true] at h
  · exact absurd hk (hthere hkey)
  · rcases hv : text iv with _ | _ | v
    · simp only [readablePair, hk, hv, Bool.false_eq_true] at h
    · exact absurd hv (hthere hiv)
    · simp only [readablePair, hk, hv, Bool.and_eq_true] at h
      simp only [pairOf, hk, hv]
      exact h

/-- A response that can be read and has the keys it owes leaves them in the channel. -/
theorem hasKeys_of_owed {payload : List (String × Json)} (h : readable rt payload = true)
    (howed : Owed params payload) : HasKeys params (keysOf rt payload) := by
  intro hencrypt
  obtain ⟨hkey, hiv, htwin⟩ := howed hencrypt
  simp only [readable, Bool.and_eq_true] at h
  obtain ⟨⟨⟨-, hc2d⟩, hd2c⟩, -⟩ := h
  obtain ⟨haes, hivs⟩ := isSome_pairOf hc2d hkey hiv
  refine ⟨haes, hivs, fun htwins => ?_⟩
  obtain ⟨hkey', hiv'⟩ := htwin htwins
  exact isSome_pairOf hd2c hkey' hiv'

/-! ### Runs -/

variable {es : List Event} {c : Channel}

theorem Begun.later {notification : AtNotification} {response : Response} {hashing : HashingAlgoType}
    (h : Begun rt params es notification response hashing) (e : Event) :
    Begun rt params (es ++ [e]) notification response hashing :=
  ⟨h.delivered.later e, h.read, h.session, h.hashing⟩

theorem Acknowledged.later {keys : Keys} {notification : AtNotification}
    (h : Acknowledged rt params es keys notification) (e : Event) :
    Acknowledged rt params (es ++ [e]) keys notification := by
  obtain ⟨response, haccepted, hkeys⟩ := h
  obtain ⟨pk, hashing, hhashing, hfetched, hverifies⟩ := haccepted.verified
  exact ⟨response, ⟨haccepted.delivered.later e, haccepted.read, haccepted.session,
    pk, hashing, hhashing, hfetched.later e, hverifies⟩, hkeys⟩

/-- What is known depends on the acknowledgement and the keys alone. -/
theorem Phase.later {notification : AtNotification} {pc : PayloadPc} {c' : Channel}
    (h : Phase rt params es c notification pc) (e : Event) (hack : c'.sshnpdAck = c.sshnpdAck)
    (hkeys : c'.keys = c.keys) : Phase rt params (es ++ [e]) c' notification pc := by
  cases pc with
  | fetching response hashing => exact ⟨hack.trans h.1, hkeys.trans h.2.1, h.2.2.later e⟩
  | verifying response hashing pk =>
    exact ⟨hack.trans h.1, hkeys.trans h.2.1, h.2.2.1.later e, h.2.2.2.later e⟩
  | returned ack =>
    refine ⟨hack.trans h.1, fun hok => ?_⟩
    rw [hkeys]
    exact (h.2 hok).later e
  | done =>
    intro hok
    rw [hkeys]
    exact (h (hack.symm.trans hok)).later e

theorem Handling.later {h : Handler} {c' : Channel} (hh : Handling rt params es c h) (e : Event)
    (hhandlers : c'.handlers = c.handlers) (hresponded : c'.responded = c.responded)
    (hack : c'.sshnpdAck = c.sshnpdAck) (hkeys : c'.keys = c.keys) :
    Handling rt params (es ++ [e]) c' h :=
  ⟨hhandlers.trans hh.handlers, hresponded.trans hh.responded, hh.phase.later e hack hkeys, hh.used.later e⟩

/-- A step that leaves the handling of the response alone. -/
theorem Inv.frame {c' : Channel} (h : Inv rt params es c) (e : Event) (hhandlers : c'.handlers = c.handlers)
    (hresponded : c'.responded = c.responded) (hack : c'.sshnpdAck = c.sshnpdAck) (hkeys : c'.keys = c.keys)
    (hwaiters : .returned .acknowledged ∈ c'.waiters → .returned .acknowledged ∈ c.waiters ∨
      c.sshnpdAck = .acknowledged) : Inv rt params (es ++ [e]) c' := by
  constructor
  · rcases h.handler with hidle | ⟨h, hh⟩
    · exact Or.inl ⟨hhandlers.trans hidle.handlers, hresponded.trans hidle.responded,
        hkeys.trans hidle.keys, hack.trans hidle.sshnpdAck⟩
    · exact Or.inr ⟨h, hh.later e hhandlers hresponded hack hkeys⟩
  · intro hmem
    rw [hack]
    rcases hwaiters hmem with hold | hnow
    · exact h.answered hold
    · exact hnow

/-- The handler a step finds is the one there is. -/
theorem Inv.handling (h : Inv rt params es c) {i : ℕ} {found : Handler} (hi : c.handlers[i]? = some found) :
    i = 0 ∧ Handling rt params es c found := by
  rcases h.handler with hidle | ⟨h, hh⟩
  · rw [hidle.handlers] at hi
    cases hi
  · rw [hh.handlers] at hi
    cases i with
    | zero => exact ⟨rfl, Option.some.inj hi ▸ hh⟩
    | succ i => cases hi

/-! ### What each step keeps -/

theorem namedSession_of_read {notification : AtNotification} {value : String} {response : Response}
    (hvalue : notification.value = some value) (h : rt.readEnvelope value = some response) :
    rt.namedSession notification = some response.sessionId := by
  obtain ⟨decoded, hdecoded, h⟩ := Option.bind_eq_some_iff.mp h
  obtain ⟨envelope, henvelope, h⟩ := Option.bind_eq_some_iff.mp h
  obtain ⟨signature, -, h⟩ := Option.bind_eq_some_iff.mp h
  obtain ⟨hashingAlgo, -, h⟩ := Option.bind_eq_some_iff.mp h
  obtain ⟨signingAlgo, -, h⟩ := Option.bind_eq_some_iff.mp h
  obtain ⟨payload, hpayload, h⟩ := Option.bind_eq_some_iff.mp h
  obtain ⟨sessionId, hsession, h⟩ := Option.bind_eq_some_iff.mp h
  obtain rfl := Option.some.inj h
  apply Option.bind_eq_some_iff.mpr
  refine ⟨decoded, by rw [hvalue]; exact hdecoded, ?_⟩
  apply Option.bind_eq_some_iff.mpr
  refine ⟨envelope, henvelope, ?_⟩
  apply Option.bind_eq_some_iff.mpr
  exact ⟨payload, hpayload, hsession⟩

theorem handleSshnpdPayload_cases (c : Channel) (notification : AtNotification) :
    (∃ errorReceived, handleSshnpdPayload rt c notification =
      ({ c with errorReceived }, .returned (some .acknowledgedWithErrors))) ∨
    ∃ value response hashing, notification.value = some value ∧ rt.readEnvelope value = some response ∧
      response.hashing? = some hashing ∧
      handleSshnpdPayload rt c notification = (c, .fetching response hashing) := by
  rw [handleSshnpdPayload]
  cases hvalue : notification.value with
  | none => exact Or.inl ⟨none, rfl⟩
  | some value =>
    dsimp only
    split
    · exact Or.inl ⟨some value, rfl⟩
    · cases hread : rt.readEnvelope value with
      | none => exact Or.inl ⟨c.errorReceived, rfl⟩
      | some response =>
        cases hhashing : response.hashing? with
        | none => exact Or.inl ⟨c.errorReceived, by simp only [hhashing]⟩
        | some hashing =>
          exact Or.inr ⟨value, response, hashing, rfl, hread, hhashing, by simp only [hhashing]⟩

theorem Inv.deliver (h : Inv rt params es c) (hu : (machine rt params).run start es = some c)
    (notification : AtNotification) :
    Inv rt params (es ++ [.deliver notification]) (c.handleSshnpdResponses rt params notification) := by
  rw [handleSshnpdResponses]
  by_cases hresponded : c.responded = true
  · rw [if_pos hresponded]
    exact h.frame _ rfl rfl rfl rfl Or.inl
  by_cases hforeign : rt.isForAnotherSession params notification = true
  · rw [if_neg hresponded, if_pos hforeign]
    exact h.frame _ rfl rfl rfl rfl Or.inl
  rw [if_neg hresponded, if_neg hforeign]
  have hidle : Idle c := by
    rcases h.handler with hidle | ⟨h, hh⟩
    · exact hidle
    · exact absurd hh.responded hresponded
  have hused : (machine rt params).At start (es ++ [.deliver notification]) fun _ e => ∃ notification,
      e = .deliver notification ∧ rt.isForAnotherSession params notification = false :=
    Machine.At.now hu ⟨notification, rfl, Bool.eq_false_iff.mpr hforeign⟩
  rcases @handleSshnpdPayload_cases rt { c with responded := true } notification with
    ⟨errorReceived, heq⟩ | ⟨value, response, hashing, hvalue, hread, hhashing, heq⟩
  · refine ⟨Or.inr ⟨⟨notification, .returned (some .acknowledgedWithErrors)⟩, ?_⟩, ?_⟩
    · rw [heq]
      refine ⟨by rw [hidle.handlers]; rfl, rfl, ⟨hidle.sshnpdAck, fun hok => ?_⟩, hused⟩
      cases hok
    · rw [heq]
      exact h.answered
  · refine ⟨Or.inr ⟨⟨notification, .fetching response hashing⟩, ?_⟩, ?_⟩
    · rw [heq]
      refine ⟨by rw [hidle.handlers]; rfl, rfl, ⟨hidle.sshnpdAck, hidle.keys, ?_⟩, hused⟩
      have hsession : response.sessionId = params.sessionId := by
        rw [Runtime.isForAnotherSession, namedSession_of_read hvalue hread] at hforeign
        simpa using hforeign
      exact ⟨Machine.At.now hu ⟨rfl, hidle.responded⟩, ⟨value, hvalue, hread⟩, hsession, hhashing⟩
    · rw [heq]
      exact h.answered

/-- The handler goes on to `pc`. -/
theorem Inv.goesOn (h : Inv rt params es c) {found : Handler} (hh : Handling rt params es c found) {e : Event}
    {pc : PayloadPc} {d : Channel} (hnot : c.sshnpdAck = .notAcknowledged)
    (hphase : Phase rt params (es ++ [e]) (d.setPc 0 found pc) found.notification pc)
    (hhandlers : d.handlers = c.handlers) (hresponded : d.responded = c.responded)
    (hwaiters : d.waiters = c.waiters) : Inv rt params (es ++ [e]) (d.setPc 0 found pc) := by
  constructor
  · refine Or.inr ⟨{ found with pc }, ?_, hresponded.trans hh.responded, hphase, hh.used.later e⟩
    rw [setPc, hhandlers, hh.handlers]
    rfl
  · intro hmem
    rw [setPc, hwaiters] at hmem
    rw [h.answered hmem] at hnot
    cases hnot

/-- Reading a response changes the keys and the config alone. -/
def Kept (c c' : Channel) : Prop :=
  ∃ keys config, c' = { c with keys := keys, eventLoggingConfig := config }

theorem Kept.of_eq {c c' : Channel} (h : c' = c) : Kept c c' := ⟨c.keys, c.eventLoggingConfig, h⟩

theorem Kept.trans {c1 c2 c3 : Channel} (h : Kept c1 c2) (h' : Kept c2 c3) : Kept c1 c3 := by
  obtain ⟨keys, config, rfl⟩ := h
  obtain ⟨keys', config', rfl⟩ := h'
  exact ⟨keys', config', rfl⟩

theorem orThrow_error {α : Type} {c c' : Channel} {o : Option α} (h : Runtime.orThrow c o = .error c') :
    c' = c := by
  cases o with
  | none => exact (Except.error.inj h).symm
  | some a => cases h

theorem kept_decryptPair {c c' : Channel} {setKey setIv : Keys → String → Keys} {key iv : Option String}
    (h : rt.decryptPair c setKey setIv key iv = .error c') : Kept c c' := by
  cases key with
  | none => cases h
  | some k =>
    cases iv with
    | none => cases h
    | some v =>
      rcases bind_eq_error.mp h with h | ⟨aes, -, h⟩
      · exact Kept.of_eq (orThrow_error h)
      · rcases bind_eq_error.mp h with h | ⟨d, -, h⟩
        · exact ⟨_, _, orThrow_error h⟩
        · cases h

theorem kept_decryptPair_ok {c c' : Channel} {setKey setIv : Keys → String → Keys} {key iv : Option String}
    (h : rt.decryptPair c setKey setIv key iv = .ok c') : Kept c c' := by
  rcases decryptPair_ok h with ⟨k, v, aes, d, -, -, -, -, rfl⟩ | ⟨-, rfl⟩
  · exact ⟨_, _, rfl⟩
  · exact Kept.of_eq rfl

theorem kept_readResponse {payload : List (String × Json)} {c c' : Channel}
    (h : rt.readResponse payload c = .error c') : Kept c c' := by
  rcases bind_eq_error.mp h with h | ⟨ephemeral, -, h⟩
  · exact Kept.of_eq (orThrow_error h)
  apply Kept.trans ⟨_, c.eventLoggingConfig, rfl⟩
  rcases bind_eq_error.mp h with h | ⟨key, -, h⟩
  · exact Kept.of_eq (orThrow_error h)
  rcases bind_eq_error.mp h with h | ⟨iv, -, h⟩
  · exact Kept.of_eq (orThrow_error h)
  rcases bind_eq_error.mp h with h | ⟨c1, hc1, h⟩
  · exact kept_decryptPair h
  apply Kept.trans (kept_decryptPair_ok hc1)
  rcases bind_eq_error.mp h with h | ⟨key', -, h⟩
  · exact Kept.of_eq (orThrow_error h)
  rcases bind_eq_error.mp h with h | ⟨iv', -, h⟩
  · exact Kept.of_eq (orThrow_error h)
  rcases bind_eq_error.mp h with h | ⟨c2, hc2, h⟩
  · exact kept_decryptPair h
  apply Kept.trans (kept_decryptPair_ok hc2)
  dsimp only at h
  split at h
  · cases h
  · rcases bind_eq_error.mp h with h | ⟨config, -, h⟩
    · exact Kept.of_eq (orThrow_error h)
    · cases h

theorem Inv.fetched (h : Inv rt params es c) (hu : (machine rt params).run start es = some c) {i : ℕ}
    {found : Handler} (hi : c.handlers[i]? = some found) {response : Response} {hashing : HashingAlgoType}
    (hpc : found.pc = .fetching response hashing) (server : String → Option String) :
    Inv rt params (es ++ [.fetched i server]) (c.onFetched rt params i found response hashing server) := by
  obtain ⟨rfl, hh⟩ := h.handling hi
  have hphase := hh.phase
  rw [hpc] at hphase
  obtain ⟨hnot, hkeys, hbegun⟩ := hphase
  rw [onFetched]
  cases hserver : server (rt.publicKeyRecord params) with
  | none =>
    refine h.goesOn hh hnot ⟨hnot, fun hok => ?_⟩ rfl rfl rfl
    cases hok
  | some pk =>
    refine h.goesOn hh hnot ⟨hnot, hkeys, hbegun.later _, ?_⟩ rfl rfl rfl
    exact Machine.At.now hu ⟨0, server, rfl, hserver⟩

theorem Inv.verified (h : Inv rt params es c) {i : ℕ} {found : Handler} (hi : c.handlers[i]? = some found)
    {response : Response} {hashing : HashingAlgoType} {pk : String}
    (hpc : found.pc = .verifying response hashing pk) (hcarries : Carries rt params c (.verified i)) :
    Inv rt params (es ++ [.verified i]) (c.onVerified rt i found response hashing pk) := by
  obtain ⟨rfl, hh⟩ := h.handling hi
  have hphase := hh.phase
  rw [hpc] at hphase
  obtain ⟨hnot, hkeys, hbegun, hfetched⟩ := hphase
  rw [onVerified]
  by_cases hverifies : verifies rt response hashing pk = true
  · rw [if_pos hverifies]
    cases hread : rt.readResponse response.payload c with
    | error c' =>
      obtain ⟨keys, config, rfl⟩ := kept_readResponse hread
      refine h.goesOn hh hnot ⟨hnot, fun hok => ?_⟩ rfl rfl rfl
      cases hok
    | ok c' =>
      obtain ⟨hreadable, config, rfl⟩ := readResponse_ok hkeys hread
      have howed := hcarries 0 found response hashing pk rfl hi hpc hverifies hreadable
      refine h.goesOn hh hnot ⟨hnot, fun _ => ⟨response, ?_, rfl, hasKeys_of_owed hreadable howed⟩⟩ rfl rfl rfl
      exact ⟨hbegun.delivered.later _, hbegun.read, hbegun.session,
        pk, hashing, hbegun.hashing, hfetched.later _, hverifies⟩
  · rw [if_neg hverifies]
    refine h.goesOn hh hnot ⟨hnot, fun hok => ?_⟩ rfl rfl rfl
    cases hok

theorem Inv.resumed (h : Inv rt params es c) {i : ℕ} {found : Handler} (hi : c.handlers[i]? = some found)
    {ack : Option SshnpdAck} (hpc : found.pc = .returned ack) :
    Inv rt params (es ++ [.resumed i]) (c.onResumed i found ack) := by
  obtain ⟨rfl, hh⟩ := h.handling hi
  have hphase := hh.phase
  rw [hpc] at hphase
  obtain ⟨hnot, hacknowledged⟩ := hphase
  cases ack with
  | none =>
    refine h.goesOn (d := { c with
      errorReceived := some "Failed to read the daemon's response"
      sshnpdAck := .acknowledgedWithErrors
      acked := true }) hh hnot (fun hok => ?_) rfl rfl rfl
    cases hok
  | some ack =>
    refine h.goesOn (d := { c with sshnpdAck := ack, acked := true }) hh hnot (fun hok => ?_) rfl rfl rfl
    exact (hacknowledged (congrArg some hok)).later _

/-- A wait that ends reports the acknowledgement as it is. -/
theorem Inv.answer (h : Inv rt params es c) (e : Event) (w : ℕ) {waiter : Waiter}
    (hwaiter : waiter = .returned .acknowledged → c.sshnpdAck = .acknowledged) :
    Inv rt params (es ++ [e]) { c with waiters := c.waiters.set w waiter } := by
  refine h.frame _ rfl rfl rfl rfl fun hmem => ?_
  rcases List.mem_or_eq_of_mem_set hmem with hold | hnew
  · exact Or.inl hold
  · exact Or.inr (hwaiter hnew.symm)

theorem Inv.step {c' : Channel} {e : Event} (h : Inv rt params es c)
    (hu : (machine rt params).run start es = some c) (hcarries : Carries rt params c e)
    (hstep : c.step rt params e = some c') : Inv rt params (es ++ [e]) c' := by
  cases e with
  | deliver notification =>
    obtain rfl := Option.some.inj hstep
    exact h.deliver hu notification
  | fetched i server =>
    obtain ⟨found, hi, hstep⟩ := Option.bind_eq_some_iff.mp hstep
    cases hpc : found.pc with
    | fetching response hashing =>
      rw [hpc] at hstep
      obtain rfl := Option.some.inj hstep
      exact h.fetched hu hi hpc server
    | verifying response hashing pk | returned ack | done =>
      rw [hpc] at hstep
      cases hstep
  | verified i =>
    obtain ⟨found, hi, hstep⟩ := Option.bind_eq_some_iff.mp hstep
    cases hpc : found.pc with
    | verifying response hashing pk =>
      rw [hpc] at hstep
      obtain rfl := Option.some.inj hstep
      exact h.verified hi hpc hcarries
    | fetching response hashing | returned ack | done =>
      rw [hpc] at hstep
      cases hstep
  | resumed i =>
    obtain ⟨found, hi, hstep⟩ := Option.bind_eq_some_iff.mp hstep
    cases hpc : found.pc with
    | returned ack =>
      rw [hpc] at hstep
      obtain rfl := Option.some.inj hstep
      exact h.resumed hi hpc
    | fetching response hashing | verifying response hashing pk | done =>
      rw [hpc] at hstep
      cases hstep
  | wait =>
    obtain rfl := Option.some.inj hstep
    refine h.frame _ rfl rfl rfl rfl fun hmem => ?_
    rcases List.mem_append.mp hmem with hold | hnew
    · exact Or.inl hold
    · cases List.mem_singleton.mp hnew
  | waited w timedOut =>
    obtain ⟨_, -, hstep⟩ := Option.bind_eq_some_iff.mp hstep
    obtain ⟨_, -, hstep⟩ := Option.bind_eq_some_iff.mp hstep
    obtain rfl := Option.some.inj hstep
    apply h.answer
    intro hwaiter
    rw [onWaited] at hwaiter
    split at hwaiter
    · cases hwaiter
    · exact Waiter.returned.inj hwaiter
  | logged w threw =>
    obtain ⟨_, -, hstep⟩ := Option.bind_eq_some_iff.mp hstep
    obtain rfl := Option.some.inj hstep
    apply h.answer
    intro hwaiter
    split at hwaiter
    · cases hwaiter
    · exact Waiter.returned.inj hwaiter

theorem inv_run {t : Channel} (hcarries : (machine rt params).Meets (Carries rt params) start es)
    (hr : (machine rt params).run start es = some t) : Inv rt params es t := by
  apply Machine.run_induction_of_meets (machine rt params) _ _ hcarries hr
  · exact ⟨Or.inl ⟨rfl, rfl, rfl, rfl⟩, fun hmem => by cases hmem⟩
  · intro es e u v hu h hcarries hstep
    exact h.step hu hcarries hstep

theorem trusted_of_carries {t : Channel} (hcarries : (machine rt params).Meets (Carries rt params) start es)
    (hr : (machine rt params).run start es = some t) : Trusted rt params es t := by
  have h := inv_run hcarries hr
  have hacknowledged (hok : t.sshnpdAck = .acknowledged) : ∃ found, Handling rt params es t found ∧
      Acknowledged rt params es t.keys found.notification := by
    rcases h.handler with hidle | ⟨found, hh⟩
    · rw [hidle.sshnpdAck] at hok
      cases hok
    · have hphase := hh.phase
      refine ⟨found, hh, ?_⟩
      cases hpc : found.pc with
      | done =>
        rw [hpc] at hphase
        exact hphase hok
      | fetching response hashing | verifying response hashing pk | returned ack =>
        rw [hpc] at hphase
        rw [hphase.1] at hok
        cases hok
  constructor
  · intro hok
    obtain ⟨found, hh, response, haccepted, hkeys, -⟩ := hacknowledged hok
    exact ⟨found.notification, response, by rw [hh.handlers]; rfl, haccepted, hkeys⟩
  · intro c notification hforeign
    have hsame : c.handleSshnpdResponses rt params notification = c := by
      rw [handleSshnpdResponses, if_pos hforeign, ite_self]
    exact congrArg some hsame
  · intro hresponded
    rcases h.handler with hidle | ⟨found, hh⟩
    · rw [hidle.responded] at hresponded
      cases hresponded
    · exact hh.used
  · exact h.answered
  · intro hok
    obtain ⟨found, -, response, -, -, hkeys⟩ := hacknowledged hok
    exact hkeys

/-! ### A response without the session keys, and one with them -/

def sampleParams : Params := ⟨"@daemon", "s", true, true⟩

/-- What the client makes of a response with `fields` beside its session. -/
def sampleRuntime (fields : List (String × Json)) : Runtime where
  jsonDecode _ := some (.obj [("signature", .str "signature"), ("hashingAlgo", .str "sha256"),
    ("signingAlgo", .str "rsa2048"), ("payload", .obj (("sessionId", .str "s") :: fields))])
  jsonEncode _ := "payload"
  rsaVerifyString data signature publicKey hashing :=
    some (data == "payload" && signature == "signature" && publicKey == "key" && hashing == .sha256)
  rsaDecryptString ciphertext := some ("plain " ++ ciphertext)
  eventConfig _ := none
  fixAtSign atSign := atSign

def sampleServer (key : String) : Option String := if key = "public:publickey@daemon" then some "key" else none

def oneResponse : List Event :=
  [.wait, .deliver ⟨some "\x7b\x7d"⟩, .fetched 0 sampleServer, .verified 0, .resumed 0, .waited 0 false]

theorem unkeyed_acknowledged : ∃ t, (machine (sampleRuntime []) sampleParams).run start oneResponse = some t ∧
    t.sshnpdAck = .acknowledged ∧ t.waiters = [.returned .acknowledged] ∧ ¬HasKeys sampleParams t.keys := by
  refine ⟨_, rfl, rfl, rfl, fun hkeys => ?_⟩
  cases (hkeys rfl).1

def keyedFields : List (String × Json) :=
  [("aesKeyC2D", .str "k1"), ("ivC2D", .str "v1"), ("aesKeyD2C", .str "k2"), ("ivD2C", .str "v2")]

theorem trusted_of_carries_sample : ∃ t,
    (machine (sampleRuntime keyedFields) sampleParams).run start oneResponse = some t ∧
    t.sshnpdAck = .acknowledged ∧ Trusted (sampleRuntime keyedFields) sampleParams oneResponse t := by
  have hrun : (machine (sampleRuntime keyedFields) sampleParams).run start oneResponse = some _ := rfl
  refine ⟨_, hrun, rfl, trusted_of_carries ?_ hrun⟩
  have hother {c : Channel} {e : Event} (he : ∀ i, e ≠ .verified i) :
      Carries (sampleRuntime keyedFields) sampleParams c e := by
    intro i found response hashing pk heq
    exact absurd heq (he i)
  apply Machine.meets_cons _ (hother (by rintro i ⟨⟩)) rfl
  apply Machine.meets_cons _ (hother (by rintro i ⟨⟩)) rfl
  apply Machine.meets_cons _ (hother (by rintro i ⟨⟩)) rfl
  apply Machine.meets_cons _ _ rfl
  · apply Machine.meets_cons _ (hother (by rintro i ⟨⟩)) rfl
    apply Machine.meets_cons _ (hother (by rintro i ⟨⟩)) rfl
    exact trivial
  · intro i found response hashing pk he hi hpc _ _ _
    obtain rfl : i = 0 := (Event.verified.inj he).symm
    obtain rfl := Option.some.inj hi
    obtain ⟨rfl, -, -⟩ := PayloadPc.verifying.inj hpc
    exact ⟨rfl, rfl, fun _ => ⟨rfl, rfl⟩⟩

end Channel
end NoPorts.SshnpdChannel
