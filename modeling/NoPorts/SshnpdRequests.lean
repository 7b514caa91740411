import NoPorts.EnrollmentSignature
import NoPorts.NppDecision

/-! The Dart daemon's handlers of a client's notification, and the errors that escape them. A handler that is
`async` and not awaited runs outside the `try` of the one that starts it. -/
namespace NoPorts.SshnpdRequests
open Lib

abbrev Thrown := Signing.Failure

/-- The call gives a value. -/
def Returns {α : Type} (call : Except Thrown α) : Prop := ∃ value, call = .ok value

structure AtNotification where
  id : String
  key : String
  fromAtsign : String
  toAtsign : String
  value : Option String
  deriving DecidableEq, Repr

/-- Functions of the packages below. -/
structure Runtime where
  toLowerCase : String → String
  jsonDecode : String → Except Thrown Json
  /-- `int.parse` -/
  intParse : String → Except Thrown ℤ
  toAtsign : String → Except Thrown String
  /-- `AtKey.fromString` -/
  atKeyFromString : String → Except Thrown Unit

structure SshnpdImpl where
  device : String
  deviceAtsign : String
  managerAtsigns : List String
  /-- There is an `authChecker`. -/
  policy : Bool
  strict : Bool
  requireEnrollmentSignature : Bool
  addSshPublicKeys : Bool
  permitOpen : List String
  localSshdPort : ℤ
  /-- `elc` is set. -/
  elc : Bool
  privateKey : String
  /-- The ids in `_clientSessions`. -/
  clientSessions : List String
  deriving DecidableEq, Repr

def DefaultArgs.namespace : String := "sshnp"

def Srvd.namespace : String := "sshrvd"

def localSshdHost : String := "localhost"

/-! ### validation_utils.dart -/

def isHex (c : Char) : Bool := c.isDigit || ('a' ≤ c && c ≤ 'f') || ('A' ≤ c && c ≤ 'F')

/-- What `_uuidPattern` matches. -/
def isUuid (v : String) : Bool :=
  match v.toList.splitOn '-' with
  | [a, b, c, d, e] =>
    [a, b, c, d, e].all (·.all isHex) && [a, b, c, d, e].map List.length == [8, 4, 4, 4, 12]
  | _ => false

def isValidSessionId (v : Json) : Bool := v.str?.any isUuid

/-- What `Uuid().v4()` makes. -/
abbrev Uuid := { v : String // isUuid v = true }

/-- `json as T` -/
def cast {α : Type} (v : Option α) : Except Thrown α :=
  match v with
  | some a => .ok a
  | none => .error (.other "type cast")

/-- `json as T?` -/
def castNullable {α : Type} (v : Option α) (json : Json) : Except Thrown (Option α) :=
  if json.isNull then .ok none else some <$> cast v

def int? : Json → Option ℤ
  | .int n => some n
  | _ => none

def bool? : Json → Option Bool
  | .bool b => some b
  | _ => none

def assertValidMapValue (m : List (String × Json)) (k : String) : Except Thrown Unit :=
  if (Json.field m k).str?.isSome then .ok () else .error (.other ("Parameter " ++ k ++ " should be a String"))

/-! ### notification_request_message.dart -/

inductive RelayAuthMode where
  | payload
  | escr
  deriving DecidableEq, Repr

def RelayAuthMode.byName (name : String) : Except Thrown RelayAuthMode :=
  if name = "payload" then .ok .payload
  else if name = "escr" then .ok .escr
  else .error (.other "No enum value with that name")

structure NptSessionRequest where
  sessionId : String
  rvdHost : String
  rvdPort : ℤ
  requestedHost : String
  requestedPort : ℤ
  authenticateToRvd : Bool
  relayAuthMode : RelayAuthMode
  relayAuthAesKey : Option String
  clientNonce : String
  rvdNonce : String
  encryptRvdTraffic : Bool
  clientEphemeralPK : String
  clientEphemeralPKType : String
  timeout : ℤ
  twinKeys : Bool
  relayAtsign : Option String
  deriving DecidableEq, Repr

def defaultTimeout : ℤ := 1000 * 60

structure SshnpSessionRequest where
  direct : Bool
  sessionId : String
  host : String
  port : ℤ
  authenticateToRvd : Option Bool
  relayAuthMode : RelayAuthMode
  relayAuthAesKey : Option String
  clientNonce : Option String
  rvdNonce : Option String
  encryptRvdTraffic : Option Bool
  clientEphemeralPK : Option String
  clientEphemeralPKType : Option String
  username : Option String
  remoteForwardPort : Option ℤ
  privateKey : Option String
  twinKeys : Bool
  relayAtsign : Option String
  deriving DecidableEq, Repr

def assertValidSessionId (sessionId : String) : Except Thrown Unit :=
  if isUuid sessionId then .ok () else .error (.other "sessionId must be a UUID")

/-- `assertValidValue`: of a value whose type is known, that it isn't null. -/
def assertValidValue {α : Type} (name : String) (v : Option α) : Except Thrown Unit :=
  if v.isSome then .ok () else .error (.other ("Parameter " ++ name ++ " is null"))

def readRelayAuthMode (json : Json) : Except Thrown RelayAuthMode :=
  if json.isNull then .ok .payload else do RelayAuthMode.byName (← cast json.str?)

namespace NptSessionRequest

/-- The constructor. -/
def make (req : NptSessionRequest) : Except Thrown NptSessionRequest := do
  assertValidSessionId req.sessionId
  return req

def fromJson (json : List (String × Json)) : Except Thrown NptSessionRequest := do
  make
    { sessionId := ← cast (Json.field json "sessionId").str?
      rvdHost := ← cast (Json.field json "rvdHost").str?
      rvdPort := ← cast (int? (Json.field json "rvdPort"))
      requestedHost := ← cast (Json.field json "requestedHost").str?
      requestedPort := ← cast (int? (Json.field json "requestedPort"))
      authenticateToRvd := ← cast (bool? (Json.field json "authenticateToRvd"))
      relayAuthMode := ← readRelayAuthMode (Json.field json "relayAuthMode")
      relayAuthAesKey := ← castNullable (Json.field json "relayAuthAesKey").str? (Json.field json "relayAuthAesKey")
      clientNonce := ← cast (Json.field json "clientNonce").str?
      rvdNonce := ← cast (Json.field json "rvdNonce").str?
      encryptRvdTraffic := ← cast (bool? (Json.field json "encryptRvdTraffic"))
      clientEphemeralPK := ← cast (Json.field json "clientEphemeralPK").str?
      clientEphemeralPKType := ← cast (Json.field json "clientEphemeralPKType").str?
      timeout := (← castNullable (int? (Json.field json "timeout")) (Json.field json "timeout")).getD defaultTimeout
      twinKeys := (← castNullable (bool? (Json.field json "twinKeys")) (Json.field json "twinKeys")).getD false
      relayAtsign := ← castNullable (Json.field json "relayAtsign").str? (Json.field json "relayAtsign") }

end NptSessionRequest

namespace SshnpSessionRequest

/-- The constructor. -/
def make (req : SshnpSessionRequest) : Except Thrown SshnpSessionRequest := do
  assertValidSessionId req.sessionId
  if !req.direct then
    assertValidValue "username" req.username
    assertValidValue "remoteForwardPort" req.remoteForwardPort
    assertValidValue "privateKey" req.privateKey
  return req

def fromJson (json : List (String × Json)) : Except Thrown SshnpSessionRequest := do
  make
    { direct := ← cast (bool? (Json.field json "direct"))
      sessionId := ← cast (Json.field json "sessionId").str?
      host := ← cast (Json.field json "host").str?
      port := ← cast (int? (Json.field json "port"))
      authenticateToRvd :=
        ← castNullable (bool? (Json.field json "authenticateToRvd")) (Json.field json "authenticateToRvd")
      relayAuthMode := ← readRelayAuthMode (Json.field json "relayAuthMode")
      relayAuthAesKey := ← castNullable (Json.field json "relayAuthAesKey").str? (Json.field json "relayAuthAesKey")
      clientNonce := ← castNullable (Json.field json "clientNonce").str? (Json.field json "clientNonce")
      rvdNonce := ← castNullable (Json.field json "rvdNonce").str? (Json.field json "rvdNonce")
      encryptRvdTraffic :=
        ← castNullable (bool? (Json.field json "encryptRvdTraffic")) (Json.field json "encryptRvdTraffic")
      clientEphemeralPK :=
        ← castNullable (Json.field json "clientEphemeralPK").str? (Json.field json "clientEphemeralPK")
      clientEphemeralPKType :=
        ← castNullable (Json.field json "clientEphemeralPKType").str? (Json.field json "clientEphemeralPKType")
      username := none
      remoteForwardPort := none
      privateKey := none
      twinKeys := (← castNullable (bool? (Json.field json "twinKeys")) (Json.field json "twinKeys")).getD false
      relayAtsign := ← castNullable (Json.field json "relayAtsign").str? (Json.field json "relayAtsign") }

end SshnpSessionRequest

/-! ### sshnpd_impl.dart -/

/-- What the calls made on behalf of one notification answer: a value, or a throw. -/
structure Answers where
  notifPreProcessor : Except Thrown Unit
  /-- `none` when the policy doesn't answer in time. -/
  mayConnect : Except Thrown (Option Npp.NPAAuthCheckResponse)
  /-- The mutex is acquired. -/
  tryAcquireServerMutex : Except Thrown Bool
  /-- `logEvent` of each kind of event. -/
  logRequested : Except Thrown Unit
  logDenied : Except Thrown Unit
  logApproved : Except Thrown Unit
  logDaemonConnecting : Except Thrown Unit
  verifyEnvelopeSignature : Except Thrown Unit
  verifyEnrollmentSignature : Except Thrown (Option String)
  /-- `startNpt` or `startDirectSsh`. -/
  start : Except Thrown Unit
  /-- `reverseSshViaExec` or `reverseSshViaSSHClient`. -/
  reverseSsh : Except Thrown (Bool × Option String)
  uuid : Uuid
  authorizedKeys : Except Thrown Unit
  measureLatencies : Except Thrown Unit
  /-- The notifications that are sent, by what they tell. -/
  notifyNack : Except Thrown Unit
  notifyRefused : Except Thrown Unit
  notifyDenied : Except Thrown Unit
  notifyStartFailed : Except Thrown Unit
  notifyRelay : Except Thrown Unit
  notifyReverse : Except Thrown Unit
  notifyReverseFailed : Except Thrown Unit
  notifyLatencies : Except Thrown Unit
  notifyHeartbeat : Except Thrown Unit

/-- `s.replaceAll(pat, '')`; `skip` characters of a match are left to pass over. -/
def removeAll (pat : List Char) : ℕ → List Char → List Char
  | _, [] => []
  | skip + 1, _ :: cs => removeAll pat skip cs
  | 0, c :: cs => if pat.isPrefixOf (c :: cs) then removeAll pat (pat.length - 1) cs else c :: removeAll pat 0 cs

/-- `value.split(' ')` -/
def splitSpaces (value : String) : List String := (value.toList.splitOn ' ').map String.ofList

/-- What a request asks to be started. -/
structure Session where
  sessionId : String
  relayAtsign : Option String
  requestedHost : String
  requestedPort : ℤ

namespace SshnpdImpl
variable (rt : Runtime) (d : SshnpdImpl) (n : AtNotification) (a : Answers)

/-- `_logEvent` -/
def logEvent (call : Except Thrown Unit) : Except Thrown Unit := if d.elc then call else .ok ()

def messageType : String :=
  let key := removeAll (n.toAtsign ++ ":").toList 0 n.key.toList
  rt.toLowerCase (String.ofList
    (removeAll ("." ++ d.device ++ "." ++ DefaultArgs.namespace ++ n.fromAtsign).toList 0 key))

def authCheck : Except Thrown Npp.NPAAuthCheckResponse :=
  if d.managerAtsigns.contains n.fromAtsign then
    .ok ⟨true, some ("Approved without policy check; client atSign " ++ n.fromAtsign ++
      " is a manager of this daemon"), ["*:*"]⟩
  else if d.policy then do
    match ← a.mayConnect with
    | some resp => return resp
    | none => return ⟨false, some "Timed out waiting for authorizer response", []⟩
  else .ok ⟨false, some (n.fromAtsign ++ " is not in --managers list"), []⟩

/-- The caught body of `hasValidSessionId`. -/
def validSessionId (messageType : String) : Except Thrown Bool := do
  if messageType = "ssh_request" ∨ messageType = "npt_request" then
    let envelope ← cast (← rt.jsonDecode (← cast n.value)).obj?
    let payload ← cast (Json.field envelope "payload").obj?
    return isValidSessionId (Json.field payload "sessionId")
  else if messageType = "sshd" then
    let value ← cast n.value
    return (splitSpaces value)[4]?.all isUuid
  else return true

def hasValidSessionId (messageType : String) : Bool :=
  match validSessionId rt n messageType with
  | .ok valid => valid
  | .error _ => false

/-- Whatever goes wrong, the request is handled without the mutex. -/
def tryAcquireSessionMutex : Bool :=
  match a.tryAcquireServerMutex with
  | .ok acquired => acquired
  | .error _ => true

/-- `_permittedToOpen` -/
def permittedToOpen (po : List String) (s : Session) : Bool :=
  po.contains (s.requestedHost ++ ":" ++ toString s.requestedPort) ||
    po.contains ("*:" ++ toString s.requestedPort) || po.contains (s.requestedHost ++ ":*") ||
      po.contains "*:*"

/-- The signed envelope, and its payload. -/
def readEnvelope : Except Thrown (List (String × Json) × List (String × Json)) := do
  let envelope ← cast (← rt.jsonDecode (← cast n.value)).obj?
  assertValidMapValue envelope "signature"
  assertValidMapValue envelope "hashingAlgo"
  assertValidMapValue envelope "signingAlgo"
  return (envelope, ← cast (Json.field envelope "payload").obj?)

/-- What the npt request in the notification asks for. -/
def readNptRequest : Except Thrown Session := do
  let (_, params) ← readEnvelope rt n
  let req ← NptSessionRequest.fromJson params
  return ⟨req.sessionId, req.relayAtsign, req.requestedHost, req.requestedPort⟩

/-- What the ssh request in the notification asks for. -/
def readSshRequest : Except Thrown Session := do
  let (_, params) ← readEnvelope rt n
  let req ← SshnpSessionRequest.fromJson params
  return ⟨req.sessionId, req.relayAtsign, localSshdHost, d.localSshdPort⟩

/-- `verifyRequestSignature`, which tells the client when the signature is wrong, if it can. -/
def verifyRequestSignature : Bool :=
  match a.verifyEnvelopeSignature with
  | .ok _ => true
  | .error _ =>
    match a.notifyNack with
    | .ok _ => false
    | .error _ => false

/-- Why the request is refused, or else the key to watch its session with. -/
def signingKey (sessionId : String) : Except String (Option String) :=
  if d.clientSessions.contains sessionId then .error ("A session with id " ++ sessionId ++ " is already live")
  else
    match a.verifyEnrollmentSignature with
    | .error (.apskSignature message) => .error ("Enrollment signature not verified: " ++ message)
    | .error _ =>
      if d.requireEnrollmentSignature then .error "Could not check the enrollment signature" else .ok none
    | .ok none =>
      if d.requireEnrollmentSignature then
        .error "This daemon requires session requests signed with the client's enrollment key"
      else .ok none
    | .ok (some key) => .ok (some key)

/-- `_clientSigningKey`: whether it refuses, and the key. -/
def clientSigningKey (sessionId : String) : Except Thrown (Bool × Option String) :=
  match d.signingKey a sessionId with
  | .error _ => do
    a.notifyRefused
    return (true, none)
  | .ok key => .ok (false, key)

def relayKey (sessionId relayAtsign : String) : String :=
  relayAtsign ++ ":logging." ++ sessionId ++ ".sessions." ++ Srvd.namespace ++ d.deviceAtsign

/-- The client isn't let connect, and is told so. -/
def deny : Except Thrown Unit := do
  d.logEvent a.logDenied
  a.notifyDenied

/-- `_handleNptRequestNotification` and `_handleSshRequestNotification` from the start of the session on. -/
def startSession (s : Session) : Except Thrown Unit := do
  d.logEvent a.logApproved
  match a.start with
  | .error _ => a.notifyStartFailed
  | .ok _ =>
    match s.relayAtsign with
    | none => return
    | some relayAtsign =>
      if d.elc then
        rt.atKeyFromString (d.relayKey s.sessionId relayAtsign)
        a.notifyRelay

/-- The two handlers, each with its own reader. -/
def handleSessionRequest (auth : Npp.NPAAuthCheckResponse) (read : Except Thrown Session) : Except Thrown Unit := do
  let _ ← rt.toAtsign n.fromAtsign
  match read with
  | .error _ => return
  | .ok s =>
    d.logEvent a.logRequested
    if d.strict && !verifyRequestSignature a then return
    let (refused, _) ← d.clientSigningKey a s.sessionId
    if refused then return
    if !permittedToOpen d.permitOpen s then d.deny a
    else if !permittedToOpen auth.permitOpen s then d.deny a
    else d.startSession rt a s

def handleNptRequestNotification (auth : Npp.NPAAuthCheckResponse) : Except Thrown Unit :=
  d.handleSessionRequest rt n a auth (readNptRequest rt n)

def handleSshRequestNotification (auth : Npp.NPAAuthCheckResponse) : Except Thrown Unit :=
  d.handleSessionRequest rt n a auth (d.readSshRequest rt n)

/-- The body of the `try` in `startReverseSsh`. -/
def reverseSsh : Except Thrown Unit := do
  let (success, _) ← a.reverseSsh
  if !success then a.notifyReverse
  else
    d.logEvent a.logDaemonConnecting
    a.notifyReverse

def startReverseSsh : Except Thrown Unit :=
  match d.reverseSsh a with
  | .ok _ => .ok ()
  | .error _ => a.notifyReverseFailed

/-- `list[i]` -/
def elementAt (list : List String) (i : ℕ) : Except Thrown String :=
  match list[i]? with
  | some s => .ok s
  | none => .error (.other "RangeError")

/-- The request that a legacy request's fields stand for. -/
def legacyRequest (remoteForwardPort port username host sessionId : String) : Except Thrown SshnpSessionRequest := do
  SshnpSessionRequest.make
    { direct := false, sessionId, username := some username, host
      port := ← rt.intParse port
      privateKey := some d.privateKey
      remoteForwardPort := some (← rt.intParse remoteForwardPort)
      relayAuthMode := .payload, relayAuthAesKey := none, twinKeys := false, relayAtsign := none
      authenticateToRvd := none, clientNonce := none, rvdNonce := none, encryptRvdTraffic := none
      clientEphemeralPK := none, clientEphemeralPKType := none }

def handleLegacySshRequestNotification (auth : Npp.NPAAuthCheckResponse) : Except Thrown Unit := do
  let sshList := splitSpaces (← cast n.value)
  let remoteForwardPort ← elementAt sshList 0
  let port ← elementAt sshList 1
  let username ← elementAt sshList 2
  let host ← elementAt sshList 3
  let sessionId := if sshList.length = 5 then sshList[4]?.getD "" else a.uuid.val
  if d.requireEnrollmentSignature then a.notifyRefused
  else
    let req ← d.legacyRequest rt remoteForwardPort port username host sessionId
    let s : Session := ⟨req.sessionId, none, localSshdHost, d.localSshdPort⟩
    if !permittedToOpen d.permitOpen s then a.notifyDenied
    else if !permittedToOpen auth.permitOpen s then a.notifyDenied
    else d.startReverseSsh a

/-- `_handlePublicKeyNotification`, whose work is inside a `try`. -/
def handlePublicKeyNotification : Except Thrown Unit :=
  if !d.addSshPublicKeys then .ok ()
  else
    match (do
      let _ ← cast n.value
      a.authorizedKeys) with
    | .ok _ => .ok ()
    | .error _ => .ok ()

def handleRelayLatencyCheckRequest : Except Thrown Unit :=
  match n.value with
  | none => .ok ()
  | some value =>
    match (do cast (← rt.jsonDecode value).obj?) with
    | .error _ => .ok ()
    | .ok _ => do
      a.measureLatencies
      a.notifyLatencies

/-- What a notification leaves: the daemon's private key, and how what is not awaited has ended. -/
structure Started where
  privateKey : String
  unawaited : List (Except Thrown Unit)

/-- The checks before the switch: the message's type and the client's permission, `none` when the
notification is to be ignored. -/
def admitted : Except Thrown (Option (String × Npp.NPAAuthCheckResponse)) :=
  match a.notifPreProcessor with
  | .error _ => .ok none
  | .ok _ => do
    let messageType := d.messageType rt n
    let auth ← d.authCheck n a
    if !auth.authorized then return none
    else if ["ssh_request", "npt_request", "sshd"].contains messageType &&
        (!hasValidSessionId rt n messageType || !tryAcquireSessionMutex a) then return none
    else return some (messageType, auth)

/-- The switch. What is not awaited ends later, and its error reaches nobody. -/
def dispatch (messageType : String) (auth : Npp.NPAAuthCheckResponse) : Except Thrown Started :=
  let awaited (call : Except Thrown Unit) : Except Thrown Started := do
    call
    return ⟨d.privateKey, []⟩
  let unawaited (call : Except Thrown Unit) : Except Thrown Started := .ok ⟨d.privateKey, [call]⟩
  match messageType with
  | "privatekey" => do return ⟨← cast n.value, []⟩
  | "sshpublickey" => awaited (d.handlePublicKeyNotification n a)
  | "sshd" => unawaited (d.handleLegacySshRequestNotification rt n a auth)
  | "ping" => unawaited a.notifyHeartbeat
  | "ssh_request" => unawaited (d.handleSshRequestNotification rt n a auth)
  | "npt_request" => unawaited (d.handleNptRequestNotification rt n a auth)
  | "relay_latency_request" => awaited (handleRelayLatencyCheckRequest rt n a)
  | _ => .ok ⟨d.privateKey, []⟩

/-- How a notification's handling ends: the handler itself, and what it started without awaiting it. -/
structure Handled where
  daemon : SshnpdImpl
  handler : Except Thrown Unit
  unawaited : List (Except Thrown Unit)

/-- The body of the handler's outer `try`. -/
def handleClientRequest : Except Thrown Started := do
  match ← d.admitted rt n a with
  | none => return ⟨d.privateKey, []⟩
  | some (messageType, auth) => d.dispatch rt n a messageType auth

def clientRequestNotificationHandler : Handled :=
  match d.handleClientRequest rt n a with
  | .ok started => ⟨{ d with privateKey := started.privateKey }, .ok (), started.unawaited⟩
  | .error _ => ⟨d, .ok (), []⟩

/-- No error is left uncaught. -/
def Handled.Contained (h : Handled) : Prop := Returns h.handler ∧ ∀ call ∈ h.unawaited, Returns call

/-! ### When no error is left uncaught -/

/-- The signature is right, or need not be. -/
def Verified : Prop := d.strict = true → Returns a.verifyEnvelopeSignature

/-- Both the daemon and the policy let the session be opened. -/
def Permitted (auth : Npp.NPAAuthCheckResponse) (s : Session) : Prop :=
  permittedToOpen d.permitOpen s = true ∧ permittedToOpen auth.permitOpen s = true

/-- Whichever of the calls outside the `try` a session's request comes to, it gives a value. -/
structure SessionSafe (auth : Npp.NPAAuthCheckResponse) (s : Session) : Prop where
  requested : d.elc = true → Returns a.logRequested
  refused : d.Verified a → ∀ why, d.signingKey a s.sessionId = .error why → Returns a.notifyRefused
  denied : d.Verified a → ∀ key, d.signingKey a s.sessionId = .ok key → ¬d.Permitted auth s →
    (d.elc = true → Returns a.logDenied) ∧ Returns a.notifyDenied
  approved : d.Verified a → ∀ key, d.signingKey a s.sessionId = .ok key → d.Permitted auth s →
    d.elc = true → Returns a.logApproved
  failed : d.Verified a → ∀ key, d.signingKey a s.sessionId = .ok key → d.Permitted auth s →
    ¬Returns a.start → Returns a.notifyStartFailed
  relay : d.Verified a → ∀ key, d.signingKey a s.sessionId = .ok key → d.Permitted auth s →
    Returns a.start → d.elc = true → ∀ relayAtsign, s.relayAtsign = some relayAtsign →
      Returns (rt.atKeyFromString (d.relayKey s.sessionId relayAtsign)) ∧ Returns a.notifyRelay

/-- The sender's atSign is one, and a request that can be read is safe. -/
def RequestSafe (auth : Npp.NPAAuthCheckResponse) (read : Except Thrown Session) : Prop :=
  Returns (rt.toAtsign n.fromAtsign) ∧ ∀ s, read = .ok s → d.SessionSafe rt a auth s

/-- What a legacy request asks to be opened. -/
def legacySession (sessionId : String) : Session := ⟨sessionId, none, localSshdHost, d.localSshdPort⟩

/-- The text has its four fields, the ports are numbers, and the answers that are needed can be sent. -/
structure LegacySafe (auth : Npp.NPAAuthCheckResponse) (value : String) : Prop where
  fields : 4 ≤ (splitSpaces value).length
  refused : d.requireEnrollmentSignature = true → Returns a.notifyRefused
  port : d.requireEnrollmentSignature = false → ∀ port, (splitSpaces value)[1]? = some port →
    Returns (rt.intParse port)
  remoteForwardPort : d.requireEnrollmentSignature = false → ∀ port, (splitSpaces value)[0]? = some port →
    Returns (rt.intParse port)
  denied : d.requireEnrollmentSignature = false → ¬d.Permitted auth (d.legacySession "") → Returns a.notifyDenied
  reverse : d.requireEnrollmentSignature = false → d.Permitted auth (d.legacySession "") →
    (Returns a.notifyReverse ∧ ∃ success message, a.reverseSsh = .ok (success, message) ∧
      (success = true → d.elc = true → Returns a.logDaemonConnecting)) ∨ Returns a.notifyReverseFailed

/-- A notification that gets past the checks is of a type whose handler is safe. -/
def Safe : Prop :=
  ∀ messageType auth, d.admitted rt n a = .ok (some (messageType, auth)) →
    (messageType = "ping" → Returns a.notifyHeartbeat) ∧
    (messageType = "npt_request" → d.RequestSafe rt n a auth (readNptRequest rt n)) ∧
    (messageType = "ssh_request" → d.RequestSafe rt n a auth (d.readSshRequest rt n)) ∧
    (messageType = "sshd" → ∀ value, n.value = some value → d.LegacySafe rt a auth value)

end SshnpdImpl

theorem cast_eq_ok {α : Type} {v : Option α} {a : α} : cast v = .ok a ↔ v = some a := by
  cases v with
  | none => simp [cast]
  | some b => simp [cast]

@[simp] theorem returns_ok {α : Type} (value : α) : Returns (.ok value : Except Thrown α) := ⟨value, rfl⟩

@[simp] theorem returns_pure {α : Type} (value : α) : Returns (pure value : Except Thrown α) := ⟨value, rfl⟩

@[simp] theorem not_returns_error {α : Type} (e : Thrown) : ¬Returns (.error e : Except Thrown α) := by
  rintro ⟨value, h⟩
  cases h

theorem returns_bind {α β : Type} {call : Except Thrown α} {next : α → Except Thrown β} :
    Returns (call >>= next) ↔ ∃ value, call = .ok value ∧ Returns (next value) := by
  cases call with
  | error e => simp only [error_bind, not_returns_error, reduceCtorEq, false_and, exists_false]
  | ok value => simp only [ok_bind, Except.ok.injEq, exists_eq_left']

@[simp] theorem returns_map {α β : Type} {call : Except Thrown α} {f : α → β} : Returns (f <$> call) ↔ Returns call := by
  cases call with
  | error e => exact iff_of_false (not_returns_error e) (not_returns_error e)
  | ok value => exact iff_of_true (returns_ok (f value)) (returns_ok value)

/-- Of calls that give nothing but a value. -/
theorem returns_then {β : Type} {call : Except Thrown Unit} {next : Except Thrown β} :
    Returns (do call; next) ↔ Returns call ∧ Returns next := by
  rw [returns_bind]
  constructor
  · rintro ⟨value, hcall, hnext⟩
    exact ⟨⟨value, hcall⟩, hnext⟩
  · rintro ⟨⟨value, hcall⟩, hnext⟩
    exact ⟨value, hcall, hnext⟩

namespace SshnpdImpl
variable {rt : Runtime} {d : SshnpdImpl} {n : AtNotification} {a : Answers} {auth : Npp.NPAAuthCheckResponse}

theorem returns_logEvent {call : Except Thrown Unit} : Returns (d.logEvent call) ↔ (d.elc = true → Returns call) := by
  rw [logEvent]
  split
  · rename_i helc
    exact ⟨fun h _ => h, fun h => h helc⟩
  · rename_i helc
    exact ⟨fun _ h => absurd h helc, fun _ => returns_ok ()⟩

theorem verifyRequestSignature_iff : verifyRequestSignature a = true ↔ Returns a.verifyEnvelopeSignature := by
  unfold verifyRequestSignature
  split
  · rename_i value hok
    rw [hok]
    exact iff_of_true rfl (returns_ok value)
  · rename_i e herror
    rw [herror]
    refine iff_of_false ?_ (not_returns_error e)
    split
    · exact Bool.false_ne_true
    · exact Bool.false_ne_true

theorem verified_iff : ¬(d.strict && !verifyRequestSignature a) = true ↔ d.Verified a := by
  rw [Verified, ← verifyRequestSignature_iff, Bool.and_eq_true, Bool.not_eq_true', not_and, Bool.not_eq_false]

theorem returns_startSession {s : Session} : Returns (d.startSession rt a s) ↔
    (d.elc = true → Returns a.logApproved) ∧ (¬Returns a.start → Returns a.notifyStartFailed) ∧
      (Returns a.start → d.elc = true → ∀ relayAtsign, s.relayAtsign = some relayAtsign →
        Returns (rt.atKeyFromString (d.relayKey s.sessionId relayAtsign)) ∧ Returns a.notifyRelay) := by
  rw [startSession, returns_then, returns_logEvent]
  apply and_congr_right
  intro _
  cases hstart : a.start with
  | error e => simp
  | ok value =>
    cases hrelay : s.relayAtsign with
    | none => simp
    | some relayAtsign =>
      cases helc : d.elc with
      | true => simp [returns_then]
      | false => simp

theorem returns_deny : Returns (d.deny a) ↔ (d.elc = true → Returns a.logDenied) ∧ Returns a.notifyDenied := by
  rw [deny, returns_then, returns_logEvent]

theorem returns_clientSigningKey_bind {sessionId : String} {next : Bool × Option String → Except Thrown Unit} :
    Returns (d.clientSigningKey a sessionId >>= next) ↔
      (∀ why, d.signingKey a sessionId = .error why → Returns a.notifyRefused ∧ Returns (next (true, none))) ∧
        ∀ key, d.signingKey a sessionId = .ok key → Returns (next (false, key)) := by
  rw [clientSigningKey]
  cases d.signingKey a sessionId with
  | error why => simp [returns_then]
  | ok key => simp

/-- The condition, in the order in which the handler comes to its calls. -/
theorem sessionSafe_iff {s : Session} : d.SessionSafe rt a auth s ↔
    (d.elc = true → Returns a.logRequested) ∧ (d.Verified a →
      (∀ why, d.signingKey a s.sessionId = .error why → Returns a.notifyRefused) ∧
        ∀ key, d.signingKey a s.sessionId = .ok key →
          (¬d.Permitted auth s → Returns (d.deny a)) ∧ (d.Permitted auth s → Returns (d.startSession rt a s))) := by
  rw [returns_deny, returns_startSession]
  constructor
  · intro h
    exact ⟨h.requested, fun hv => ⟨h.refused hv, fun key hkey =>
      ⟨h.denied hv key hkey, fun hp =>
        ⟨h.approved hv key hkey hp, h.failed hv key hkey hp, h.relay hv key hkey hp⟩⟩⟩⟩
  · rintro ⟨hrequested, h⟩
    exact {
      requested := hrequested
      refused := fun hv => (h hv).1
      denied := fun hv key hkey => ((h hv).2 key hkey).1
      approved := fun hv key hkey hp => (((h hv).2 key hkey).2 hp).1
      failed := fun hv key hkey hp => (((h hv).2 key hkey).2 hp).2.1
      relay := fun hv key hkey hp => (((h hv).2 key hkey).2 hp).2.2 }

theorem returns_permittedToOpen {s : Session} {denied opened : Except Thrown Unit} :
    Returns (if !permittedToOpen d.permitOpen s then denied
        else if !permittedToOpen auth.permitOpen s then denied else opened) ↔
      (¬d.Permitted auth s → Returns denied) ∧ (d.Permitted auth s → Returns opened) := by
  rw [Permitted]
  cases permittedToOpen d.permitOpen s with
  | false => simp
  | true =>
    cases permittedToOpen auth.permitOpen s with
    | false => simp
    | true => simp

theorem returns_handleSessionRequest {read : Except Thrown Session} :
    Returns (d.handleSessionRequest rt n a auth read) ↔ d.RequestSafe rt n a auth read := by
  unfold handleSessionRequest
  rw [returns_bind, RequestSafe]
  cases hfrom : rt.toAtsign n.fromAtsign with
  | error e => simp
  | ok requesting =>
    cases read with
    | error e => simp
    | ok s =>
      simp only [Except.ok.injEq, exists_eq_left', returns_ok, true_and, forall_eq']
      rw [returns_then, returns_logEvent, sessionSafe_iff]
      apply and_congr_right
      intro _
      by_cases hverified : d.Verified a
      · rw [if_neg (verified_iff.mpr hverified), returns_clientSigningKey_bind]
        simp only [reduceIte, Bool.false_eq_true, returns_pure, and_true, returns_permittedToOpen, hverified,
          forall_const]
      · rw [if_pos (not_not.mp (mt verified_iff.mp hverified))]
        exact iff_of_true (returns_ok ()) (fun h => absurd h hverified)

theorem returns_elementAt_bind {α : Type} {list : List String} {i : ℕ} {next : String → Except Thrown α} :
    Returns (elementAt list i >>= next) ↔ ∃ s, list[i]? = some s ∧ Returns (next s) := by
  rw [elementAt]
  cases list[i]? with
  | none => simp
  | some s => simp

theorem returns_startReverseSsh : Returns (d.startReverseSsh a) ↔
    (Returns a.notifyReverse ∧ ∃ success message, a.reverseSsh = .ok (success, message) ∧
      (success = true → d.elc = true → Returns a.logDaemonConnecting)) ∨ Returns a.notifyReverseFailed := by
  have hreverse : Returns (d.reverseSsh a) ↔ Returns a.notifyReverse ∧ ∃ success message,
      a.reverseSsh = .ok (success, message) ∧ (success = true → d.elc = true → Returns a.logDaemonConnecting) := by
    unfold reverseSsh
    rw [returns_bind]
    cases a.reverseSsh with
    | error e => simp
    | ok outcome =>
      obtain ⟨success, message⟩ := outcome
      cases success with
      | false => simp
      | true => simp [returns_then, returns_logEvent, and_comm]
  rw [← hreverse, startReverseSsh]
  cases d.reverseSsh a with
  | error e => simp
  | ok value => simp

/-- The id of a request that passed `hasValidSessionId`, or else the one made for it, is a UUID. -/
theorem isUuid_legacy {value : String} (hvalue : n.value = some value) (hvalid : hasValidSessionId rt n "sshd" = true) :
    isUuid (if (splitSpaces value).length = 5 then (splitSpaces value)[4]?.getD "" else a.uuid.val) = true := by
  split
  · rename_i hlength
    obtain ⟨id, hid⟩ : ∃ id, (splitSpaces value)[4]? = some id :=
      ⟨_, List.getElem?_eq_getElem (by omega)⟩
    have hall : (splitSpaces value)[4]?.all isUuid = true := by
      simpa [hasValidSessionId, validSessionId, hvalue, cast] using hvalid
    rw [hid] at hall ⊢
    exact hall
  · exact a.uuid.property

theorem returns_legacyRequest {remoteForwardPort port username host sessionId : String} (hid : isUuid sessionId = true) :
    Returns (d.legacyRequest rt remoteForwardPort port username host sessionId) ↔
      Returns (rt.intParse port) ∧ Returns (rt.intParse remoteForwardPort) := by
  unfold legacyRequest
  cases rt.intParse port with
  | error e => simp
  | ok portNumber =>
    cases rt.intParse remoteForwardPort with
    | error e => simp
    | ok forwardNumber => simp [SshnpSessionRequest.make, assertValidSessionId, assertValidValue, hid]

theorem returns_handleLegacySshRequestNotification {value : String} (hvalue : n.value = some value)
    (hvalid : hasValidSessionId rt n "sshd" = true) :
    Returns (d.handleLegacySshRequestNotification rt n a auth) ↔ d.LegacySafe rt a auth value := by
  have huuid := isUuid_legacy (a := a) hvalue hvalid
  unfold handleLegacySshRequestNotification
  simp only [hvalue, cast, ok_bind, returns_elementAt_bind]
  generalize (if (splitSpaces value).length = 5 then (splitSpaces value)[4]?.getD "" else a.uuid.val) = sessionId
    at huuid ⊢
  -- what is asked to be opened doesn't depend on the request's fields
  have hopen : ∀ remoteForwardPort port username host,
      Returns (do
        let req ← d.legacyRequest rt remoteForwardPort port username host sessionId
        let s : Session := ⟨req.sessionId, none, localSshdHost, d.localSshdPort⟩
        if !permittedToOpen d.permitOpen s then a.notifyDenied
        else if !permittedToOpen auth.permitOpen s then a.notifyDenied
        else d.startReverseSsh a) ↔
      (Returns (rt.intParse port) ∧ Returns (rt.intParse remoteForwardPort)) ∧
        (¬d.Permitted auth (d.legacySession "") → Returns a.notifyDenied) ∧
          (d.Permitted auth (d.legacySession "") → Returns (d.startReverseSsh a)) := by
    intro remoteForwardPort port username host
    rw [← returns_legacyRequest huuid, returns_bind]
    constructor
    · rintro ⟨req, hreq, h⟩
      exact ⟨⟨req, hreq⟩, returns_permittedToOpen.mp h⟩
    · rintro ⟨⟨req, hreq⟩, h⟩
      exact ⟨req, hreq, returns_permittedToOpen.mpr h⟩
  constructor
  · rintro ⟨forward, hforward, port, hport, username, -, host, hhost, h⟩
    have hopened (hrequire : d.requireEnrollmentSignature = false) :=
      (hopen forward port username host).mp (by rwa [hrequire] at h)
    exact {
      fields := (List.getElem?_eq_some_iff.mp hhost).1
      refused := fun hrequire => by rwa [hrequire] at h
      port := fun hrequire p hp => by
        rw [Option.some.inj (hp.symm.trans hport)]
        exact (hopened hrequire).1.1
      remoteForwardPort := fun hrequire p hp => by
        rw [Option.some.inj (hp.symm.trans hforward)]
        exact (hopened hrequire).1.2
      denied := fun hrequire => (hopened hrequire).2.1
      reverse := fun hrequire hpermitted => returns_startReverseSsh.mp ((hopened hrequire).2.2 hpermitted) }
  · intro h
    have hfields := h.fields
    have hat (i : ℕ) (hi : i < 4) : ∃ s, (splitSpaces value)[i]? = some s :=
      ⟨_, List.getElem?_eq_getElem (by omega)⟩
    obtain ⟨forward, hforward⟩ := hat 0 (by omega)
    obtain ⟨port, hport⟩ := hat 1 (by omega)
    obtain ⟨username, husername⟩ := hat 2 (by omega)
    obtain ⟨host, hhost⟩ := hat 3 (by omega)
    refine ⟨forward, hforward, port, hport, username, husername, host, hhost, ?_⟩
    cases hrequire : d.requireEnrollmentSignature with
    | true => exact h.refused hrequire
    | false =>
      exact (hopen forward port username host).mpr
        ⟨⟨h.port hrequire port hport, h.remoteForwardPort hrequire forward hforward⟩, h.denied hrequire,
          fun hpermitted => returns_startReverseSsh.mpr (h.reverse hrequire hpermitted)⟩

theorem hasValidSessionId_of_admitted {messageType : String}
    (h : d.admitted rt n a = .ok (some (messageType, auth)))
    (htype : ["ssh_request", "npt_request", "sshd"].contains messageType = true) :
    hasValidSessionId rt n messageType = true := by
  unfold admitted at h
  split at h
  · cases h
  · obtain ⟨resp, -, h⟩ := bind_eq_ok.mp h
    split at h
    · cases h
    · split at h
      · cases h
      · rename_i hchecked
        cases h
        rw [htype] at hchecked
        simp at hchecked
        exact hchecked.1

theorem exists_value_of_hasValidSessionId (h : hasValidSessionId rt n "sshd" = true) : ∃ value, n.value = some value := by
  cases hvalue : n.value with
  | none => simp [hasValidSessionId, validSessionId, hvalue, cast] at h
  | some value => exact ⟨value, rfl⟩

/-- What the switch starts without awaiting it ends without an error just when the message's handler is safe. -/
theorem returns_unawaited_iff {messageType : String}
    (hvalid : messageType = "sshd" → hasValidSessionId rt n "sshd" = true) :
    (∀ started, d.dispatch rt n a messageType auth = .ok started → ∀ call ∈ started.unawaited, Returns call) ↔
      (messageType = "ping" → Returns a.notifyHeartbeat) ∧
      (messageType = "npt_request" → d.RequestSafe rt n a auth (readNptRequest rt n)) ∧
      (messageType = "ssh_request" → d.RequestSafe rt n a auth (d.readSshRequest rt n)) ∧
      (messageType = "sshd" → ∀ value, n.value = some value → d.LegacySafe rt a auth value) := by
  unfold dispatch
  split
  · -- `privatekey` starts nothing
    refine iff_of_true ?_ (by simp)
    intro started hstarted call hcall
    obtain ⟨key, -, hpure⟩ := bind_eq_ok.mp hstarted
    cases hpure
    cases hcall
  · refine iff_of_true ?_ (by simp)
    intro started hstarted call hcall
    obtain ⟨⟨⟩, -, hpure⟩ := bind_eq_ok.mp hstarted
    cases hpure
    cases hcall
  · obtain ⟨value, hvalue⟩ := exists_value_of_hasValidSessionId (hvalid rfl)
    simp [returns_handleLegacySshRequestNotification hvalue (hvalid rfl), hvalue]
  · simp
  · simp [handleSshRequestNotification, returns_handleSessionRequest]
  · simp [handleNptRequestNotification, returns_handleSessionRequest]
  · refine iff_of_true ?_ (by simp)
    intro started hstarted call hcall
    obtain ⟨⟨⟩, -, hpure⟩ := bind_eq_ok.mp hstarted
    cases hpure
    cases hcall
  · rename_i hsshd hping hssh hnpt _
    refine iff_of_true (by simp) ⟨?_, ?_, ?_, ?_⟩
    · exact fun h => absurd h hping
    · exact fun h => absurd h hnpt
    · exact fun h => absurd h hssh
    · exact fun h => absurd h hsshd

/-- The handler itself always ends well: only what it starts without awaiting it can leave an error. -/
theorem contained_iff_unawaited : (d.clientRequestNotificationHandler rt n a).Contained ↔
    ∀ started, d.handleClientRequest rt n a = .ok started → ∀ call ∈ started.unawaited, Returns call := by
  unfold clientRequestNotificationHandler
  cases d.handleClientRequest rt n a with
  | error e => simp [Handled.Contained]
  | ok started => simp [Handled.Contained]

theorem contained_iff : (d.clientRequestNotificationHandler rt n a).Contained ↔ d.Safe rt n a := by
  rw [contained_iff_unawaited, handleClientRequest, Safe]
  cases hadmitted : d.admitted rt n a with
  | error e => simp
  | ok admission =>
    cases admission with
    | none =>
      refine iff_of_true ?_ (by simp)
      intro started hstarted call hcall
      cases hstarted
      cases hcall
    | some pair =>
      obtain ⟨messageType, auth⟩ := pair
      have hsshd (htype : messageType = "sshd") : hasValidSessionId rt n "sshd" = true := by
        subst htype
        exact hasValidSessionId_of_admitted hadmitted (by decide)
      refine (returns_unawaited_iff hsshd).trans ⟨?_, fun h => h messageType auth rfl⟩
      intro h messageType' auth' heq
      cases heq
      exact h

/-- A legacy request of one field, from a manager. -/
def truncated : AtNotification :=
  ⟨"1", "@daemon:sshd.dev.sshnp@client", "@client", "@daemon", some "22"⟩

def managed : SshnpdImpl :=
  { device := "dev", deviceAtsign := "@daemon", managerAtsigns := ["@client"], policy := false, strict := false
    requireEnrollmentSignature := false, addSshPublicKeys := false, permitOpen := ["*:*"], localSshdPort := 22
    elc := false, privateKey := "", clientSessions := [] }

/-- Every call gives a value. -/
def answering : Answers :=
  { notifPreProcessor := .ok (), mayConnect := .ok none, tryAcquireServerMutex := .ok true
    logRequested := .ok (), logDenied := .ok (), logApproved := .ok (), logDaemonConnecting := .ok ()
    verifyEnvelopeSignature := .ok (), verifyEnrollmentSignature := .ok none, start := .ok ()
    reverseSsh := .ok (true, none), uuid := ⟨"01234567-89ab-cdef-0123-456789abcdef", by decide⟩
    authorizedKeys := .ok (), measureLatencies := .ok (), notifyNack := .ok (), notifyRefused := .ok ()
    notifyDenied := .ok (), notifyStartFailed := .ok (), notifyRelay := .ok (), notifyReverse := .ok ()
    notifyReverseFailed := .ok (), notifyLatencies := .ok (), notifyHeartbeat := .ok () }

def lowercased : Runtime :=
  { toLowerCase := id, jsonDecode := fun _ => .ok .null, intParse := fun _ => .ok 22, toAtsign := .ok
    atKeyFromString := fun _ => .ok () }

/-- Its second field is read before there is any `try` around it. -/
theorem truncated_not_contained :
    ¬(managed.clientRequestNotificationHandler lowercased truncated answering).Contained := by
  rintro ⟨-, h⟩
  have hescaped : (managed.clientRequestNotificationHandler lowercased truncated answering).unawaited =
      [.error (.other "RangeError")] := by
    decide +kernel
  rw [hescaped] at h
  exact not_returns_error _ (h _ (List.mem_singleton_self _))

end SshnpdImpl
end NoPorts.SshnpdRequests
