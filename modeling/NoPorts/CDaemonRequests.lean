import Mathlib.Data.Rat.Floor
import NoPorts.CDaemonPolicy
import NoPorts.CDaemonSessions
import NoPorts.Lib.Except

/-! The requests for a session as the C daemon checks them, up to the fork of the
srv that serves one. -/
namespace NoPorts.CDaemon
open Lib Signing

/-! ### cJSON's readers, over the values it parses to -/

/-- The first member of that name, upper and lower case alike. -/
def getObjectItem (json : Option Json) (name : String) : Option Json :=
  match json with
  | some (.obj fields) => (fields.find? fun f => lowerAscii f.1 == lowerAscii name).map (·.2)
  | _ => none

def getStringValue (json : Option Json) : Option String := json.bind Json.str?

def isString (json : Option Json) : Bool := (getStringValue json).isSome

def isObject (json : Option Json) : Bool := (json.bind Json.obj?).isSome

def isTrue : Option Json → Bool
  | some (.bool b) => b
  | _ => false

def getNumberValue : Option Json → Option ℚ
  | some (.int n) => some n
  | some (.double q) => some q
  | _ => none

/-- The conversion of a number to `uint16_t`. -/
def portValue (json : Option Json) : ℕ :=
  match getNumberValue json with
  | some q => (q.floor.toNat) % 65536
  | none => 0

/-! ### handler_commons.c -/

/-- The libraries as the daemon itself uses them: `signingKey` signs what it sends
a relay, `encrypt` is for what it sends a client. -/
structure DaemonLibraries extends Atchops where
  base64Encode : List UInt8 → String
  rsaSign : String → Option (List UInt8)
  rsaEncrypt : RsaPublicKey → String → Option (List UInt8)
  /-- `atkeys`'s enrollment id and private key. -/
  enrollmentId : Option String
  pkamPrivateKeyBase64 : String

/-- What the daemon's atServer and the relay's key records answer while one
request is handled, and the random bytes it draws. -/
structure Answers where
  getPublicKey : String → Option String
  lookup : String → PublicLookupResult
  c2d : Option (List UInt8) × Option (List UInt8)
  d2c : Option (List UInt8) × Option (List UInt8)

inductive PayloadType where
  | ssh | npt
  deriving DecidableEq, Repr

structure AtNotification where
  id : Option String
  fromAtsign : Option String
  toAtsign : Option String
  key : Option String
  decryptedValue : Option String
  deriving DecidableEq, Repr

namespace DaemonLibraries
variable (lib : DaemonLibraries)

/-- The buffer the signature is decoded into, which held the key's text before. -/
def signatureBuffer (keyText : String) (signature : List UInt8) : List UInt8 :=
  signature ++ keyText.toUTF8.toList.drop signature.length

def verifyEnvelopeSignature (publicKey : RsaPublicKey) (payload : String)
    (signature : List UInt8) (hashingAlgo signingAlgo : String) : Bool :=
  hashingAlgo == "sha256" && signingAlgo == "rsa2048" && rsaModulusBytes publicKey == 256 &&
    lib.rsaVerify publicKey .sha256 payload (signature.take 256)

def verifyEnvelopeSignatureFrom (answers : Answers) (envelope : Json)
    (requestingAtsign : String) : Bool :=
  match getStringValue (getObjectItem envelope "signature"),
      getStringValue (getObjectItem envelope "hashingAlgo"),
      getStringValue (getObjectItem envelope "signingAlgo"), getObjectItem envelope "payload" with
  | some signature, some hashingAlgo, some signingAlgo, some payload =>
    match answers.getPublicKey requestingAtsign with
    | none => false
    | some keyText =>
      match lib.populatePublicKey keyText, lib.base64Decode signature with
      | some publicKey, some raw =>
        raw.length ≤ keyText.utf8ByteSize &&
          lib.verifyEnvelopeSignature publicKey (lib.printUnformatted payload)
            (signatureBuffer keyText raw) hashingAlgo signingAlgo
      | _, _ => false
  | _, _, _, _ => false

def extractEnvelopeFromNotification (n : AtNotification) : Option (String × Json) :=
  match n.fromAtsign, n.decryptedValue with
  | some requestingAtsign, some value => (lib.parse value).map (requestingAtsign, ·)
  | _, _ => none

end DaemonLibraries

def isValidPort (port : Option Json) : Bool :=
  match getNumberValue port with
  | some value => 1 ≤ value && value ≤ 65535 && value == (portValue port : ℚ)
  | none => false

def isXdigit (c : Char) : Bool :=
  c.isDigit || ('a' ≤ c && c ≤ 'f') || ('A' ≤ c && c ≤ 'F')

def isValidSessionId (sessionId : Option String) : Bool :=
  match sessionId with
  | none => false
  | some sessionId =>
    sessionId.toList.length == 36 && sessionId.toList.zipIdx.all fun c =>
      if c.2 = 8 ∨ c.2 = 13 ∨ c.2 = 18 ∨ c.2 = 23 then c.1 == '-' else isXdigit c.1

def verifyPayloadContents (payload : Option Json) : PayloadType → Bool
  | .ssh =>
    isObject payload && isValidSessionId (getStringValue (getObjectItem payload "sessionId")) &&
      isTrue (getObjectItem payload "direct") && isString (getObjectItem payload "host") &&
        isValidPort (getObjectItem payload "port")
  | .npt =>
    isObject payload && isValidSessionId (getStringValue (getObjectItem payload "sessionId")) &&
      isString (getObjectItem payload "rvdHost") && isValidPort (getObjectItem payload "rvdPort") &&
        isString (getObjectItem payload "requestedHost") &&
          isValidPort (getObjectItem payload "requestedPort")

def verifyEnvelopeContents (envelope : Json) (type : PayloadType) : Bool :=
  isObject envelope && isObject (getObjectItem envelope "payload") &&
    isString (getObjectItem envelope "signature") &&
      isString (getObjectItem envelope "hashingAlgo") &&
        isString (getObjectItem envelope "signingAlgo") &&
          verifyPayloadContents (getObjectItem envelope "payload") type

/-- `format_permitopen_list`, in a buffer that is long enough. -/
def formatPermitopenList (permitopen : List (String × ℕ)) : String :=
  "[" ++ ", ".intercalate (permitopen.map fun e =>
    e.1 ++ ":" ++ if e.2 = 0 then "*" else toString e.2) ++ "]"

/-- `format_string_list`, in a buffer that is long enough. -/
def formatStringList (items : List String) : String := "[" ++ ", ".intercalate items ++ "]"

structure EscrContext where
  sessionId : String
  aesKeyBase64 : String
  signingKeyUri : String
  signingKeyBase64 : String
  deriving DecidableEq, Repr

/-- A session key with its iv, and both as they are sent to the client. -/
structure SessionKey where
  key : String
  iv : String
  keyEncrypted : String
  ivEncrypted : String
  deriving DecidableEq, Repr

namespace DaemonLibraries
variable (lib : DaemonLibraries)

def publicSigningKeyUri (params : SshnpdParams) : String :=
  let id := match lib.enrollmentId with
    | some id => if id = "" then "primary" else id
    | none => "primary"
  "public:_apsk." ++ id ++ ".a.__e" ++ params.atsign

def createRvdAuthString (payload : Option Json) : Option String :=
  match getObjectItem payload "clientNonce", getObjectItem payload "rvdNonce" with
  | some (.str clientNonce), some (.str rvdNonce) =>
    let authPayload := Json.obj
      (((getObjectItem payload "sessionId").map (Prod.mk "sessionId")).toList ++
        [("clientNonce", .str clientNonce), ("rvdNonce", .str rvdNonce)])
    (lib.rsaSign (lib.printUnformatted authPayload)).map fun signature =>
      lib.printUnformatted (.obj [("payload", authPayload),
        ("signature", .str (lib.base64Encode signature)), ("hashingAlgo", .str "sha256"),
        ("signingAlgo", .str "rsa2048")])
  | _, _ => none

def setupRvdSessionEncryption (payload : Option Json)
    (random : Option (List UInt8) × Option (List UInt8)) : Option SessionKey := do
  let pk ← getStringValue (getObjectItem payload "clientEphemeralPK")
  let pkType ← getStringValue (getObjectItem payload "clientEphemeralPKType")
  let key ← random.1
  let iv ← random.2
  if pkType ≠ "rsa2048" then none
  else
    let publicKey ← lib.populatePublicKey pk
    if rsaModulusBytes publicKey ≠ 256 then none
    else
      let keyEncrypted ← lib.rsaEncrypt publicKey (lib.base64Encode key)
      let ivEncrypted ← lib.rsaEncrypt publicKey (lib.base64Encode iv)
      return ⟨lib.base64Encode key, lib.base64Encode iv, lib.base64Encode keyEncrypted,
        lib.base64Encode ivEncrypted⟩

end DaemonLibraries

/-! ### run_srv_process.c -/

def srvDefaultTimeoutSeconds : ℕ := 30
def srvMaxTimeoutSeconds : ℕ := 365 * 24 * 60 * 60

/-- What `run_srv_process` is called with, `readyFd` being whether it has a pipe. -/
structure SrvProcess where
  srvdHost : Option String
  srvdPort : ℕ
  requestedHost : Option String
  requestedPort : ℕ
  authenticateToRvd : Bool
  rvdAuthString : Option String
  escr : Option EscrContext
  encryptRvdTraffic : Bool
  multi : Bool
  timeoutSeconds : ℕ
  c2d : Option SessionKey
  d2c : Option SessionKey
  readyFd : Bool
  deriving DecidableEq, Repr

namespace SrvProcess
variable (p : SrvProcess)

def localHost : String := p.requestedHost.getD "localhost"

def localPort : ℕ := if p.requestedPort ≠ 0 then p.requestedPort else 22

def timeout : ℕ := if 0 < p.timeoutSeconds then p.timeoutSeconds else srvDefaultTimeoutSeconds

/-- The arguments, without the executable and the worker flag. -/
def srvArgs : List String :=
  ["-h", p.srvdHost.getD "", "-p", toString p.srvdPort, "--local-port", toString p.localPort,
    "--local-host", p.localHost, "--timeout", toString p.timeout] ++
    (if p.multi then ["--multi"] else []) ++
      (if p.encryptRvdTraffic then ["--rv-e2ee"] else []) ++
        if p.escr.isSome then ["--relay-auth-mode", "escr"]
        else if p.authenticateToRvd then ["--rv-auth"] else []

/-- The secrets, which go through the environment. -/
def environment : List (String × String) :=
  (match p.escr, p.rvdAuthString with
    | some escr, _ => [("REMOTE_AUTH_ESCR_SESSION_ID", escr.sessionId),
        ("REMOTE_AUTH_ESCR_AES_KEY", escr.aesKeyBase64),
        ("REMOTE_AUTH_ESCR_PUB_KEY_URI", escr.signingKeyUri),
        ("REMOTE_AUTH_ESCR_SIGNING_PRIVKEY", escr.signingKeyBase64),
        ("REMOTE_AUTH_ESCR_IS_SIDE_A", "false")]
    | none, some auth => if p.authenticateToRvd then [("RV_AUTH", auth)] else []
    | none, none => []) ++
    (if p.encryptRvdTraffic then
      (p.c2d.map fun k => [("RV_AES_C2D", k.key), ("RV_IV_C2D", k.iv)]).getD [] ++
        (p.d2c.map fun k => [("RV_AES_D2C", k.key), ("RV_IV_D2C", k.iv)]).getD []
    else []) ++ if p.readyFd then [("SRV_READY_FD", "3")] else []

end SrvProcess

/-! ### client_signing_key.c -/

def unsignedRefused : String :=
  "This daemon requires session requests signed with the client's enrollment key"

/-- What `send_session_error` is called with. -/
structure SessionError where
  requestingAtsign : String
  sessionId : String
  message : String
  deriving DecidableEq, Repr

/-- That a request is refused, with what its client is told, if anything. -/
abbrev Refusal := Option SessionError

/-- The enrollment key the request is signed with, `none` when it is not signed
with one or the signature could not be checked. -/
def DaemonLibraries.checkClientSigningKey (lib : DaemonLibraries) (params : SshnpdParams)
    (sessions : ClientSessions) (answers : Answers) (requestingAtsign : String) (envelope : Json) :
    Except Refusal (Option String) :=
  match getStringValue (getObjectItem (getObjectItem envelope "payload") "sessionId") with
  | none => .error none
  | some sessionId =>
    let refuse why : Except Refusal (Option String) :=
      .error (some ⟨requestingAtsign, sessionId, why⟩)
    if sessions.isWatched sessionId then
      refuse ("A session with id " ++ sessionId ++ " is already live")
    else
      match lib.verifyEnrollmentSignature answers.lookup requestingAtsign
          (envelope.obj?.getD []) with
      | .verified signingKey => .ok (some signingKey)
      | .refused why => refuse ("Enrollment signature not verified: " ++ why)
      | .unchecked why =>
        if params.requireEnrollmentSignature then
          refuse ("Could not check the enrollment signature: " ++ why)
        else .ok none
      | .absent => if params.requireEnrollmentSignature then refuse unsignedRefused else .ok none

/-! ### handle_npt_request.c and handle_ssh_request.c -/

/-- What the two kinds of request do differently: where they connect to, what they
answer when that is denied, where they find the relay, and how srv is to run. -/
structure RequestKind where
  payloadType : PayloadType
  requested : SshnpdParams → Option Json → String × ℕ
  daemonDenies : SshnpdParams → String × ℕ → String
  policyDenies : PolicyDecision → String × ℕ → String
  rvdHost : String
  rvdPort : String
  multi : Bool
  timeoutSeconds : Option Json → ℕ

/-- A timeout in milliseconds as whole seconds, rounded up. -/
def nptTimeoutSeconds (payload : Option Json) : ℕ :=
  match getNumberValue (getObjectItem payload "timeout") with
  | some ms =>
    if 0 < ms then
      max 1 ((min ms (srvMaxTimeoutSeconds * 1000) + 999) / 1000).floor.toNat
    else srvDefaultTimeoutSeconds
  | none => srvDefaultTimeoutSeconds

def nptRequest : RequestKind where
  payloadType := .npt
  requested _ payload := ((getStringValue (getObjectItem payload "requestedHost")).getD "",
    portValue (getObjectItem payload "requestedPort"))
  daemonDenies params at' := "Connection to " ++ at'.1 ++ ":" ++ toString at'.2 ++
    " denied based on daemon --permit-open " ++ formatPermitopenList params.permitopen
  policyDenies decision at' := "Connection to " ++ at'.1 ++ ":" ++ toString at'.2 ++
    " denied based on POLICY --permit-open " ++ formatStringList decision.permitOpen
  rvdHost := "rvdHost"
  rvdPort := "rvdPort"
  multi := true
  timeoutSeconds := nptTimeoutSeconds

def sshRequest : RequestKind where
  payloadType := .ssh
  requested params _ := ("localhost", params.localSshdPort)
  daemonDenies _ at' := "Daemon does not permit connections to localhost:" ++ toString at'.2
  policyDenies _ at' := "Client is not permitted connections to localhost:" ++ toString at'.2
  rvdHost := "host"
  rvdPort := "port"
  multi := false
  timeoutSeconds _ := srvDefaultTimeoutSeconds

/-- A session about to be started for `requestingAtsign`. -/
structure SrvStart where
  requestingAtsign : String
  sessionId : String
  clientSigningKey : Option String
  process : SrvProcess
  deriving DecidableEq, Repr

namespace DaemonLibraries
variable (lib : DaemonLibraries)

/-- How srv is to authenticate to the relay: with ESCR, with an auth string, or
not at all. -/
def relayAuth (params : SshnpdParams) (payload : Option Json) :
    Except Refusal (Option EscrContext × Option String) :=
  if isTrue (getObjectItem payload "authenticateToRvd") then
    match getStringValue (getObjectItem payload "relayAuthMode"),
        getStringValue (getObjectItem payload "relayAuthAesKey"),
        getStringValue (getObjectItem payload "sessionId") with
    | some "escr", some aesKey, some sessionId =>
      .ok (some ⟨sessionId, aesKey, lib.publicSigningKeyUri params, lib.pkamPrivateKeyBase64⟩, none)
    | _, _, _ =>
      match lib.createRvdAuthString payload with
      | some auth => .ok (none, some auth)
      | none => .error none
  else .ok (none, none)

/-- The keys of the traffic, in both directions when the client asks for twins. -/
def sessionKeys (answers : Answers) (payload : Option Json) :
    Except Refusal (Option SessionKey × Option SessionKey) :=
  if isTrue (getObjectItem payload "encryptRvdTraffic") then
    match lib.setupRvdSessionEncryption payload answers.c2d with
    | none => .error none
    | some c2d =>
      if isTrue (getObjectItem payload "twinKeys") then
        match lib.setupRvdSessionEncryption payload answers.d2c with
        | none => .error none
        | some d2c => .ok (some c2d, some d2c)
      else .ok (some c2d, none)
  else .ok (none, none)

/-- `start_npt_session` and `start_ssh_session` up to their fork. -/
def startSession (kind : RequestKind) (params : SshnpdParams) (answers : Answers) (pipe : Bool)
    (policy : Option PolicyDecision) (requestingAtsign : String) (envelope : Json)
    (clientSigningKey : Option String) : Except Refusal SrvStart :=
  let payload := getObjectItem envelope "payload"
  let requested := kind.requested params payload
  let sessionId := (getStringValue (getObjectItem payload "sessionId")).getD ""
  if ¬shouldPermitopen params.permitopen requested.1 requested.2 then
    .error (some ⟨requestingAtsign, sessionId, kind.daemonDenies params requested⟩)
  else if ¬policy.all (policyPermitsOpen · requested.1 requested.2) then
    .error (policy.map fun decision =>
      ⟨requestingAtsign, sessionId, kind.policyDenies decision requested⟩)
  else do
    let auth ← lib.relayAuth params payload
    let keys ← lib.sessionKeys answers payload
    return {
      requestingAtsign := requestingAtsign
      sessionId := sessionId
      clientSigningKey := clientSigningKey
      process := {
        srvdHost := getStringValue (getObjectItem payload kind.rvdHost)
        srvdPort := portValue (getObjectItem payload kind.rvdPort)
        requestedHost := some requested.1
        requestedPort := requested.2
        authenticateToRvd := isTrue (getObjectItem payload "authenticateToRvd")
        rvdAuthString := auth.2
        escr := auth.1
        encryptRvdTraffic := isTrue (getObjectItem payload "encryptRvdTraffic")
        multi := kind.multi
        timeoutSeconds := kind.timeoutSeconds payload
        c2d := keys.1
        d2c := keys.2
        readyFd := pipe } }

/-- `handle_npt_request` and `handle_ssh_request` up to their fork. -/
def handleRequest (kind : RequestKind) (params : SshnpdParams) (sessions : ClientSessions)
    (answers : Answers) (pipe : Bool) (n : AtNotification) (policy : Option PolicyDecision) :
    Except Refusal SrvStart :=
  match lib.extractEnvelopeFromNotification n with
  | none => .error none
  | some (requestingAtsign, envelope) =>
    if ¬lib.verifyEnvelopeSignatureFrom answers envelope requestingAtsign then .error none
    else if ¬verifyEnvelopeContents envelope kind.payloadType then .error none
    else do
      let clientSigningKey ←
        lib.checkClientSigningKey params sessions answers requestingAtsign envelope
      lib.startSession kind params answers pipe policy requestingAtsign envelope clientSigningKey

def handleNptRequest := lib.handleRequest nptRequest

def handleSshRequest := lib.handleRequest sshRequest

end DaemonLibraries
end NoPorts.CDaemon
