import NoPorts.EnrollmentSignature
import NoPorts.Lib.Machine

/-! The relay's verification of an ESCR response, its awaits interleaved with
the starts and ends of sessions. -/
namespace NoPorts.Srvd
open Lib Signing

inductive RAVEReason where
  | jsonDecodeFailed
  | malformedChallengeResponse
  | sessionNotActive
  | dataMismatch
  | decryptionFailed
  | signatureVerificationFailed
  | randomlyInjectedFailure
  deriving DecidableEq, Repr

inductive Thrown where
  | rave (message : String) (reason : RAVEReason)
  | stateError (message : String)
  | other (message : String)
  deriving DecidableEq, Repr

/-- What the verification calls besides the checks of signatures: AES
decryption, the text of a value that is not one, and `toAtsign`, `none` where it
throws. -/
structure Runtime extends Sdk where
  aesDecryptString : (ciphertext key : String) → (iv : List UInt8) → Except String String
  jsonText : Json → String
  toAtsign : String → Option String

/-- `String.fromCharCodes` -/
def fromCharCodes (bytes : List UInt8) : String :=
  String.ofList (bytes.map fun b => Char.ofNat b.toNat)

/-- `'$value'` -/
def Runtime.text (rt : Runtime) : Json → String
  | .str s => s
  | .null => "null"
  | j => rt.jsonText j

def abbreviated (response : String) : String :=
  if response.length > 40 then
    String.ofList (response.toList.take 40) ++ "...[" ++ toString (response.length - 40) ++ " chars]"
  else response

/-- What a verified response says, as the verifier's fields keep it. -/
structure EscrFields where
  sessionId : String
  isSideA : Bool
  atSign : String
  signingKeyUri : String
  deriving DecidableEq, Repr

/-- A decrypted envelope that has passed its checks, up to its signature. -/
structure Claim where
  envelope : List (String × Json)
  signedPayload : List (String × Json)
  isSideA : Bool
  signingKeyUri : String
  atSign : String
  hashingAlgo : HashingAlgoType
  signingAlgo : SigningAlgoType

/-- What a helper answers during one verification. -/
structure RelayAuthVerifyHelper where
  isSessionActive : (sessionId : String) → Bool
  getRelayAuthAesKey : (sessionId : String) → Except Thrown String
  lookup : (sessionId atKey : String) → Except Thrown String

namespace Runtime
variable (rt : Runtime)

/-- The outer parts of a response: the session's id, and the JSON of the envelope. -/
def splitResponse (response : String) : Except Thrown (String × String) :=
  match (response.toList.splitOn ':').map String.ofList with
  | [sessionId, encryptedAuthEnvelope64] =>
    match rt.base64Decode encryptedAuthEnvelope64 with
    | some bytes => return (sessionId, fromCharCodes bytes)
    | none => throw (.rave ("FormatException while doing" ++
        " String.fromCharCodes(base64Decode(encryptedAuthEnvelope64)) on " ++
        abbreviated response) .malformedChallengeResponse)
  | _ => throw (.rave ("Expected <sid>:<payload> but got " ++ abbreviated response)
      .malformedChallengeResponse)

/-- The `iv` and `e` of the outer envelope. -/
def readOuter (json : String) : Except Thrown (String × String) :=
  match rt.jsonDecode json with
  | .ok (.obj outer) =>
    match Json.field outer "iv", Json.field outer "e" with
    | .str iv, .str e => return (iv, e)
    | .str _, _ => throw (.rave "No envelopeEncrypted (\"e\") in encryptedAuthEnvelope"
        .malformedChallengeResponse)
    | _, _ => throw (.rave "No iv in encryptedAuthEnvelope" .malformedChallengeResponse)
  | _ => throw (.rave ("Unable to decode encryptedAuthEnvelopJson (" ++ json ++ ")")
      .jsonDecodeFailed)

/-- The JSON of the inner envelope. -/
def decrypt (iv envelopeEncrypted64 aesKey64 : String) : Except Thrown String :=
  match rt.base64Decode iv with
  | none => throw (.rave "Could not decrypt auth envelope: FormatException" .decryptionFailed)
  | some ivBytes =>
    match rt.aesDecryptString envelopeEncrypted64 aesKey64 ivBytes with
    | .error err => throw (.rave ("Could not decrypt auth envelope: " ++ err) .decryptionFailed)
    | .ok envelope64 =>
      match rt.base64Decode envelope64 with
      | none => throw (.other "FormatException")
      | some bytes => return fromCharCodes bytes

/-- `(signedPayload['side'] ?? '').toString().toLowerCase()` -/
def sideText (signedPayload : List (String × Json)) : String :=
  let value := Json.field signedPayload "side"
  rt.toLowerCase (if value.isNull then "" else rt.text value)

/-- Whether that is side A, when it is a side. -/
def sideOf (signedPayload : List (String × Json)) : Option Bool :=
  if rt.sideText signedPayload = "a" then some true
  else if rt.sideText signedPayload = "b" then some false
  else none

/-- The atSign of a signing key's uri, as the uri spells it. -/
def writtenAtSign (uri : String) : String := String.ofList (fromLast '@' uri.toList)

/-- The atSign that owns the signing key, and the checks of the key's uri. -/
def ownerOf (uri : String) : Except Thrown String :=
  if '@' ∉ uri.toList then throw (.other "RangeError")
  else if ¬"a.__e".toList <:+ beforeLast '@' uri.toList then
    throw (.rave ("Signing key (" ++ uri ++
      ") is not in the per-enrollment data namespace (a.__e)") .signatureVerificationFailed)
  else if !signingKeyUriShape uri then
    throw (.rave ("Signing key (" ++ uri ++
      ") is not of the form public:_apsk.<enrollmentId>.a.__e@<atSign>")
      .signatureVerificationFailed)
  else
    match rt.toAtsign (writtenAtSign uri) with
    | none => throw (.other "InvalidAtSignException")
    | some signer =>
      if rt.toLowerCase (writtenAtSign uri) ≠ signer then
        throw (.rave ("Signing key (" ++ uri ++ ") spells its atSign other than as " ++ signer)
          .signatureVerificationFailed)
      else return signer

/-- The checks of the decrypted envelope against the session and the challenge. -/
def readEnvelope (challenge sessionId envelopeJson : String) : Except Thrown Claim :=
  match rt.jsonDecode envelopeJson with
  | .ok (.obj envelope) =>
    match Json.field envelope "p" with
    | .obj signedPayload =>
      match rt.sideOf signedPayload with
      | none => throw (.rave ("signedPayload side (\"" ++ rt.text (Json.field signedPayload "side") ++
          "\") must be either \"a\" or \"b\"") .malformedChallengeResponse)
      | some isSideA =>
        if (Json.field signedPayload "sid").str? ≠ some sessionId then
          throw (.rave ("signedPayload sessionId (" ++ rt.text (Json.field signedPayload "sid") ++
            ") does not match expected sessionId (" ++ sessionId ++ ")") .dataMismatch)
        else if (Json.field signedPayload "c").str? ≠ some challenge then
          throw (.rave ("signedPayload challenge (" ++ rt.text (Json.field signedPayload "c") ++
            ") does not match challenge issued (" ++ challenge ++ ")") .dataMismatch)
        else
          match (Json.field envelope "sk").str? with
          | none => throw (.other "TypeError")
          | some uri =>
            match rt.ownerOf uri with
            | .error e => throw e
            | .ok atSign =>
              match (Json.field envelope "ha").str?.bind HashingAlgoType.byName?,
                (Json.field envelope "sa").str?.bind SigningAlgoType.byName? with
              | some hashingAlgo, some signingAlgo =>
                if !escrSigningAlgorithms.contains signingAlgo then
                  throw (.rave ("Unsupported signing algorithm " ++ signingAlgo.name)
                    .signatureVerificationFailed)
                else return ⟨envelope, signedPayload, isSideA, uri, atSign, hashingAlgo, signingAlgo⟩
              | _, _ => throw (.other "ArgumentError")
    | _ => throw (.rave "Decrypted challenge response envelope does not contain signedPayload"
        .malformedChallengeResponse)
  | _ => throw (.other "FormatException")

/-- The id of the signing key, when the envelope has one. -/
def readKid (envelope : List (String × Json)) : Except Thrown (Option String) :=
  match Json.field envelope "kid" with
  | .null => return none
  | .str kid => return some kid
  | other => throw (.rave ("The signature names key " ++ rt.text other ++
      ", which is not a string") .signatureVerificationFailed)

/-- The signature of the claim, with the value of the record it names. -/
def verifyClaim (claim : Claim) (apsk : String) : Except Thrown Unit :=
  match (Json.field claim.envelope "s").str? with
  | none => throw (.other "TypeError")
  | some signature =>
    match rt.readKid claim.envelope with
    | .error e => throw e
    | .ok kid =>
      match rt.verifyApskSignature claim.signingKeyUri apsk
        (rt.jsonEncode (.obj claim.signedPayload)) signature claim.signingAlgo claim.hashingAlgo
        kid with
      | .ok () => return ()
      | .error (.apskSignature message) => throw (.rave message .signatureVerificationFailed)
      | .error _ => throw (.other "verifyApskSignature threw")

/-- `verifyChallengeResponse` of a fresh verifier, as a function of what its
helper answers, and what it leaves in the verifier's fields. -/
def verifyWith (challenge : String) (helper : RelayAuthVerifyHelper) (response : String) :
    Except Thrown EscrFields := do
  let (sessionId, json) ← rt.splitResponse response
  if !helper.isSessionActive sessionId then
    throw (.rave ("Session " ++ sessionId ++ " is not active") .sessionNotActive)
  else
    let (iv, e) ← rt.readOuter json
    let envelopeJson ← rt.decrypt iv e (← helper.getRelayAuthAesKey sessionId)
    let claim ← rt.readEnvelope challenge sessionId envelopeJson
    rt.verifyClaim claim (← helper.lookup sessionId claim.signingKeyUri)
    return ⟨sessionId, claim.isSideA, claim.atSign, claim.signingKeyUri⟩

end Runtime

/-! One verifier, the calls of its `verifyChallengeResponse`, and the sessions. -/

/-- A call, by what it is suspended on. -/
inductive Call where
  | made (response : String)
  /-- At `isSessionActive`, which has its answer. -/
  | checking (sessionId json : String) (active : Bool)
  /-- At `getRelayAuthAesKey` or at the decryption, with the key or what was thrown. -/
  | keying (sessionId iv e : String) (key : Except Thrown String)
  /-- At `lookup`, or at the verification of the signature. -/
  | looking (sessionId : String) (claim : Claim)
  | finished (result : Except Thrown Bool)

structure Verifier where
  /-- Live sessions by id, with their `relayAuthAesKey`. -/
  sessions : List (String × Option String)
  consumed : Bool
  sessionId : Option String
  isSideA : Option Bool
  atSign : Option String
  signingKeyUri : Option String
  calls : List Call

inductive VerifierEvent where
  | startSession (id : String) (relayAuthAesKey : Option String)
  | endSession (id : String)
  /-- Call `call` goes on; `record` is how a lookup it awaits has ended. -/
  | resume (call : ℕ) (record : Except Thrown String)

namespace Runtime
variable (rt : Runtime) (challenge : String)

/-- `getRelayAuthAesKey` of a session table. -/
def aesKeyOf (sessions : List (String × Option String)) (sessionId : String) :
    Except Thrown String :=
  match sessions.lookup sessionId with
  | none => throw (.stateError ("Cannot getRelayAuthAesKey - session " ++ sessionId ++
      " has ended"))
  | some none => throw (.other "Null check operator used on a null value")
  | some (some key) => return key

/-- From the call to `isSessionActive`. -/
def onResponse (v : Verifier) (response : String) : Verifier × Call :=
  if v.consumed then
    (v, .finished (.error (.stateError ("RelayAuthVerifierESCR is single-use: construct" ++
      " a new instance per connection so that each gets its own fresh challenge"))))
  else
    match rt.splitResponse response with
    | .error e => ({ v with consumed := true }, .finished (.error e))
    | .ok (sessionId, json) =>
      ({ v with consumed := true, sessionId := some sessionId },
        .checking sessionId json (v.sessions.lookup sessionId).isSome)

/-- From there to `getRelayAuthAesKey`. -/
def onActive (v : Verifier) (sessionId json : String) (active : Bool) : Verifier × Call :=
  if !active then
    (v, .finished (.error (.rave ("Session " ++ sessionId ++ " is not active") .sessionNotActive)))
  else
    match rt.readOuter json with
    | .error e => (v, .finished (.error e))
    | .ok (iv, e) => (v, .keying sessionId iv e (aesKeyOf v.sessions sessionId))

/-- From there to `lookup`; a failed decryption or check ends the call. -/
def onAesKey (v : Verifier) (sessionId iv e : String) (key : Except Thrown String) :
    Verifier × Call :=
  match (do rt.readEnvelope challenge sessionId (← rt.decrypt iv e (← key))) with
  | .error e => (v, .finished (.error e))
  | .ok claim =>
    if (v.sessions.lookup sessionId).isNone then
      ({ v with isSideA := some claim.isSideA, atSign := some claim.atSign },
        .finished (.error (.stateError ("Cannot lookup " ++ claim.signingKeyUri ++ " - session " ++
          sessionId ++ " has ended"))))
    else ({ v with isSideA := some claim.isSideA, atSign := some claim.atSign },
      .looking sessionId claim)

/-- From there to the verdict. -/
def onRecord (v : Verifier) (claim : Claim) (record : Except Thrown String) : Verifier × Call :=
  match (do rt.verifyClaim claim (← record)) with
  | .error e => (v, .finished (.error e))
  | .ok () => ({ v with signingKeyUri := some claim.signingKeyUri }, .finished (.ok true))

/-- What a call does from one suspension to the next. -/
def goOn (v : Verifier) (record : Except Thrown String) : Call → Option (Verifier × Call)
  | .made response => some (rt.onResponse v response)
  | .checking sessionId json active => some (rt.onActive v sessionId json active)
  | .keying sessionId iv e key => some (rt.onAesKey challenge v sessionId iv e key)
  | .looking _ claim => some (rt.onRecord v claim record)
  | .finished _ => none

/-- A start for a live id is refused. -/
def verifierStep (v : Verifier) : VerifierEvent → Option Verifier
  | .startSession id key =>
    some (if (v.sessions.lookup id).isSome then v
      else { v with sessions := (id, key) :: v.sessions })
  | .endSession id => some { v with sessions := v.sessions.filter (·.1 != id) }
  | .resume call record =>
    (v.calls[call]?).bind fun c =>
      (rt.goOn challenge v record c).map fun r => { r.1 with calls := r.1.calls.set call r.2 }

def verifier : Machine Verifier VerifierEvent := ⟨rt.verifierStep challenge⟩

/-- A fresh verifier, with `responses` still to be verified on it. -/
def fresh (sessions : List (String × Option String)) (responses : List String) : Verifier :=
  ⟨sessions, false, none, none, none, none, responses.map .made⟩

end Runtime
end NoPorts.Srvd
