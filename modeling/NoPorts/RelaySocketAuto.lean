import NoPorts.RelayAuthEscr
import NoPorts.SrvdModels
import NoPorts.Lib.Piped

/-! One socket of a `RelayAuthVerifierAuto`: its chunks, its timer, the hints of
its mode, and the tasks these start, which take turns on the socket's mutex. -/
namespace NoPorts.Srvd
open Lib Signing

def maxAuthBufferLength : ℕ := 16384

def isUnprintable (codeUnit : ℕ) : Bool := codeUnit < 33 || codeUnit > 127

def newline : UInt8 := 10

/-- `mode` of `verifySocketAuth` -/
inductive SocketMode where
  | detecting
  | legacy
  | escr
  deriving DecidableEq, Repr

/-- What the relay writes to a socket. -/
inductive Written where
  | challenge
  | ok
  | authFailed
  deriving DecidableEq, Repr

/-- How what a task awaits ends: a flush of the socket, or the helper's answers. -/
structure Reply where
  flush : Except Thrown Unit
  helper : RelayAuthVerifyHelper

/-- A task, by what it does in its next turn. The last five have begun, and hold
the mutex while they await. -/
inductive SocketTask where
  /-- The end of `verifySocketAuth` itself. -/
  | start
  | resolve (m : RelayAuthMode)
  | chunk (data : List UInt8)
  | onError
  | onDone
  | challenging
  | legacyLine (message : String)
  | escrLine (response : String)
  | confirming
  | failing (e : Thrown)

/-- The fields of a `RelayAuthVerifierAuto`, with the challenge of the ESCR
verifier that `verifySocketAuth` makes. -/
structure RelayAuthVerifierAuto extends Runtime where
  challenge : String
  expectedAtSign : String
  sessionId : String
  isSideA : Bool
  dataToVerify : String
  rvdNonce : String
  publicKey : Option String

structure Socket where
  mode : SocketMode
  authenticated : Bool
  buffer : List UInt8
  /-- What `sc` has been given. -/
  sc : List (Delivery UInt8)
  completer : Option (Except Thrown Unit)
  /-- Whether `detectTimer` is running. -/
  detectTimer : Bool
  destroyed : Bool
  written : List Written
  /-- What `onEscrVerified` has been called with. -/
  reported : List String
  /-- `_consumed` of the ESCR verifier. -/
  consumed : Bool
  knownMode : Option RelayAuthMode
  /-- Whether the socket has come to its end. -/
  ended : Bool
  /-- The holder of the mutex, and those that wait for it. -/
  queue : List SocketTask

inductive SocketEvent where
  | chunk (data : List UInt8)
  | error
  | done
  | timer
  /-- `setKnownMode`, which reaches this socket if it is the last to connect. -/
  | setKnownMode (m : RelayAuthMode) (resolves : Bool)
  /-- Another socket of the verifier has authenticated. -/
  | otherVerified (m : RelayAuthMode)
  /-- The holder of the mutex goes on. -/
  | resume (reply : Reply)

namespace Socket

def isClosed (s : Socket) : Bool := s.sc.contains .done

/-- `if (!sc.isClosed) sc.add(..)` -/
def add (s : Socket) (d : Delivery UInt8) : Socket :=
  if s.isClosed then s else { s with sc := s.sc ++ [d] }

section add
variable (s : Socket) (d : Delivery UInt8)

@[simp] theorem add_mode : (s.add d).mode = s.mode := by unfold add; split <;> rfl

@[simp] theorem add_buffer : (s.add d).buffer = s.buffer := by unfold add; split <;> rfl

@[simp] theorem add_completer : (s.add d).completer = s.completer := by unfold add; split <;> rfl

@[simp] theorem add_written : (s.add d).written = s.written := by unfold add; split <;> rfl

@[simp] theorem add_ended : (s.add d).ended = s.ended := by unfold add; split <;> rfl

@[simp] theorem add_queue : (s.add d).queue = s.queue := by unfold add; split <;> rfl

end add

/-- The end of the holder's turn. -/
def release (s : Socket) (rest : List SocketTask) : Socket := { s with queue := rest }

/-- `failAuth`, through the release that follows it. -/
def failAuth (s : Socket) (rest : List SocketTask) (e : Thrown) : Socket :=
  if s.completer.isSome then s.release rest
  else if s.mode = .escr then
    { s with written := s.written ++ [.authFailed], queue := .failing e :: rest }
  else { s with destroyed := true, completer := some (.error e), queue := rest }

/-- The future completes with the stream, unless it has completed already. -/
def complete (s : Socket) : Socket :=
  match s.completer with
  | none => { s with completer := some (.ok ()) }
  | some _ => s.add .error

/-- What the buffer holds goes to the stream. -/
def flushBuffer (s : Socket) : Socket :=
  if s.buffer = [] then s else { s.add (.data s.buffer) with buffer := [] }

/-- `completeSuccess`, through the release that follows it. -/
def completeSuccess (s : Socket) (rest : List SocketTask) : Socket :=
  let verified : RelayAuthMode := if s.mode = .escr then .escr else .payload
  let t := { s with authenticated := true, knownMode := s.knownMode.or (some verified) }
  t.complete.flushBuffer.release rest

/-- `resolveLocked`, through the release if it awaits nothing. -/
def resolveLocked (s : Socket) (rest : List SocketTask) (m : RelayAuthMode) : Socket :=
  if s.mode ≠ .detecting ∨ s.authenticated = true then s.release rest
  else
    match m with
    | .escr => { s with
        detectTimer := false, mode := .escr, written := s.written ++ [.challenge],
        queue := .challenging :: rest }
    | .payload => { s with detectTimer := false, mode := .legacy, queue := rest }

/-- The first turn of a known mode, or else of the timer. -/
def onStart (s : Socket) (rest : List SocketTask) : Socket :=
  if s.mode = .detecting ∧ s.authenticated = false then
    match s.knownMode with
    | some m => s.resolveLocked rest m
    | none => { s with detectTimer := true, queue := rest }
  else s.release rest

/-- A chunk before authentication, once the mode is known. -/
def bufferChunk (s : Socket) (rest : List SocketTask) (data : List UInt8) : Socket :=
  if s.buffer.length + data.length > maxAuthBufferLength then
    s.failAuth rest (.rave ("Too much data from client (more than " ++
      toString maxAuthBufferLength ++ " bytes)") .malformedChallengeResponse)
  else
    match splitFirst newline (s.buffer ++ data) with
    | none => { s with buffer := s.buffer ++ data, queue := rest }
    | some (line, buffer) => { s with
        buffer := buffer
        queue := (if s.mode = .legacy then .legacyLine (fromCharCodes line)
          else .escrLine (trim (fromCharCodes line))) :: rest }

def unexpectedFirstByte (data : List UInt8) : Thrown :=
  .rave ("Unexpected first byte " ++ (data.head?.elim "null" (toString ·.toNat)) ++
    " from connecting side (legacy sends a JSON object; ESCR sends nothing until challenged)")
    .malformedChallengeResponse

def onChunk (s : Socket) (rest : List SocketTask) (data : List UInt8) : Socket :=
  if s.authenticated then (s.add (.data data)).release rest
  else if s.mode = .detecting then
    -- 0x7B is the brace that opens a JSON object
    if data.head? = some 0x7B then
      bufferChunk { s with detectTimer := false, mode := .legacy } rest data
    else failAuth { s with detectTimer := false } rest (unexpectedFirstByte data)
  else s.bufferChunk rest data

/-- `sc.addError` and `sc.close`, of a socket's error. -/
def closeOnError (s : Socket) (rest : List SocketTask) : Socket :=
  ((s.add .error).add .done).release rest

def closeOnDone (s : Socket) (rest : List SocketTask) : Socket := (s.add .done).release rest

end Socket

namespace RelayAuthVerifierAuto
variable (v : RelayAuthVerifierAuto)

/-- `RelayAuthVerifierLegacy.verifyEnvelope` -/
def verifyEnvelope (publicKey message : String) : Except Thrown Unit :=
  match v.jsonDecode message with
  | .ok (.obj envelope) =>
    match (Json.field envelope "hashingAlgo").str?.bind HashingAlgoType.byName?,
      (Json.field envelope "signingAlgo").str?.bind SigningAlgoType.byName? with
    | some hashingAlgo, some signingAlgo =>
      match Json.field envelope "payload" with
      | .obj payload =>
        if (Json.field payload "rvdNonce").str? ≠ some v.rvdNonce then
          throw (.rave "Received rvdNonce which does not match what is expected" .dataMismatch)
        else if signingAlgo ≠ .rsa2048 then
          throw (.rave "Signature verification failed. Signatures did not match."
            .signatureVerificationFailed)
        else
          match (Json.field envelope "signature").str? with
          | none => throw (.other "TypeError")
          | some signature =>
            match v.rsaVerifyString v.dataToVerify signature publicKey hashingAlgo with
            | .ok true => return ()
            | .ok false => throw (.rave "Signature verification failed. Signatures did not match."
                .signatureVerificationFailed)
            | .error _ => throw (.other "rsaVerifyString threw")
      | _ => throw (.rave "Received an auth signature which does not include the payload"
          .malformedChallengeResponse)
    | _, _ => throw (.other "ArgumentError")
  | .ok _ => throw (.other "TypeError")
  | .error _ => throw (.other "FormatException")

/-- `publicKey ?? await helper.lookup(..)` -/
def legacyKey (helper : RelayAuthVerifyHelper) : Except Thrown String :=
  match v.publicKey with
  | some publicKey => .ok publicKey
  | none => helper.lookup v.sessionId ("public:publickey" ++ v.expectedAtSign)

def handleLegacyLine (helper : RelayAuthVerifyHelper) (message : String) : Except Thrown Unit := do
  let publicKey ← v.legacyKey helper
  match v.toAtsign v.expectedAtSign with
  | none => throw (.other "InvalidAtSignException")
  | some _ => v.verifyEnvelope publicKey message

def sideName (isSideA : Bool) : String := if isSideA then "A" else "B"

/-- What `handleEscrLine` asks of a verified response. -/
def checkFields (fields : EscrFields) : Except Thrown Unit :=
  if fields.sessionId ≠ v.sessionId then
    throw (.rave ("ESCR response for session " ++ fields.sessionId ++
      " on the socket for session " ++ v.sessionId) .dataMismatch)
  else if fields.isSideA ≠ v.isSideA then
    throw (.rave ("ESCR response for side " ++ sideName fields.isSideA ++
      " on the socket for side " ++ sideName v.isSideA) .dataMismatch)
  else
    match v.toAtsign v.expectedAtSign with
    | none => throw (.other "InvalidAtSignException")
    | some atSign =>
      if fields.atSign ≠ atSign then
        throw (.rave ("ESCR response signed by " ++ fields.atSign ++ " on the socket for " ++ atSign)
          .dataMismatch)
      else return ()

/-- `handleEscrLine`, up to the `ok` it writes. -/
def onEscrLine (s : Socket) (rest : List SocketTask) (helper : RelayAuthVerifyHelper)
    (response : String) : Socket :=
  if response.toList.any (fun c => isUnprintable c.toNat) then
    s.failAuth rest (.rave "received unprintable code units" .malformedChallengeResponse)
  else if s.consumed then
    s.failAuth rest (.stateError ("RelayAuthVerifierESCR is single-use: construct" ++
      " a new instance per connection so that each gets its own fresh challenge"))
  else
    match (do
      let fields ← v.verifyWith v.challenge helper response
      v.checkFields fields
      return fields) with
    | .error e => Socket.failAuth { s with consumed := true } rest e
    | .ok fields => { s with
        consumed := true, reported := s.reported ++ [fields.signingKeyUri],
        written := s.written ++ [.ok], queue := .confirming :: rest }

/-- The next turn of the task that holds the mutex, `rest` those that wait. -/
def turn (s : Socket) (rest : List SocketTask) (reply : Reply) : SocketTask → Socket
  | .start => s.onStart rest
  | .resolve m => s.resolveLocked rest m
  | .chunk data => s.onChunk rest data
  | .onError => s.closeOnError rest
  | .onDone => s.closeOnDone rest
  | .challenging =>
    match reply.flush with
    | .ok () => s.release rest
    | .error e => s.failAuth rest e
  | .legacyLine message =>
    match v.handleLegacyLine reply.helper message with
    | .ok () => s.completeSuccess rest
    | .error e => s.failAuth rest e
  | .escrLine response => v.onEscrLine s rest reply.helper response
  | .confirming =>
    match reply.flush with
    | .ok () => s.completeSuccess rest
    | .error e => s.failAuth rest e
  | .failing e => { s with
      destroyed := s.destroyed || reply.flush.isOk, completer := some (.error e), queue := rest }

/-- Nothing comes from a socket after its end. -/
def socketStep (s : Socket) : SocketEvent → Option Socket
  | .chunk data =>
    if s.ended then none
    else if s.authenticated ∧ s.queue = [] then some (s.add (.data data))
    else some { s with queue := s.queue ++ [.chunk data] }
  | .error => if s.ended then none else some { s with queue := s.queue ++ [.onError] }
  | .done =>
    if s.ended then none else some { s with ended := true, queue := s.queue ++ [.onDone] }
  | .timer =>
    if s.detectTimer then
      some { s with detectTimer := false, queue := s.queue ++ [.resolve .escr] }
    else none
  | .setKnownMode m resolves =>
    some { s with
      knownMode := some m, queue := s.queue ++ if resolves then [.resolve m] else [] }
  | .otherVerified m => some { s with knownMode := s.knownMode.or (some m) }
  | .resume reply =>
    match s.queue with
    | [] => none
    | task :: rest => some (v.turn s rest reply task)

def socket : Machine Socket SocketEvent := ⟨v.socketStep⟩

/-- A socket as `verifySocketAuth` begins to listen to it. -/
def connected (knownMode : Option RelayAuthMode) : Socket where
  mode := .detecting
  authenticated := false
  buffer := []
  sc := []
  completer := none
  detectTimer := false
  destroyed := false
  written := []
  reported := []
  consumed := false
  knownMode := knownMode
  ended := false
  queue := [.start]

end RelayAuthVerifierAuto
end NoPorts.Srvd
