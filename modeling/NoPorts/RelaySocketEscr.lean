import NoPorts.RelaySocketAuto

/-! One socket of a `RelayAuthVerifierESCR`: like a socket that detects its mode,
but a chunk after authentication, and the end, go to the stream without the mutex. -/
namespace NoPorts.Srvd
open Lib Signing

namespace Escr

/-- How what a task awaits ends, and whether a failure is injected. -/
structure EscrReply extends Reply where
  randomlyFails : Bool

/-- A task, by what it does in its next turn; the last three have begun. -/
inductive Task where
  | chunk (data : List UInt8)
  | verifying (response : String)
  | confirming
  | failing (e : Thrown)

structure Socket where
  authenticated : Bool
  buffer : List UInt8
  sc : List (Delivery UInt8)
  completer : Option (Except Thrown Unit)
  destroyed : Bool
  written : List Written
  /-- `_consumed` of the verifier. -/
  consumed : Bool
  /-- The verifier's fields, once a response has verified. -/
  fields : Option EscrFields
  ended : Bool
  /-- The holder of `listenMutex`, and those that wait for it. -/
  queue : List Task

inductive Event where
  | chunk (data : List UInt8)
  | error
  | done
  | resume (reply : EscrReply)

namespace Socket

def isClosed (s : Socket) : Bool := s.sc.contains .done

def add (s : Socket) (d : Delivery UInt8) : Socket :=
  if s.isClosed then s else { s with sc := s.sc ++ [d] }

def release (s : Socket) (rest : List Task) : Socket := { s with queue := rest }

/-- The `catch` of the listener, through the release. -/
def failAuth (s : Socket) (rest : List Task) (e : Thrown) : Socket :=
  if s.completer.isSome then s.release rest
  else { s with written := s.written ++ [.authFailed], queue := .failing e :: rest }

def complete (s : Socket) : Socket :=
  match s.completer with
  | none => { s with completer := some (.ok ()) }
  | some _ => s.add .error

/-- Unlike a socket that detects its mode, this one leaves the buffer as it is. -/
def flushBuffer (s : Socket) : Socket := if s.buffer = [] then s else s.add (.data s.buffer)

def completeSuccess (s : Socket) (rest : List Task) : Socket :=
  { s with authenticated := true }.complete.flushBuffer.release rest

/-- The turn of a chunk that has waited for the mutex. -/
def onChunk (s : Socket) (rest : List Task) (data : List UInt8) : Socket :=
  if s.authenticated then (s.add (.data data)).release rest
  else if s.buffer.length + data.length > maxAuthBufferLength then
    s.failAuth rest (.rave ("Too much data from client (more than " ++
      toString maxAuthBufferLength ++ " bytes)") .malformedChallengeResponse)
  else
    match splitFirst newline (s.buffer ++ data) with
    | none => { s with buffer := s.buffer ++ data, queue := rest }
    | some (line, buffer) => { s with
        buffer := buffer, queue := .verifying (trim (fromCharCodes line)) :: rest }

end Socket

/-- A verifier, by what it runs on and the challenge it issues. -/
structure RelayAuthVerifierESCR extends Runtime where
  challenge : String

namespace RelayAuthVerifierESCR
variable (v : RelayAuthVerifierESCR)

/-- From the response to the `ok` that is written for it. -/
def onResponse (s : Socket) (rest : List Task) (reply : EscrReply) (response : String) : Socket :=
  if response.toList.any (fun c => isUnprintable c.toNat) then
    s.failAuth rest (.rave "received unprintable code units" .malformedChallengeResponse)
  else if s.consumed then
    s.failAuth rest (.stateError ("RelayAuthVerifierESCR is single-use: construct" ++
      " a new instance per connection so that each gets its own fresh challenge"))
  else
    match v.verifyWith v.challenge reply.helper response with
    | .error e => Socket.failAuth { s with consumed := true } rest e
    | .ok fields =>
      if reply.randomlyFails then
        Socket.failAuth { s with consumed := true, fields := some fields } rest
          (.rave "Randomly injected failure" .randomlyInjectedFailure)
      else { s with
        consumed := true, fields := some fields, written := s.written ++ [.ok],
        queue := .confirming :: rest }

def turn (s : Socket) (rest : List Task) (reply : EscrReply) : Task → Socket
  | .chunk data => s.onChunk rest data
  | .verifying response => v.onResponse s rest reply response
  | .confirming =>
    match reply.flush with
    | .ok () => s.completeSuccess rest
    | .error e => s.failAuth rest e
  | .failing e => { s with
      destroyed := s.destroyed || reply.flush.isOk, completer := some (.error e), queue := rest }

def socketStep (s : Socket) : Event → Option Socket
  | .chunk data =>
    if s.ended then none
    else if s.authenticated then some (s.add (.data data))
    else some { s with queue := s.queue ++ [.chunk data] }
  | .error => if s.ended then none else some ((s.add .error).add .done)
  | .done => if s.ended then none else some ({ s with ended := true }.add .done)
  | .resume reply =>
    match s.queue with
    | [] => none
    | task :: rest => some (v.turn s rest reply task)

def socket : Machine Socket Event := ⟨v.socketStep⟩

/-- A socket that has its challenge. -/
def challenged : Socket where
  authenticated := false
  buffer := []
  sc := []
  completer := none
  destroyed := false
  written := [.challenge]
  consumed := false
  fields := none
  ended := false
  queue := []

end RelayAuthVerifierESCR

/-! What has arrived, and what of it is still on its way to the stream. -/

def Event.input? : Event → Option (Input UInt8)
  | .chunk data => some (.chunk data)
  | .done => some .eof
  | _ => none

def arrived (es : List Event) : List (Input UInt8) := es.filterMap Event.input?

def Task.content : Task → List UInt8
  | .chunk data => data
  | _ => []

def Task.begun : Task → Bool
  | .chunk _ => false
  | _ => true

def waiting (queue : List Task) : List UInt8 := queue.flatMap Task.content

/-- What has arrived, follows the response line, and is not on the stream yet. -/
def Socket.undelivered (s : Socket) : List UInt8 :=
  if s.authenticated then waiting s.queue
  else
    match s.queue with
    | .failing _ :: _ => []
    | .verifying _ :: rest => s.buffer ++ waiting rest
    | .confirming :: rest => s.buffer ++ waiting rest
    | queue => ((splitFirst newline (s.buffer ++ waiting queue)).map Prod.snd).getD []

/-- A chunk finds nothing it would overtake, and the end nothing it would cut off. -/
def Orderly (s : Socket) : Event → Prop
  | .chunk data => s.authenticated = true → data = [] ∨ waiting s.queue = []
  | .done => (∃ e, s.completer = some (.error e)) ∨ s.undelivered = []
  | _ => True

end Escr
end NoPorts.Srvd
