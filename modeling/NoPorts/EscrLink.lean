import NoPorts.EscrAnswers
import NoPorts.RelaySocketEscrStream

/-! A connection between a Dart srv and the relay, which authenticate over it: the bytes on their way, the two ends,
and what an event does at each stage of either. -/
namespace NoPorts.EscrHandshake
open Lib Signing
open Srvd (newline fromCharCodes EscrFields maxAuthBufferLength isUnprintable)
open Srvd.Escr (RelayAuthVerifierESCR EscrReply)
open RelayAuthenticator (RelayAuthenticatorESCR Authentication)
open RelayMessages (Printable Inline)

/-! ### The connection -/

/-- The two ends, the bytes on their way, and what either end has sent since its `authenticate` completed. -/
structure Link where
  client : Authentication
  relay : Srvd.Escr.Socket
  toClient : List UInt8
  toRelay : List UInt8
  fromClient : List UInt8
  fromRelay : List UInt8

inductive Event where
  /-- The next `n` bytes reach the client, in one chunk. -/
  | toClient (n : ℕ)
  | toRelay (n : ℕ)
  | clientResumes (reply : RelayAuthenticator.Reply)
  | relayResumes (reply : EscrReply)
  | clientSends (data : List UInt8)
  | relaySends (data : List UInt8)

def Event.isSend : Event → Bool
  | .clientSends _ => true
  | .relaySends _ => true
  | _ => false

/-- `socket.writeln` -/
def writeln (text : String) : List UInt8 := Utf8.encode (text ++ "\n").toList

def bytesWritten (challenge : String) : Srvd.Written → List UInt8
  | .challenge => writeln challenge
  | .ok => writeln "ok"
  | .authFailed => writeln "Socket auth failed"

section link
variable (a : RelayAuthenticatorESCR) (v : RelayAuthVerifierESCR)

/-- A chunk is handed over once the tasks that a release of the mutex has woken are through. -/
def linkStep (l : Link) : Event → Option Link
  | .toClient n =>
    if 0 < n ∧ n ≤ l.toClient.length ∧
        (l.client.authenticated = true → RelayAuthenticator.waiting l.client.queue = []) then
      (a.socketStep l.client (.chunk (l.toClient.take n))).map fun c =>
        { l with client := c, toClient := l.toClient.drop n }
    else none
  | .toRelay n =>
    if 0 < n ∧ n ≤ l.toRelay.length ∧
        (l.relay.authenticated = true → Srvd.Escr.waiting l.relay.queue = []) then
      (v.socketStep l.relay (.chunk (l.toRelay.take n))).map fun r =>
        { l with relay := r, toRelay := l.toRelay.drop n }
    else none
  | .clientResumes reply =>
    (a.socketStep l.client (.resume reply)).map fun c => { l with
      client := c
      toRelay := l.toRelay ++
        (c.written.drop l.client.written.length).flatMap fun line => Utf8.encode line.toList }
  | .relayResumes reply =>
    (v.socketStep l.relay (.resume reply)).map fun r => { l with
      relay := r
      toClient := l.toClient ++
        (r.written.drop l.relay.written.length).flatMap (bytesWritten v.challenge) }
  | .clientSends data =>
    match l.client.completer with
    | some (.ok ()) => some { l with toRelay := l.toRelay ++ data, fromClient := l.fromClient ++ data }
    | _ => none
  | .relaySends data =>
    match l.relay.completer with
    | some (.ok ()) => some { l with toClient := l.toClient ++ data, fromRelay := l.fromRelay ++ data }
    | _ => none

def link : Machine Link Event := ⟨linkStep a v⟩

/-- The relay has written its challenge. -/
def start : Link where
  client := RelayAuthenticatorESCR.listening
  relay := RelayAuthVerifierESCR.challenged
  toClient := writeln v.challenge
  toRelay := []
  fromClient := []
  fromRelay := []

end link

/-! ### The stages of either end -/

/-- Chunks that wait for the mutex of the client's listener. -/
def clientChunks (chunks : List (List UInt8)) : List RelayAuthenticator.Task := chunks.map .chunk

def relayChunks (chunks : List (List UInt8)) : List Srvd.Escr.Task := chunks.map .chunk

/-- Waiting for the challenge. -/
def reading (buffer : List UInt8) (chunks : List (List UInt8)) : Authentication :=
  { RelayAuthenticatorESCR.listening with buffer := buffer, queue := clientChunks chunks }

def responding (challenge : String) : Authentication :=
  { RelayAuthenticatorESCR.listening with receivedChallenge := true, queue := [.responding challenge] }

/-- The response is written, and perhaps still being flushed. -/
def responded (line : String) (flushing : Bool) (buffer : List UInt8) (chunks : List (List UInt8)) :
    Authentication :=
  { RelayAuthenticatorESCR.listening with
    receivedChallenge := true
    written := [line]
    buffer := buffer
    queue := (if flushing then [.flushing] else []) ++ clientChunks chunks }

def authenticated (line : String) (buffer : List UInt8) (body chunks : List (List UInt8)) : Authentication :=
  { RelayAuthenticatorESCR.listening with
    receivedChallenge := true
    authenticated := true
    completer := some (.ok ())
    written := [line]
    sc := body.map .data
    buffer := buffer
    queue := clientChunks chunks }

/-- The relay, with its challenge out. -/
def hearing (buffer : List UInt8) (chunks : List (List UInt8)) : Srvd.Escr.Socket :=
  { RelayAuthVerifierESCR.challenged with buffer := buffer, queue := relayChunks chunks }

def verifying (response : String) : Srvd.Escr.Socket :=
  { RelayAuthVerifierESCR.challenged with queue := [.verifying response] }

def confirming (fields : EscrFields) (chunks : List (List UInt8)) : Srvd.Escr.Socket :=
  { RelayAuthVerifierESCR.challenged with
    consumed := true
    fields := some fields
    written := [.challenge, .ok]
    queue := .confirming :: relayChunks chunks }

def verified (fields : EscrFields) (body chunks : List (List UInt8)) : Srvd.Escr.Socket :=
  { RelayAuthVerifierESCR.challenged with
    authenticated := true
    completer := some (.ok ())
    consumed := true
    fields := some fields
    written := [.challenge, .ok]
    sc := body.map .data
    queue := relayChunks chunks }

/-! What an event does at each stage. -/
section stages
variable {a : RelayAuthenticatorESCR} {v : RelayAuthVerifierESCR} {buffer data : List UInt8}
  {chunks body : List (List UInt8)} {line : String} {fields : EscrFields}

theorem clientChunks_concat (chunks : List (List UInt8)) (data : List UInt8) :
    clientChunks chunks ++ [.chunk data] = clientChunks (chunks ++ [data]) := by
  rw [clientChunks, clientChunks, List.map_append]
  rfl

theorem relayChunks_concat (chunks : List (List UInt8)) (data : List UInt8) :
    relayChunks chunks ++ [.chunk data] = relayChunks (chunks ++ [data]) := by
  rw [relayChunks, relayChunks, List.map_append]
  rfl

theorem waiting_clientChunks (chunks : List (List UInt8)) :
    RelayAuthenticator.waiting (clientChunks chunks) = chunks.flatten := by
  rw [RelayAuthenticator.waiting, clientChunks, List.flatMap_map]
  exact List.flatMap_id

theorem waiting_relayChunks (chunks : List (List UInt8)) :
    Srvd.Escr.waiting (relayChunks chunks) = chunks.flatten := by
  rw [Srvd.Escr.waiting, relayChunks, List.flatMap_map]
  exact List.flatMap_id

theorem data_not_closed {α : Type} (body : List (List α)) [BEq (Delivery α)] [LawfulBEq (Delivery α)] :
    (body.map (Delivery.data)).contains .done = false := by
  rw [List.contains_eq_mem, decide_eq_false_iff_not]
  intro hmem
  obtain ⟨chunk, -, hdone⟩ := List.mem_map.mp hmem
  cases hdone

theorem reading_chunk : a.socketStep (reading buffer chunks) (.chunk data) =
    some (reading buffer (chunks ++ [data])) := by
  change some { reading buffer chunks with queue := clientChunks chunks ++ [RelayAuthenticator.Task.chunk data] } = _
  rw [clientChunks_concat]
  rfl

theorem responded_chunk {flushing : Bool} : a.socketStep (responded line flushing buffer chunks) (.chunk data) =
    some (responded line flushing buffer (chunks ++ [data])) := by
  change some { responded line flushing buffer chunks with
    queue := ((if flushing then [RelayAuthenticator.Task.flushing] else []) ++ clientChunks chunks) ++
      [RelayAuthenticator.Task.chunk data] } = _
  rw [List.append_assoc, clientChunks_concat]
  rfl

theorem map_data_concat (body : List (List UInt8)) (data : List UInt8) :
    body.map Delivery.data ++ [Delivery.data data] = (body ++ [data]).map .data := by
  rw [List.map_append]
  rfl

theorem authenticated_add (data : List UInt8) : (authenticated line buffer body chunks).add (.data data) =
    authenticated line buffer (body ++ [data]) chunks := by
  have hopen : (authenticated line buffer body chunks).isClosed = false := data_not_closed body
  rw [Authentication.add, hopen, if_neg Bool.false_ne_true]
  change { authenticated line buffer body chunks with
    sc := body.map Delivery.data ++ [Delivery.data data] } = _
  rw [map_data_concat]
  rfl

theorem authenticated_chunk : a.socketStep (authenticated line buffer body chunks) (.chunk data) =
    some (authenticated line buffer (body ++ [data]) chunks) := congrArg some (authenticated_add data)

theorem hearing_chunk : v.socketStep (hearing buffer chunks) (.chunk data) =
    some (hearing buffer (chunks ++ [data])) := by
  change some { hearing buffer chunks with queue := relayChunks chunks ++ [Srvd.Escr.Task.chunk data] } = _
  rw [relayChunks_concat]
  rfl

theorem confirming_chunk : v.socketStep (confirming fields chunks) (.chunk data) =
    some (confirming fields (chunks ++ [data])) := by
  change some { confirming fields chunks with
    queue := Srvd.Escr.Task.confirming :: (relayChunks chunks ++ [Srvd.Escr.Task.chunk data]) } = _
  rw [relayChunks_concat]
  rfl

theorem verified_add (data : List UInt8) :
    (verified fields body chunks).add (.data data) = verified fields (body ++ [data]) chunks := by
  have hopen : (verified fields body chunks).isClosed = false := data_not_closed body
  rw [Srvd.Escr.Socket.add, hopen, if_neg Bool.false_ne_true]
  change { verified fields body chunks with sc := body.map Delivery.data ++ [Delivery.data data] } = _
  rw [map_data_concat]
  rfl

theorem verified_chunk : v.socketStep (verified fields body chunks) (.chunk data) =
    some (verified fields (body ++ [data]) chunks) := congrArg some (verified_add data)

/-! A turn of either end, for replies that are as they should be. -/

theorem onChunk_none {c : Authentication} {rest : List RelayAuthenticator.Task} (hauth : c.authenticated = false)
    (hnone : splitFirst newline (c.buffer ++ data) = none) :
    c.onChunk rest data = { c with buffer := c.buffer ++ data, queue := rest } := by
  rw [Authentication.onChunk, hauth, if_neg Bool.false_ne_true, hnone]

theorem onChunk_challenge {c : Authentication} {rest : List RelayAuthenticator.Task} {received left : List UInt8}
    (hauth : c.authenticated = false) (hsome : splitFirst newline (c.buffer ++ data) = some (received, left))
    (hfirst : c.receivedChallenge = false) :
    c.onChunk rest data = { c with
      buffer := left, receivedChallenge := true, queue := .responding (fromCharCodes received) :: rest } := by
  rw [Authentication.onChunk, hauth, if_neg Bool.false_ne_true, hsome]
  dsimp only
  rw [hfirst, if_neg Bool.false_ne_true]

theorem onChunk_result {c : Authentication} {rest : List RelayAuthenticator.Task} {received left : List UInt8}
    (hauth : c.authenticated = false) (hsome : splitFirst newline (c.buffer ++ data) = some (received, left))
    (hresult : c.receivedChallenge = true) :
    c.onChunk rest data = ({ c with buffer := left } : Authentication).onResult rest received := by
  rw [Authentication.onChunk, hauth, if_neg Bool.false_ne_true, hsome]
  dsimp only
  rw [if_pos hresult]

theorem reading_resumes (reply : RelayAuthenticator.Reply) (hnone : splitFirst newline (buffer ++ data) = none) :
    a.socketStep (reading buffer (data :: chunks)) (.resume reply) = some (reading (buffer ++ data) chunks) := by
  have hchunk : (reading buffer (data :: chunks)).onChunk (clientChunks chunks) data = reading (buffer ++ data) chunks :=
    onChunk_none rfl hnone
  exact congrArg some hchunk

/-- The challenge is there, and nothing else. -/
theorem reading_challenged (reply : RelayAuthenticator.Reply) {received : List UInt8}
    (hsome : splitFirst newline (buffer ++ data) = some (received, [])) :
    a.socketStep (reading buffer [data]) (.resume reply) = some (responding (fromCharCodes received)) := by
  have hchunk : (reading buffer [data]).onChunk [] data = responding (fromCharCodes received) :=
    onChunk_challenge rfl hsome rfl
  exact congrArg some hchunk

theorem responding_resumes {reply : RelayAuthenticator.Reply} {challenge response : String}
    (hresponse : a.responseToChallenge challenge reply.iv = .ok response) (hwrite : reply.write = .ok ()) :
    a.socketStep (responding challenge) (.resume reply) = some (responded (response ++ "\n") true [] []) := by
  have hrespond : a.respond challenge reply = .ok (response ++ "\n") := by
    rw [RelayAuthenticatorESCR.respond, hresponse, ok_bind, hwrite]
    rfl
  have hturn : a.turn (responding challenge) [] reply (.responding challenge) =
      responded (response ++ "\n") true [] [] := by
    rw [RelayAuthenticatorESCR.turn, hrespond]
    rfl
  exact congrArg some hturn

theorem responded_flushed {reply : RelayAuthenticator.Reply} (hflush : reply.flush = .ok ()) :
    a.socketStep (responded line true buffer chunks) (.resume reply) = some (responded line false buffer chunks) := by
  have hturn : a.turn (responded line true buffer chunks) (clientChunks chunks) reply .flushing =
      responded line false buffer chunks := by
    rw [RelayAuthenticatorESCR.turn, hflush]
    rfl
  exact congrArg some hturn

theorem responded_resumes (reply : RelayAuthenticator.Reply) (hnone : splitFirst newline (buffer ++ data) = none) :
    a.socketStep (responded line false buffer (data :: chunks)) (.resume reply) =
      some (responded line false (buffer ++ data) chunks) := by
  have hchunk : (responded line false buffer (data :: chunks)).onChunk (clientChunks chunks) data =
      responded line false (buffer ++ data) chunks := onChunk_none rfl hnone
  exact congrArg some hchunk

/-- The `ok` is there; what has come with it goes to the stream at once. -/
theorem responded_ok (reply : RelayAuthenticator.Reply) {received rest : List UInt8}
    (hsome : splitFirst newline (buffer ++ data) = some (received, rest)) (hok : fromCharCodes received = "ok") :
    a.socketStep (responded line false buffer (data :: chunks)) (.resume reply) =
      some (authenticated line rest (if rest = [] then [] else [rest]) chunks) := by
  have hchunk : (responded line false buffer (data :: chunks)).onChunk (clientChunks chunks) data =
      ({ responded line false buffer (data :: chunks) with buffer := rest } : Authentication).onResult
        (clientChunks chunks) received := onChunk_result rfl hsome rfl
  have hresult : ({ responded line false buffer (data :: chunks) with buffer := rest } : Authentication).onResult
      (clientChunks chunks) received = authenticated line rest (if rest = [] then [] else [rest]) chunks := by
    rw [Authentication.onResult, if_pos hok]
    by_cases hnil : rest = []
    · rw [hnil]
      rfl
    · rw [if_neg hnil, if_neg hnil]
      rfl
  exact congrArg some (hchunk.trans hresult)

theorem authenticated_resumes (reply : RelayAuthenticator.Reply) :
    a.socketStep (authenticated line buffer body (data :: chunks)) (.resume reply) =
      some (authenticated line buffer (body ++ [data]) chunks) := by
  change some (((authenticated line buffer body (data :: chunks)).add (.data data)).release
    (clientChunks chunks)) = _
  rw [authenticated_add]
  rfl

theorem onChunk_unfinished {r : Srvd.Escr.Socket} {rest : List Srvd.Escr.Task} (hauth : r.authenticated = false)
    (hfits : r.buffer.length + data.length ≤ maxAuthBufferLength)
    (hnone : splitFirst newline (r.buffer ++ data) = none) :
    r.onChunk rest data = { r with buffer := r.buffer ++ data, queue := rest } := by
  rw [Srvd.Escr.Socket.onChunk, hauth, if_neg Bool.false_ne_true, if_neg (Nat.not_lt.mpr hfits), hnone]

theorem onChunk_response {r : Srvd.Escr.Socket} {rest : List Srvd.Escr.Task} {received left : List UInt8}
    (hauth : r.authenticated = false) (hfits : r.buffer.length + data.length ≤ maxAuthBufferLength)
    (hsome : splitFirst newline (r.buffer ++ data) = some (received, left)) :
    r.onChunk rest data =
      { r with buffer := left, queue := .verifying (trim (fromCharCodes received)) :: rest } := by
  rw [Srvd.Escr.Socket.onChunk, hauth, if_neg Bool.false_ne_true, if_neg (Nat.not_lt.mpr hfits), hsome]

theorem hearing_resumes (reply : EscrReply) (hfits : buffer.length + data.length ≤ maxAuthBufferLength)
    (hnone : splitFirst newline (buffer ++ data) = none) :
    v.socketStep (hearing buffer (data :: chunks)) (.resume reply) = some (hearing (buffer ++ data) chunks) := by
  have hchunk : (hearing buffer (data :: chunks)).onChunk (relayChunks chunks) data =
      hearing (buffer ++ data) chunks := onChunk_unfinished rfl hfits hnone
  exact congrArg some hchunk

/-- The response is there, and nothing else. -/
theorem hearing_answered (reply : EscrReply) {received : List UInt8}
    (hfits : buffer.length + data.length ≤ maxAuthBufferLength)
    (hsome : splitFirst newline (buffer ++ data) = some (received, [])) :
    v.socketStep (hearing buffer [data]) (.resume reply) = some (verifying (trim (fromCharCodes received))) := by
  have hchunk : (hearing buffer [data]).onChunk [] data = verifying (trim (fromCharCodes received)) :=
    onChunk_response rfl hfits hsome
  exact congrArg some hchunk

theorem verifying_resumes {reply : EscrReply} {response : String}
    (hprintable : response.toList.any (fun c => isUnprintable c.toNat) = false)
    (hfails : reply.randomlyFails = false)
    (hverifies : v.verifyWith v.challenge reply.helper response = .ok fields) :
    v.socketStep (verifying response) (.resume reply) = some (confirming fields []) := by
  have hresponse : v.onResponse (verifying response) [] reply response = confirming fields [] := by
    have hconsumed : ¬(verifying response).consumed = true := Bool.false_ne_true
    rw [RelayAuthVerifierESCR.onResponse, hprintable, if_neg Bool.false_ne_true, if_neg hconsumed, hverifies]
    dsimp only
    rw [hfails, if_neg Bool.false_ne_true]
    rfl
  exact congrArg some hresponse

theorem confirming_resumes {reply : EscrReply} (hflush : reply.flush = .ok ()) :
    v.socketStep (confirming fields chunks) (.resume reply) = some (verified fields [] chunks) := by
  have hturn : v.turn (confirming fields chunks) (relayChunks chunks) reply .confirming =
      verified fields [] chunks := by
    rw [RelayAuthVerifierESCR.turn, hflush]
    rfl
  exact congrArg some hturn

theorem verified_resumes (reply : EscrReply) :
    v.socketStep (verified fields body (data :: chunks)) (.resume reply) =
      some (verified fields (body ++ [data]) chunks) := by
  change some (((verified fields body (data :: chunks)).add (.data data)).release (relayChunks chunks)) = _
  rw [verified_add]
  rfl

end stages

end NoPorts.EscrHandshake
