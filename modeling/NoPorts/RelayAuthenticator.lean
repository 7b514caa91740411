import NoPorts.RelaySocketAuto

/-! `RelayAuthenticatorESCR.authenticate`: a client's socket to the relay, from the challenge to
the stream of what follows the relay's `ok`. -/
namespace NoPorts.RelayAuthenticator
open Lib Signing
open Srvd (newline fromCharCodes)

/-- What the answer to a challenge is made with. -/
structure EscrSdk where
  jsonEncode : Json → String
  /-- Of the code units of a text, which have to be bytes. -/
  base64Encode : String → Except String String
  base64EncodeBytes : List UInt8 → String
  mlDsaSign : (data privateKey : String) → Except String String
  rsaSignString : (data privateKey : String) → Except String String
  publicKeyKidOfBase64 : String → Except String String
  aesEncryptString : (plaintext key : String) → (iv : List UInt8) → Except String String

def EscrSdk.signWithApskKey (sdk : EscrSdk) (data : String) (algorithm : SigningAlgoType)
    (privateKey : String) : Except String String :=
  match algorithm with
  | .mldsa65 => sdk.mlDsaSign data privateKey
  | .rsa2048 => sdk.rsaSignString data privateKey
  | _ => .error ("Invalid argument (algorithm): NoPorts signs with " ++
      " or ".intercalate (escrSigningAlgorithms.map SigningAlgoType.name) ++ ": SigningAlgoType." ++
      algorithm.name)

structure RelayAuthenticatorESCR extends EscrSdk where
  sessionId : String
  relayAuthAesKey : String
  publicSigningKeyUri : String
  publicSigningKey : String
  privateSigningKey : String
  signingAlgo : SigningAlgoType
  isSideA : Bool

inductive AuthenticateError where
  | unAuthenticated (verifyResult : String)
  | during (message : String)
  deriving DecidableEq, Repr

/-- A chunk's handler, by what it does in its next turn; the last two have begun. -/
inductive Task where
  | chunk (data : List UInt8)
  | responding (challenge : String)
  | flushing
  deriving DecidableEq, Repr

/-- How what a handler awaits ends, with the `iv` that is drawn. -/
structure Reply where
  iv : List UInt8
  write : Except String Unit
  flush : Except String Unit

inductive Event where
  | chunk (data : List UInt8)
  | error
  | done
  | resume (reply : Reply)

/-- The variables of `authenticate`. -/
structure Authentication where
  receivedChallenge : Bool
  authenticated : Bool
  buffer : List UInt8
  sc : List (Delivery UInt8)
  /-- Something was to be added to `sc` after its close, which throws. -/
  refused : Bool
  completer : Option (Except AuthenticateError Unit)
  written : List String
  ended : Bool
  /-- The holder of `listenMutex`, and those that wait for it. -/
  queue : List Task

def errorDuring (e : String) : AuthenticateError :=
  .during ("Error during relay authentication: " ++ e)

namespace Authentication

def isClosed (s : Authentication) : Bool := s.sc.contains .done

def add (s : Authentication) (d : Delivery UInt8) : Authentication :=
  if s.isClosed then { s with refused := true } else { s with sc := s.sc ++ [d] }

def close (s : Authentication) : Authentication :=
  if s.isClosed then s else { s with sc := s.sc ++ [.done] }

/-- Unless it has completed. -/
def complete (s : Authentication) (result : Except AuthenticateError Unit) : Authentication :=
  { s with completer := s.completer.or (some result) }

def release (s : Authentication) (rest : List Task) : Authentication := { s with queue := rest }

/-- The line that follows the challenge. -/
def onResult (s : Authentication) (rest : List Task) (received : List UInt8) : Authentication :=
  if fromCharCodes received = "ok" then
    if s.buffer = [] then ({ s with authenticated := true }.complete (.ok ())).release rest
    else if s.isClosed then
      ((s.add (.data s.buffer)).complete
        (.error (errorDuring "Bad state: Cannot add event after closing"))).release rest
    else ({ s.add (.data s.buffer) with authenticated := true }.complete (.ok ())).release rest
  else (s.complete (.error (.unAuthenticated (fromCharCodes received)))).release rest

/-- The turn of a chunk that has waited for the mutex. One line is taken, if there is one. -/
def onChunk (s : Authentication) (rest : List Task) (data : List UInt8) : Authentication :=
  if s.authenticated then (s.add (.data data)).release rest
  else
    match splitFirst newline (s.buffer ++ data) with
    | none => { s with buffer := s.buffer ++ data, queue := rest }
    | some (received, buffer) =>
      if s.receivedChallenge then { s with buffer := buffer }.onResult rest received
      else { s with
        buffer := buffer, receivedChallenge := true,
        queue := .responding (fromCharCodes received) :: rest }

end Authentication

namespace RelayAuthenticatorESCR
variable (a : RelayAuthenticatorESCR)

def responseToChallenge (challenge : String) (iv : List UInt8) : Except String String := do
  let p : Json := .obj [("sid", .str a.sessionId), ("c", .str challenge),
    ("side", .str (if a.isSideA then "a" else "b"))]
  let s ← a.signWithApskKey (a.jsonEncode p) a.signingAlgo a.privateSigningKey
  let kid ← a.publicKeyKidOfBase64 a.publicSigningKey
  let envelope64 ← a.base64Encode (a.jsonEncode (.obj [("p", p), ("s", .str s),
    ("ha", .str HashingAlgoType.sha256.name), ("sa", .str a.signingAlgo.name),
    ("sk", .str a.publicSigningKeyUri), ("kid", .str kid)]))
  let envelopeEncrypted64 ← a.aesEncryptString envelope64 a.relayAuthAesKey iv
  let authPayload64 ← a.base64Encode (a.jsonEncode (.obj [("iv", .str (a.base64EncodeBytes iv)),
    ("e", .str envelopeEncrypted64)]))
  return a.sessionId ++ ":" ++ authPayload64

/-- `socket.writeln(await responseToChallenge(challenge))` -/
def respond (challenge : String) (reply : Reply) : Except String String := do
  let response ← a.responseToChallenge challenge reply.iv
  reply.write
  return response ++ "\n"

def turn (s : Authentication) (rest : List Task) (reply : Reply) : Task → Authentication
  | .chunk data => s.onChunk rest data
  | .responding challenge =>
    match a.respond challenge reply with
    | .ok line => { s with written := s.written ++ [line], queue := .flushing :: rest }
    | .error e => (s.complete (.error (errorDuring e))).release rest
  | .flushing =>
    match reply.flush with
    | .ok () => s.release rest
    | .error e => (s.complete (.error (errorDuring e))).release rest

def socketStep (s : Authentication) : Event → Option Authentication
  | .chunk data =>
    if s.ended then none
    else if s.authenticated then some (s.add (.data data))
    else some { s with queue := s.queue ++ [.chunk data] }
  | .error => if s.ended then none else some (s.add .error).close
  | .done => if s.ended then none else some { s.close with ended := true }
  | .resume reply =>
    match s.queue with
    | [] => none
    | task :: rest => some (a.turn s rest reply task)

def authenticate : Machine Authentication Event := ⟨a.socketStep⟩

def listening : Authentication where
  receivedChallenge := false
  authenticated := false
  buffer := []
  sc := []
  refused := false
  completer := none
  written := []
  ended := false
  queue := []

end RelayAuthenticatorESCR

/-! ### What is claimed of a run -/

def Event.bytes : Event → List UInt8
  | .chunk data => data
  | _ => []

/-- What the relay has sent. -/
def received (es : List Event) : List UInt8 := es.flatMap Event.bytes

def Event.isError : Event → Bool
  | .error => true
  | _ => false

def Event.isDone : Event → Bool
  | .done => true
  | _ => false

def hasEnded (es : List Event) : Bool := es.any fun e => e.isError || e.isDone

/-- How the stream ends, once the socket has. -/
def ending (es : List Event) : List (Delivery UInt8) :=
  (if es.any Event.isError then [.error] else []) ++ if hasEnded es then [.done] else []

def Task.content : Task → List UInt8
  | .chunk data => data
  | _ => []

/-- What handlers that wait for the mutex have yet to bring. -/
def waiting (queue : List Task) : List UInt8 := queue.flatMap Task.content

namespace RelayAuthenticatorESCR
variable (a : RelayAuthenticatorESCR)

/-- The response to the challenge has been written, and nothing else. -/
def Answered (challenge : String) (s : Authentication) : Prop :=
  ∃ reply line, a.respond challenge reply = .ok line ∧ s.written = [line]

/-- A challenge was answered and `ok` received; what follows it is on the stream or comes next. -/
def Delivers (es : List Event) (s : Authentication) : Prop :=
  ∃ challenge result body, newline ∉ challenge ∧ newline ∉ result ∧ fromCharCodes result = "ok" ∧
    received es = challenge ++ newline :: (result ++ newline ::
      (body.flatMap Delivery.content ++ waiting s.queue)) ∧
    a.Answered (fromCharCodes challenge) s ∧ (∀ d ∈ body, d.isData = true) ∧ s.sc = body ++ ending es

/-- An await of the answer to the challenge throws. -/
def Throws (s : Authentication) : Event → Prop
  | .resume reply =>
    match s.queue.head? with
    | some (.responding challenge) => (a.respond challenge reply).isOk = false
    | some .flushing => reply.flush.isOk = false
    | _ => False
  | _ => False

/-- Why the future has completed with an error. -/
def Refused (es : List Event) : AuthenticateError → Prop
  | .unAuthenticated verifyResult => verifyResult ≠ "ok" ∧ ∃ challenge result rest,
      newline ∉ challenge ∧ newline ∉ result ∧ fromCharCodes result = verifyResult ∧
        received es = challenge ++ newline :: (result ++ newline :: rest)
  | .during _ => a.authenticate.At listening es a.Throws

/-- What a run has kept when it gets to `s`. A future that is to complete has done so
when nothing is left to be handled and the relay has answered or the socket has ended. -/
structure Upheld (es : List Event) (s : Authentication) : Prop where
  open_ : s.refused = false
  stream : s.completer = some (.ok ()) → a.Delivers es s
  error : ∀ e, s.completer = some (.error e) → a.Refused es e
  completes : s.queue = [] → hasEnded es = true ∨ 2 ≤ (received es).count newline →
    s.completer.isSome = true

/-- The socket ends once the future has completed and nothing is left to be handled; a chunk
after authentication finds nothing it would overtake; none completes the challenge and brings
another line. -/
def Orderly (s : Authentication) : Event → Prop
  | .chunk data => s.isClosed = false ∧ (s.authenticated = true → data = [] ∨ waiting s.queue = [])
  | .error => s.isClosed = false ∧ s.completer.isSome = true ∧ s.queue = []
  | .done => s.completer.isSome = true ∧ s.queue = []
  | .resume _ =>
    match s.queue.head? with
    | some (.chunk data) => s.receivedChallenge = false →
        ∀ challenge rest, splitFirst newline (s.buffer ++ data) = some (challenge, rest) →
          newline ∉ rest
    | _ => True

/-! ### One step -/

end RelayAuthenticatorESCR

def Task.begun : Task → Bool
  | .chunk _ => false
  | _ => true

theorem received_concat (es : List Event) (e : Event) :
    received (es ++ [e]) = received es ++ e.bytes := by
  unfold received
  rw [List.flatMap_append, List.flatMap_singleton]

theorem waiting_cons (task : Task) (rest : List Task) :
    waiting (task :: rest) = task.content ++ waiting rest := List.flatMap_cons

theorem waiting_concat (queue : List Task) (task : Task) :
    waiting (queue ++ [task]) = waiting queue ++ task.content := by
  unfold waiting
  rw [List.flatMap_append, List.flatMap_singleton]

theorem hasEnded_concat (es : List Event) (e : Event) :
    hasEnded (es ++ [e]) = (hasEnded es || (e.isError || e.isDone)) := by
  unfold hasEnded
  rw [List.any_append, List.any_cons, List.any_nil, Bool.or_false]

theorem no_error_of_open {es : List Event} (h : hasEnded es = false) :
    es.any Event.isError = false := by
  rw [List.any_eq_false]
  intro e he herror
  have hnot := List.any_eq_false.mp h e he
  simp [herror] at hnot

theorem ending_of_open {es : List Event} (h : hasEnded es = false) : ending es = [] := by
  rw [ending, no_error_of_open h, h]
  rfl

/-- The end of a socket that has not ended before. -/
theorem ending_concat {es : List Event} (h : hasEnded es = false) (e : Event) :
    ending (es ++ [e]) = (if e.isError then [.error] else []) ++
      if e.isError || e.isDone then [.done] else [] := by
  rw [ending, hasEnded_concat, h, List.any_append, no_error_of_open h]
  simp only [Bool.false_or, List.any_cons, List.any_nil, Bool.or_false]

/-- Nothing changes the end of a socket but its end. -/
theorem ending_concat_of_isSilent (es : List Event) {e : Event} (herror : e.isError = false)
    (hdone : e.isDone = false ∨ hasEnded es = true) : ending (es ++ [e]) = ending es := by
  have hover : hasEnded (es ++ [e]) = hasEnded es := by
    rw [hasEnded_concat, herror, Bool.false_or]
    rcases hdone with hdone | hover
    · rw [hdone, Bool.or_false]
    · rw [hover, Bool.true_or]
  rw [ending, ending, hover, List.any_append]
  simp only [List.any_cons, herror, List.any_nil, Bool.or_false]

namespace Authentication
variable {s : Authentication}

theorem add_of_open (h : s.isClosed = false) (d : Delivery UInt8) :
    s.add d = { s with sc := s.sc ++ [d] } := by
  rw [add, if_neg (Bool.eq_false_iff.mp h)]

theorem close_of_open (h : s.isClosed = false) : s.close = { s with sc := s.sc ++ [.done] } := by
  rw [close, if_neg (Bool.eq_false_iff.mp h)]

theorem close_of_closed (h : s.isClosed = true) : s.close = s := by
  rw [close, if_pos h]

end Authentication

namespace RelayAuthenticatorESCR
variable {a : RelayAuthenticatorESCR} {es : List Event} {e : Event} {s t : Authentication}
  {rest : List Task} {data : List UInt8}

variable (a) in
/-- The challenge is being answered, or has been. -/
def Answering (challenge : String) (s : Authentication) : Prop :=
  match s.queue.head? with
  | some (.responding c) => c = challenge ∧ s.written = []
  | _ => a.Answered challenge s

variable (a) in
/-- How far `authenticate` is. -/
inductive Stage (es : List Event) (s : Authentication) : Prop
  | reading (hc : s.completer = none) (ha : s.authenticated = false)
      (hr : s.receivedChallenge = false) (hsc : s.sc = []) (hwritten : s.written = [])
      (hfresh : ∀ task ∈ s.queue.head?, task.begun = false)
      (hbytes : received es = s.buffer ++ waiting s.queue) (hbuffer : newline ∉ s.buffer)
  | answering (challenge : List UInt8) (hc : s.completer = none) (ha : s.authenticated = false)
      (hr : s.receivedChallenge = true) (hsc : s.sc = [])
      (hbytes : received es = challenge ++ newline :: (s.buffer ++ waiting s.queue))
      (hchallenge : newline ∉ challenge) (hbuffer : newline ∉ s.buffer)
      (hanswer : a.Answering (fromCharCodes challenge) s)
  | relaying (hc : s.completer = some (.ok ())) (ha : s.authenticated = true)
      (hfresh : ∀ task ∈ s.queue.head?, task.begun = false) (hdelivers : a.Delivers es s)
  | failed (e : AuthenticateError) (hc : s.completer = some (.error e))
      (hr : s.receivedChallenge = true) (hfresh : ∀ task ∈ s.queue.head?, task.begun = false)
      (hrefused : a.Refused es e)

variable (a) in
structure Kept (es : List Event) (s : Authentication) : Prop where
  open_ : s.refused = false
  closed : s.isClosed = hasEnded es
  ended : hasEnded es = true → s.completer.isSome = true ∧ s.queue = []
  fresh : ∀ task ∈ s.queue.tail, task.begun = false
  stage : a.Stage es s

theorem Refused.concat {err : AuthenticateError} (h : a.Refused es err) (e : Event) :
    a.Refused (es ++ [e]) err := by
  cases err with
  | unAuthenticated verifyResult =>
    obtain ⟨hne, challenge, result, rest, hchallenge, hresult, htext, hbytes⟩ := h
    refine ⟨hne, challenge, result, rest ++ e.bytes, hchallenge, hresult, htext, ?_⟩
    rw [received_concat, hbytes]
    simp only [List.append_assoc, List.cons_append]
  | during message => exact Machine.At.later h e

theorem Kept.isOpen (h : a.Kept es s) (hq : s.queue ≠ []) : hasEnded es = false :=
  Bool.eq_false_iff.mpr fun hover => hq (h.ended hover).2

theorem listening_kept : a.Kept [] listening := by
  refine ⟨rfl, rfl, ?_, ?_, ?_⟩
  · rintro ⟨⟩
  · rintro _ ⟨⟩
  · refine .reading rfl rfl rfl rfl rfl ?_ rfl List.not_mem_nil
    rintro _ ⟨⟩

/-- A chunk waits for the mutex. -/
theorem Kept.queued (h : a.Kept es s) (ha : s.authenticated = false) (ho : s.isClosed = false)
    (data : List UInt8) :
    a.Kept (es ++ [.chunk data]) { s with queue := s.queue ++ [.chunk data] } := by
  have hopen : hasEnded es = false := h.closed.symm.trans ho
  have hover : hasEnded (es ++ [.chunk data]) = false := by
    rw [hasEnded_concat, hopen]
    rfl
  have htail : ∀ task ∈ (s.queue ++ [Task.chunk data]).tail, task.begun = false := by
    intro task hmem
    cases hq : s.queue with
    | nil =>
      rw [hq] at hmem
      cases hmem
    | cons first rest =>
      have hfresh := h.fresh
      rw [hq] at hmem hfresh
      rcases List.mem_append.mp hmem with hmem | hmem
      · exact hfresh task hmem
      · rw [List.mem_singleton.mp hmem]
        rfl
  have hhead (hfresh : ∀ task ∈ s.queue.head?, task.begun = false) :
      ∀ task ∈ (s.queue ++ [Task.chunk data]).head?, task.begun = false := by
    intro task hmem
    cases hq : s.queue with
    | nil =>
      rw [hq] at hmem
      rw [← Option.some.inj hmem]
      rfl
    | cons first rest =>
      rw [hq] at hmem hfresh
      exact hfresh task hmem
  refine ⟨h.open_, ho.trans hover.symm, fun hend => ?_, htail, ?_⟩
  · rw [hover] at hend
    cases hend
  · cases h.stage with
    | reading hc ha hr hsc hwritten hfresh hbytes hbuffer =>
      refine .reading hc ha hr hsc hwritten (hhead hfresh) ?_ hbuffer
      rw [received_concat, hbytes, waiting_concat, List.append_assoc]
      rfl
    | answering challenge hc ha hr hsc hbytes hchallenge hbuffer hanswer =>
      refine .answering challenge hc ha hr hsc ?_ hchallenge hbuffer ?_
      · rw [received_concat, hbytes, waiting_concat]
        simp only [List.append_assoc, List.cons_append]
        rfl
      · unfold Answering at hanswer ⊢
        cases hq : s.queue with
        | nil =>
          rw [hq] at hanswer
          exact hanswer
        | cons first rest =>
          rw [hq] at hanswer
          exact hanswer
    | relaying hc ha' =>
      rw [ha] at ha'
      cases ha'
    | failed err hc hr hfresh hrefused => exact .failed err hc hr (hhead hfresh) (hrefused.concat _)


theorem isClosed_concat (s : Authentication) (data : List UInt8) :
    ({ s with sc := s.sc ++ [.data data] } : Authentication).isClosed = s.isClosed := by
  simp [Authentication.isClosed]

/-- A chunk goes to the stream at once, and overtakes nothing. -/
theorem Kept.fast (h : a.Kept es s) (ha : s.authenticated = true) (ho : s.isClosed = false)
    (hturn : data = [] ∨ waiting s.queue = []) :
    a.Kept (es ++ [.chunk data]) (s.add (.data data)) := by
  have hopen : hasEnded es = false := h.closed.symm.trans ho
  have hover : hasEnded (es ++ [.chunk data]) = hasEnded es := by
    rw [hasEnded_concat, hopen]
    rfl
  have hswap : data ++ waiting s.queue = waiting s.queue ++ data := by
    rcases hturn with hnil | hnil
    · rw [hnil, List.append_nil, List.nil_append]
    · rw [hnil, List.append_nil, List.nil_append]
  rw [Authentication.add_of_open ho]
  refine ⟨h.open_, (isClosed_concat s data).trans (h.closed.trans hover.symm), fun hend => ?_,
    h.fresh, ?_⟩
  · rw [hover, hopen] at hend
    cases hend
  · cases h.stage with
    | reading hc ha' =>
      rw [ha] at ha'
      cases ha'
    | answering challenge hc ha' =>
      rw [ha] at ha'
      cases ha'
    | relaying hc _ hfresh hdelivers =>
      obtain ⟨challenge, result, body, hchallenge, hresult, hok, hbytes, hanswered, hbody, hsc⟩ :=
        hdelivers
      refine .relaying hc ha hfresh ⟨challenge, result, body ++ [.data data], hchallenge, hresult, hok,
        ?_, hanswered, ?_, ?_⟩
      · rw [received_concat, hbytes, List.flatMap_append, List.flatMap_singleton]
        simp only [List.append_assoc, List.cons_append, Event.bytes, Delivery.content, hswap]
      · intro d hd
        rcases List.mem_append.mp hd with hd | hd
        · exact hbody d hd
        · rw [List.mem_singleton.mp hd]
          rfl
      · rw [ending_concat_of_isSilent es rfl (Or.inl rfl), ending_of_open hopen, List.append_nil]
        rw [ending_of_open hopen, List.append_nil] at hsc
        rw [hsc]
    | failed err hc hr hfresh hrefused => exact .failed err hc hr hfresh (hrefused.concat _)

/-- The socket ends, in one way or the other, once the future has completed. -/
theorem Kept.ends (h : a.Kept es s) (hc : s.completer.isSome = true) (hq : s.queue = [])
    {sc : List (Delivery UInt8)} (hclosed : sc.contains .done = true) (he : hasEnded (es ++ [e]) = true)
    (hsilent : e.bytes = []) (hsc : ∀ body, s.sc = body ++ ending es → sc = body ++ ending (es ++ [e]))
    (ended : Bool) : a.Kept (es ++ [e]) { s with sc := sc, ended := ended } := by
  refine ⟨h.open_, hclosed.trans he.symm, fun _ => ⟨hc, hq⟩, h.fresh, ?_⟩
  cases h.stage with
  | reading hc' =>
    rw [hc'] at hc
    cases hc
  | answering challenge hc' =>
    rw [hc'] at hc
    cases hc
  | relaying hc' ha hfresh hdelivers =>
    obtain ⟨challenge, result, body, hchallenge, hresult, hok, hbytes, hanswered, hbody, hstream⟩ :=
      hdelivers
    refine .relaying hc' ha hfresh ⟨challenge, result, body, hchallenge, hresult, hok, ?_, hanswered,
      hbody, hsc body hstream⟩
    rw [received_concat, hsilent, List.append_nil]
    exact hbytes
  | failed err hc' hr hfresh hrefused => exact .failed err hc' hr hfresh (hrefused.concat _)

theorem Kept.error (h : a.Kept es s) (ho : s.isClosed = false) (hc : s.completer.isSome = true)
    (hq : s.queue = []) : a.Kept (es ++ [.error]) (s.add .error).close := by
  have hopen : hasEnded es = false := h.closed.symm.trans ho
  have hadded : ({ s with sc := s.sc ++ [.error] } : Authentication).isClosed = false := by
    simpa [Authentication.isClosed] using ho
  rw [Authentication.add_of_open ho, Authentication.close_of_open hadded]
  refine h.ends hc hq ?_ ?_ rfl (fun body hsc => ?_) s.ended
  · simp
  · rw [hasEnded_concat]
    simp [Event.isError]
  · rw [ending_of_open hopen, List.append_nil] at hsc
    rw [ending_concat hopen, hsc, List.append_assoc]
    rfl

theorem Kept.done (h : a.Kept es s) (hc : s.completer.isSome = true) (hq : s.queue = []) :
    a.Kept (es ++ [.done]) { s.close with ended := true } := by
  have hover : hasEnded (es ++ [.done]) = true := by
    rw [hasEnded_concat]
    exact Bool.or_true _
  cases hclosed : s.isClosed with
  | true =>
    have hended : hasEnded es = true := h.closed.symm.trans hclosed
    rw [Authentication.close_of_closed hclosed]
    refine h.ends hc hq hclosed hover rfl (fun body hsc => ?_) true
    rw [ending_concat_of_isSilent es rfl (Or.inr hended)]
    exact hsc
  | false =>
    have hopen : hasEnded es = false := h.closed.symm.trans hclosed
    rw [Authentication.close_of_open hclosed]
    refine h.ends hc hq ?_ hover rfl (fun body hsc => ?_) true
    · simp
    · rw [ending_of_open hopen, List.append_nil] at hsc
      rw [ending_concat hopen, hsc]
      rfl


/-! ### One turn -/

section turn
variable {reply : Reply} {task : Task}

theorem received_resume (es : List Event) (reply : Reply) :
    received (es ++ [.resume reply]) = received es := by
  rw [received_concat]
  exact List.append_nil _

/-- What a turn leaves alone: the socket has not ended while a handler has its turn. -/
theorem Kept.turned (h : a.Kept es s) (hq : s.queue = task :: rest) (hopen : t.refused = false)
    (hclosed : t.isClosed = false) (hqueue : t.queue = rest ∨ ∃ next, t.queue = next :: rest)
    (hstage : a.Stage (es ++ [.resume reply]) t) : a.Kept (es ++ [.resume reply]) t := by
  have hover : hasEnded (es ++ [.resume reply]) = false := by
    rw [hasEnded_concat, h.isOpen (by rw [hq]; exact List.cons_ne_nil _ _)]
    rfl
  have hrest : ∀ task ∈ rest, task.begun = false := by
    intro other hmem
    exact h.fresh other (by rw [hq]; exact hmem)
  refine ⟨hopen, hclosed.trans hover.symm, fun hend => ?_, ?_, hstage⟩
  · rw [hover] at hend
    cases hend
  · intro other hmem
    rcases hqueue with hqueue | ⟨next, hqueue⟩
    · rw [hqueue] at hmem
      exact hrest other (List.mem_of_mem_tail hmem)
    · rw [hqueue] at hmem
      exact hrest other hmem

theorem Kept.rest_fresh (h : a.Kept es s) (hq : s.queue = task :: rest) :
    ∀ task ∈ rest.head?, task.begun = false := by
  intro other hmem
  exact h.fresh other (by rw [hq]; exact List.mem_of_head? hmem)

theorem Kept.sc_open (h : a.Kept es s) (hq : s.queue = task :: rest) : s.isClosed = false :=
  h.closed.trans (h.isOpen (by rw [hq]; exact List.cons_ne_nil _ _))

theorem answering_of_fresh {challenge : String}
    (hfresh : ∀ task ∈ s.queue.head?, task.begun = false) (h : a.Answered challenge s) :
    a.Answering challenge s := by
  unfold Answering
  split
  · rename_i c hhead
    cases hfresh _ hhead
  · exact h

/-- The relay's answer to a challenge that has been answered. -/
theorem Kept.result (h : a.Kept es s) (hq : s.queue = .chunk data :: rest) (hc : s.completer = none)
    (hr : s.receivedChallenge = true) (hsc : s.sc = []) {challenge result buffer : List UInt8}
    (hbytes : received es =
      challenge ++ newline :: (result ++ newline :: (buffer ++ waiting rest)))
    (hchallenge : newline ∉ challenge) (hresult : newline ∉ result)
    (hanswered : a.Answered (fromCharCodes challenge) s) :
    a.Kept (es ++ [.resume reply]) ({ s with buffer := buffer }.onResult rest result) := by
  have hopen := h.sc_open hq
  have hfresh := h.rest_fresh hq
  have hending : ending (es ++ [.resume reply]) = [] := by
    rw [ending_concat_of_isSilent es rfl (Or.inl rfl), ending_of_open (h.closed.symm.trans hopen)]
  unfold Authentication.onResult
  split
  · rename_i hok
    split
    · rename_i hnil
      refine h.turned hq h.open_ hopen (Or.inl rfl) ?_
      refine .relaying (by simp only [Authentication.release, Authentication.complete, hc, Option.none_or])
        rfl hfresh ⟨challenge, result, [], hchallenge, hresult, hok, ?_, hanswered, ?_, ?_⟩
      · rw [received_resume, hbytes, show buffer = [] from hnil]
        rfl
      · rintro d ⟨⟩
      · rw [hending]
        exact hsc
    · split
      · rename_i hclosed
        have hclosed' : s.isClosed = true := hclosed
        rw [hopen] at hclosed'
        cases hclosed'
      · have hadd : Authentication.add { s with buffer := buffer } (.data buffer) =
            { s with buffer := buffer, sc := s.sc ++ [.data buffer] } :=
          Authentication.add_of_open (s := { s with buffer := buffer }) hopen _
        rw [hadd]
        refine h.turned hq h.open_ ((isClosed_concat s buffer).trans hopen) (Or.inl rfl) ?_
        refine .relaying
          (by simp only [Authentication.release, Authentication.complete, hc, Option.none_or]) rfl hfresh
          ⟨challenge, result, [.data buffer], hchallenge, hresult, hok, ?_, hanswered, ?_, ?_⟩
        · rw [received_resume, hbytes, List.flatMap_singleton]
          rfl
        · intro d hd
          rw [List.mem_singleton.mp hd]
          rfl
        · rw [hending]
          exact congrArg (· ++ [Delivery.data buffer]) hsc
  · rename_i hnot
    refine h.turned hq h.open_ hopen (Or.inl rfl) ?_
    refine .failed (.unAuthenticated (fromCharCodes result))
      (by simp only [Authentication.release, Authentication.complete, hc, Option.none_or]) hr hfresh
      ⟨hnot, challenge, result, buffer ++ waiting rest, hchallenge, hresult, rfl, ?_⟩
    rw [received_resume]
    exact hbytes

/-- A future that has completed with an error stays so, whatever the relay sends. -/
theorem Kept.ignored (h : a.Kept es s) (hq : s.queue = .chunk data :: rest) {err : AuthenticateError}
    (hc : s.completer = some (.error err)) (hr : s.receivedChallenge = true)
    (hrefused : a.Refused es err) : a.Kept (es ++ [.resume reply]) (s.onChunk rest data) := by
  have hopen := h.sc_open hq
  have hfresh := h.rest_fresh hq
  have hrefused := hrefused.concat (.resume reply)
  unfold Authentication.onChunk
  split
  · rw [Authentication.add_of_open hopen]
    exact h.turned hq h.open_ ((isClosed_concat s data).trans hopen) (Or.inl rfl)
      (.failed err hc hr hfresh hrefused)
  · split
    · exact h.turned hq h.open_ hopen (Or.inl rfl) (.failed err hc hr hfresh hrefused)
    · rename_i result buffer hsplit
      have hkept : (s.completer.or (some (.ok ()))) = some (.error err) := by
        rw [hc, Option.some_or]
      unfold Authentication.onResult
      split
      · split
        · exact h.turned hq h.open_ hopen (Or.inl rfl) (.failed err hkept hr hfresh hrefused)
        · split
          · rename_i hclosed
            have hclosed' : s.isClosed = true := hclosed
            rw [hopen] at hclosed'
            cases hclosed'
          · have hadd : Authentication.add { s with buffer := buffer } (.data buffer) =
                { s with buffer := buffer, sc := s.sc ++ [.data buffer] } :=
              Authentication.add_of_open (s := { s with buffer := buffer }) hopen _
            rw [hadd]
            exact h.turned hq h.open_ ((isClosed_concat s buffer).trans hopen) (Or.inl rfl)
              (.failed err hkept hr hfresh hrefused)
      · have hsame : s.completer.or (some (.error (.unAuthenticated (fromCharCodes result)))) =
            some (.error err) := by
          rw [hc, Option.some_or]
        exact h.turned hq h.open_ hopen (Or.inl rfl) (.failed err hsame hr hfresh hrefused)

theorem waiting_chunk (hq : s.queue = .chunk data :: rest) :
    waiting s.queue = data ++ waiting rest := by
  rw [hq, waiting_cons]
  rfl

theorem Kept.chunk (h : a.Kept es s) (hq : s.queue = .chunk data :: rest)
    (hone : s.receivedChallenge = false → ∀ challenge buffer,
      splitFirst newline (s.buffer ++ data) = some (challenge, buffer) → newline ∉ buffer) :
    a.Kept (es ++ [.resume reply]) (s.onChunk rest data) := by
  have hopen := h.sc_open hq
  have hfresh := h.rest_fresh hq
  have hwaiting := waiting_chunk hq
  cases h.stage with
  | reading hc ha hr hsc hwritten _ hbytes hbuffer =>
    rw [hwaiting, ← List.append_assoc] at hbytes
    rw [Authentication.onChunk, if_neg (Bool.eq_false_iff.mp ha)]
    split
    · rename_i hsplit
      refine h.turned hq h.open_ hopen (Or.inl rfl) ?_
      refine .reading hc ha hr hsc hwritten hfresh ?_ (splitFirst_none hsplit)
      rw [received_resume]
      exact hbytes
    · rename_i challenge buffer hsplit
      obtain ⟨hchallenge, hbytes'⟩ := splitFirst_some hsplit
      rw [if_neg (Bool.eq_false_iff.mp hr)]
      refine h.turned hq h.open_ hopen (Or.inr ⟨_, rfl⟩) ?_
      refine .answering challenge hc ha rfl hsc ?_ hchallenge (hone hr challenge buffer hsplit)
        ⟨rfl, hwritten⟩
      rw [received_resume, hbytes, hbytes', List.append_assoc]
      rfl
  | answering challenge hc ha hr hsc hbytes hchallenge hbuffer hanswer =>
    have hanswered : a.Answered (fromCharCodes challenge) s := by
      unfold Answering at hanswer
      rw [hq] at hanswer
      exact hanswer
    rw [hwaiting, ← List.append_assoc] at hbytes
    rw [Authentication.onChunk, if_neg (Bool.eq_false_iff.mp ha)]
    split
    · rename_i hsplit
      refine h.turned hq h.open_ hopen (Or.inl rfl) ?_
      refine .answering challenge hc ha hr hsc ?_ hchallenge (splitFirst_none hsplit)
        (answering_of_fresh hfresh hanswered)
      rw [received_resume]
      exact hbytes
    · rename_i result buffer hsplit
      obtain ⟨hresult, hbytes'⟩ := splitFirst_some hsplit
      rw [if_pos hr]
      refine h.result hq hc hr hsc ?_ hchallenge hresult hanswered
      rw [hbytes, hbytes', List.append_assoc]
      rfl
  | relaying hc ha _ hdelivers =>
    obtain ⟨challenge, result, body, hchallenge, hresult, hok, hbytes, hanswered, hbody, hsc⟩ :=
      hdelivers
    rw [Authentication.onChunk, if_pos ha, Authentication.add_of_open hopen]
    refine h.turned hq h.open_ ((isClosed_concat s data).trans hopen) (Or.inl rfl) ?_
    refine .relaying hc ha hfresh ⟨challenge, result, body ++ [.data data], hchallenge, hresult, hok,
      ?_, hanswered, ?_, ?_⟩
    · rw [received_resume, hbytes, hwaiting, List.flatMap_append, List.flatMap_singleton,
        List.append_assoc]
      rfl
    · intro d hd
      rcases List.mem_append.mp hd with hd | hd
      · exact hbody d hd
      · rw [List.mem_singleton.mp hd]
        rfl
    · rw [ending_of_open (h.closed.symm.trans hopen), List.append_nil] at hsc
      rw [ending_concat_of_isSilent es rfl (Or.inl rfl),
        ending_of_open (h.closed.symm.trans hopen), List.append_nil]
      exact congrArg (· ++ [Delivery.data data]) hsc
  | failed err hc hr _ hrefused => exact h.ignored hq hc hr hrefused

/-- What an await of the answer throws completes the future. -/
theorem Kept.thrown (h : a.Kept es s) (hq : s.queue = task :: rest) (hc : s.completer = none)
    (hr : s.receivedChallenge = true) (hthrows : a.Throws s (.resume reply))
    (hrun : a.authenticate.run listening es = some s) (message : String) :
    a.Kept (es ++ [.resume reply])
      ((s.complete (.error (errorDuring message))).release rest) := by
  have hcompleter : s.completer.or (some (.error (errorDuring message))) =
      some (.error (errorDuring message)) := by
    rw [hc, Option.none_or]
  exact h.turned hq h.open_ (h.sc_open hq) (Or.inl rfl)
    (.failed _ hcompleter hr (h.rest_fresh hq) (Machine.At.now hrun hthrows))

/-- Only the answer to the challenge is made in more than one turn. -/
theorem Kept.begun (h : a.Kept es s) (hq : s.queue = task :: rest) (hbegun : task.begun = true) :
    ∃ challenge, s.completer = none ∧ s.authenticated = false ∧ s.receivedChallenge = true ∧
      s.sc = [] ∧ received es = challenge ++ newline :: (s.buffer ++ waiting rest) ∧
      newline ∉ challenge ∧ newline ∉ s.buffer ∧ a.Answering (fromCharCodes challenge) s := by
  have hfresh (hfresh : ∀ task ∈ s.queue.head?, task.begun = false) : False := by
    rw [hq] at hfresh
    have hnot := hfresh task rfl
    rw [hbegun] at hnot
    cases hnot
  have hwaiting : waiting s.queue = waiting rest := by
    rw [hq, waiting_cons]
    cases task with
    | chunk data => cases hbegun
    | _ => rfl
  cases h.stage with
  | reading _ _ _ _ _ hhead => exact (hfresh hhead).elim
  | answering challenge hc ha hr hsc hbytes hchallenge hbuffer hanswer =>
    rw [hwaiting] at hbytes
    exact ⟨challenge, hc, ha, hr, hsc, hbytes, hchallenge, hbuffer, hanswer⟩
  | relaying _ _ hhead => exact (hfresh hhead).elim
  | failed _ _ _ hhead => exact (hfresh hhead).elim

theorem Kept.responds (h : a.Kept es s) {challenge : String}
    (hq : s.queue = .responding challenge :: rest) (hrun : a.authenticate.run listening es = some s) :
    a.Kept (es ++ [.resume reply]) (a.turn s rest reply (.responding challenge)) := by
  obtain ⟨line, hc, ha, hr, hsc, hbytes, hline, hbuffer, hanswer⟩ := h.begun hq rfl
  rw [Answering, hq] at hanswer
  obtain ⟨rfl, hwritten⟩ := hanswer
  cases hrespond : a.respond (fromCharCodes line) reply with
  | ok response =>
    simp only [turn, hrespond]
    refine h.turned hq h.open_ (h.sc_open hq) (Or.inr ⟨_, rfl⟩) ?_
    refine .answering line hc ha hr hsc ?_ hline hbuffer ⟨reply, response, hrespond, ?_⟩
    · rw [received_resume, hbytes]
      rfl
    · rw [hwritten]
      rfl
  | error message =>
    simp only [turn, hrespond]
    refine h.thrown hq hc hr ?_ hrun message
    rw [Throws, hq]
    exact congrArg Except.isOk hrespond

theorem Kept.flushes (h : a.Kept es s) (hq : s.queue = .flushing :: rest)
    (hrun : a.authenticate.run listening es = some s) :
    a.Kept (es ++ [.resume reply]) (a.turn s rest reply .flushing) := by
  obtain ⟨line, hc, ha, hr, hsc, hbytes, hline, hbuffer, hanswer⟩ := h.begun hq rfl
  rw [Answering, hq] at hanswer
  cases hflush : reply.flush with
  | ok result =>
    simp only [turn, hflush]
    refine h.turned hq h.open_ (h.sc_open hq) (Or.inl rfl) ?_
    refine .answering line hc ha hr hsc ?_ hline hbuffer
      (answering_of_fresh (h.rest_fresh hq) hanswer)
    rw [received_resume]
    exact hbytes
  | error message =>
    simp only [turn, hflush]
    refine h.thrown hq hc hr ?_ hrun message
    rw [Throws, hq]
    exact congrArg Except.isOk hflush

end turn

/-! ### Every run -/

theorem Kept.step (h : a.Kept es s) (ho : Orderly s e)
    (hrun : a.authenticate.run listening es = some s) (hstep : a.socketStep s e = some t) :
    a.Kept (es ++ [e]) t := by
  cases e with
  | chunk data =>
    simp only [socketStep] at hstep
    split at hstep
    · cases hstep
    · split at hstep
      · rename_i ha
        obtain rfl := Option.some.inj hstep
        exact h.fast ha ho.1 (ho.2 ha)
      · rename_i ha
        obtain rfl := Option.some.inj hstep
        exact h.queued (Bool.eq_false_iff.mpr ha) ho.1 data
  | error =>
    simp only [socketStep] at hstep
    split at hstep
    · cases hstep
    · obtain rfl := Option.some.inj hstep
      exact h.error ho.1 ho.2.1 ho.2.2
  | done =>
    simp only [socketStep] at hstep
    split at hstep
    · cases hstep
    · obtain rfl := Option.some.inj hstep
      exact h.done ho.1 ho.2
  | resume reply =>
    cases hq : s.queue with
    | nil =>
      simp only [socketStep, hq] at hstep
      cases hstep
    | cons task rest =>
      simp only [socketStep, hq] at hstep
      obtain rfl := Option.some.inj hstep
      cases task with
      | chunk data =>
        rw [Orderly, hq] at ho
        exact h.chunk hq ho
      | responding challenge => exact h.responds hq hrun
      | flushing => exact h.flushes hq hrun

theorem kept_of_run (ho : a.authenticate.Meets Orderly listening es)
    (hr : a.authenticate.run listening es = some s) : a.Kept es s :=
  a.authenticate.run_induction_of_meets listening_kept
    (fun _ _ _ _ hrun h ho hstep => h.step ho hrun hstep) ho hr

/-- The first line's newline is the only one, until the relay has answered. -/
theorem Kept.completes (h : a.Kept es s) (hq : s.queue = [])
    (hend : hasEnded es = true ∨ 2 ≤ (received es).count newline) : s.completer.isSome = true := by
  rcases hend with hover | htwo
  · exact (h.ended hover).1
  · cases h.stage with
    | reading hc ha hr hsc hwritten hfresh hbytes hbuffer =>
      rw [hbytes, hq] at htwo
      have hnone : (s.buffer ++ waiting []).count newline = 0 := by
        rw [waiting, List.flatMap_nil, List.append_nil]
        exact List.count_eq_zero.mpr hbuffer
      omega
    | answering line hc ha hr hsc hbytes hline hbuffer =>
      have hone : (received es).count newline = 1 := by
        rw [hbytes, hq, waiting, List.flatMap_nil, List.append_nil, List.count_append,
          List.count_cons_self, List.count_eq_zero.mpr hline, List.count_eq_zero.mpr hbuffer]
      omega
    | relaying hc =>
      rw [hc]
      rfl
    | failed err hc =>
      rw [hc]
      rfl

/-- Nothing is lost by a socket whose events are orderly. -/
theorem authenticate_upheld (a : RelayAuthenticatorESCR) {es : List Event} {s : Authentication}
    (ho : a.authenticate.Meets Orderly listening es)
    (hr : a.authenticate.run listening es = some s) : a.Upheld es s := by
  have h : a.Kept es s := kept_of_run ho hr
  refine ⟨h.open_, fun hok => ?_, fun err herr => ?_, h.completes⟩
  · cases h.stage with
    | reading hc => rw [hc] at hok; cases hok
    | answering _ hc => rw [hc] at hok; cases hok
    | relaying _ _ _ hdelivers => exact hdelivers
    | failed _ hc => rw [hc] at hok; cases hok
  · cases h.stage with
    | reading hc => rw [hc] at herr; cases herr
    | answering _ hc => rw [hc] at herr; cases herr
    | relaying hc => rw [hc] at herr; cases herr
    | failed other hc _ _ hrefused =>
      rw [hc] at herr
      rw [← Except.error.inj (Option.some.inj herr)]
      exact hrefused

/-! ### Runs -/

/-- An authenticator that answers every challenge with one text. -/
def sampleAuthenticator : RelayAuthenticatorESCR where
  jsonEncode _ := "\x7b\x7d"
  base64Encode _ := .ok "e30="
  base64EncodeBytes _ := "AAAA"
  mlDsaSign _ _ := .ok "c2ln"
  rsaSignString _ _ := .ok "c2ln"
  publicKeyKidOfBase64 _ := .ok "00"
  aesEncryptString _ _ _ := .ok "ZQ=="
  sessionId := "s"
  relayAuthAesKey := "a2V5"
  publicSigningKeyUri := "public:_apsk.1.a.__e@alice"
  publicSigningKey := "cDI="
  privateSigningKey := "cDE="
  signingAlgo := .rsa2048
  isSideA := true

def sampleReply : Reply := ⟨[0, 0, 0], .ok (), .ok ()⟩

def sampleChallenge : List UInt8 := [99, 10]

def sampleOk : List UInt8 := [111, 107, 10]

/-- The response is on the socket, and `queue` waits for it to be flushed. -/
def flushingAt (queue : List Task) : Authentication where
  receivedChallenge := true
  authenticated := false
  buffer := []
  sc := []
  refused := false
  completer := none
  written := ["s:e30=\n"]
  ended := false
  queue := .flushing :: queue

/-- The answer comes with the first byte behind it, and another before the end. -/
def answeredRun : List Event :=
  [.chunk sampleChallenge, .resume sampleReply, .resume sampleReply, .resume sampleReply,
    .chunk (sampleOk ++ [1]), .resume sampleReply, .chunk [2], .done]

theorem authenticate_upheld_answeredRun :
    ∃ s, sampleAuthenticator.authenticate.run listening answeredRun = some s ∧
      s.completer = some (.ok ()) ∧ s.sc = [.data [1], .data [2], .done] ∧
        sampleAuthenticator.Upheld answeredRun s := by
  let M : Machine Authentication Event := sampleAuthenticator.authenticate
  let s₁ : Authentication := { listening with queue := [.chunk sampleChallenge] }
  let s₂ : Authentication := { listening with
    receivedChallenge := true, queue := [.responding "c"] }
  let s₃ : Authentication := { flushingAt [] with queue := [] }
  let s₄ : Authentication := { s₃ with queue := [.chunk (sampleOk ++ [1])] }
  let s₅ : Authentication := { s₃ with
    authenticated := true, buffer := [1], sc := [.data [1]], completer := some (.ok ()) }
  let s₆ : Authentication := { s₅ with sc := [.data [1], .data [2]] }
  let s₇ : Authentication := { s₅ with sc := [.data [1], .data [2], .done], ended := true }
  have h₁ : M.step listening (.chunk sampleChallenge) = some s₁ := rfl
  have h₂ : M.step s₁ (.resume sampleReply) = some s₂ := rfl
  have h₃ : M.step s₂ (.resume sampleReply) = some (flushingAt []) := rfl
  have h₄ : M.step (flushingAt []) (.resume sampleReply) = some s₃ := rfl
  have h₅ : M.step s₃ (.chunk (sampleOk ++ [1])) = some s₄ := rfl
  have h₆ : M.step s₄ (.resume sampleReply) = some s₅ := rfl
  have h₇ : M.step s₅ (.chunk [2]) = some s₆ := rfl
  have h₈ : M.step s₆ .done = some s₇ := rfl
  have hrun : M.run listening answeredRun = some s₇ := by
    rw [answeredRun, M.run_step h₁, M.run_step h₂, M.run_step h₃, M.run_step h₄, M.run_step h₅,
      M.run_step h₆, M.run_step h₇, M.run_step h₈, M.run_nil]
  have horderly : M.Meets Orderly listening answeredRun := by
    refine M.meets_cons ⟨rfl, ?_⟩ h₁ (M.meets_cons ?_ h₂ (M.meets_cons trivial h₃
      (M.meets_cons trivial h₄ (M.meets_cons ⟨rfl, ?_⟩ h₅ (M.meets_cons ?_ h₆
        (M.meets_cons ⟨rfl, fun _ => Or.inr rfl⟩ h₇ (M.meets_cons ⟨rfl, rfl⟩ h₈ trivial)))))))
    · rintro ⟨⟩
    · intro _ challenge rest hsplit
      have hrest : splitFirst newline sampleChallenge = some ([99], []) := by decide
      obtain ⟨-, rfl⟩ := Prod.mk.inj (Option.some.inj (hrest.symm.trans hsplit))
      exact List.not_mem_nil
    · rintro ⟨⟩
    · rintro ⟨⟩
  exact ⟨s₇, hrun, rfl, rfl, authenticate_upheld sampleAuthenticator horderly hrun⟩

/-- Two chunks come while the response is being flushed, the second as the first of the stream. -/
def cutOffRun : List Event :=
  [.chunk sampleChallenge, .resume sampleReply, .resume sampleReply, .chunk sampleOk, .chunk [1],
    .done, .resume sampleReply, .resume sampleReply, .resume sampleReply]

def overtakenRun : List Event :=
  [.chunk sampleChallenge, .resume sampleReply, .resume sampleReply, .chunk sampleOk, .chunk [1],
    .resume sampleReply, .resume sampleReply, .chunk [2], .resume sampleReply]

def mergedRun : List Event :=
  [.chunk (sampleChallenge ++ sampleOk), .resume sampleReply, .resume sampleReply,
    .resume sampleReply]

/-- A socket that ends before the relay has said anything leaves the future open, one that ends
too soon has its last bytes refused, a chunk may overtake another, and an `ok` that comes with
the challenge is not read. -/
theorem authenticate_loses :
    (∃ s, sampleAuthenticator.authenticate.run listening [.done] = some s ∧
      s.queue = [] ∧ s.completer = none ∧ ¬sampleAuthenticator.Upheld [.done] s) ∧
    (∃ s, sampleAuthenticator.authenticate.run listening cutOffRun = some s ∧
      s.completer = some (.ok ()) ∧ s.sc = [.done] ∧ s.refused = true ∧
        ¬sampleAuthenticator.Upheld cutOffRun s) ∧
    (∃ s, sampleAuthenticator.authenticate.run listening overtakenRun = some s ∧
      s.completer = some (.ok ()) ∧ s.sc = [.data [2], .data [1]] ∧
        ¬sampleAuthenticator.Upheld overtakenRun s) ∧
    ∃ s, sampleAuthenticator.authenticate.run listening mergedRun = some s ∧
      s.queue = [] ∧ s.completer = none ∧ s.buffer = sampleOk ∧
        ¬sampleAuthenticator.Upheld mergedRun s := by
  let s₃ : Authentication := { flushingAt [] with queue := [] }
  refine ⟨⟨{ listening with sc := [.done], ended := true }, rfl, rfl, rfl, fun h => ?_⟩,
    ⟨{ s₃ with
      authenticated := true, sc := [.done], refused := true, completer := some (.ok ()),
      ended := true }, rfl, rfl, rfl, rfl, fun h => ?_⟩,
    ⟨{ s₃ with
      authenticated := true, sc := [.data [2], .data [1]], completer := some (.ok ()) }, rfl, rfl, rfl,
      fun h => ?_⟩,
    ⟨{ s₃ with buffer := sampleOk }, rfl, rfl, rfl, rfl, fun h => ?_⟩⟩
  · cases h.completes rfl (Or.inl rfl)
  · cases h.open_
  · obtain ⟨challenge, result, body, hchallenge, hresult, -, hbytes, -, -, hsc⟩ := h.stream rfl
    have hsplit : (splitFirst newline (received overtakenRun)).bind (fun p =>
        (splitFirst newline p.2).map Prod.snd) = some [1, 2] := by decide
    have hbody : body = [.data [2], .data [1]] := by
      rw [ending_of_open rfl, List.append_nil] at hsc
      exact hsc.symm
    rw [hbytes, splitFirst_eq hchallenge, Option.bind_some, splitFirst_eq hresult, hbody] at hsplit
    have hturned : ([2, 1] : List UInt8) = [1, 2] := Option.some.inj hsplit
    exact absurd hturned (by decide)
  · cases h.completes rfl (Or.inr (by decide))

end RelayAuthenticatorESCR
end NoPorts.RelayAuthenticator
