import NoPorts.ClientSessions
import NoPorts.LegacyReverse
import NoPorts.Lib.JsonText

/-! The sessions that the Dart daemon starts. It handles many notifications at a time, each handling going on from
one `await` to the next in any order with the others, while the sessions of signed requests are watched. -/
namespace NoPorts.SshnpdSessions
open Lib SshnpdRequests

abbrev Envelope := List (String × Json)

/-- What starts a session. -/
inductive Which where
  | startNpt
  | startDirectSsh
  | startReverseSsh
  /-- `startReverseSsh`, for a legacy request. -/
  | legacy
  deriving DecidableEq, Repr

/-- A signed request, as its handler goes on with it. -/
structure Request where
  requestingAtsign : String
  which : Which
  envelope : Envelope
  session : Session
  auth : Npp.NPAAuthCheckResponse

/-- What a handling waits for. -/
inductive Stage where
  | preProcessor
  | authCheck
  | sessionMutex (auth : Npp.NPAAuthCheckResponse)
  | logRequested (req : Request)
  | verifySignature (req : Request)
  | verifyEnrollment (req : Request)
  | logApproved (req : Request) (signingKey : Option String)
  /-- `srv.run()` -/
  | starting (req : Request) (signingKey : Option String)
  | ended

/-- The checks that have answered a handling: what each was asked about, and its answer. -/
structure Asked where
  mayConnect : Option (String × Except Thrown (Option Npp.NPAAuthCheckResponse))
  verifyEnvelopeSignature : Option (String × Envelope × Except Thrown Unit)
  verifyEnrollmentSignature : Option (String × Envelope × Except Thrown (Option String))

structure Handling where
  notification : AtNotification
  stage : Stage
  asked : Asked

/-- A session that has been started, with its call of `trackClientSession`. -/
structure StartedSession where
  handling : ℕ
  which : Which
  session : Session
  signingKey : Option String
  call : Option ℕ

structure Sshnpd where
  privateKey : String
  clientSessions : ClientSessions.Daemon
  handlings : List Handling
  sessions : List StartedSession

section
variable (rt : Runtime) (d : SshnpdImpl)

/-- What the two handlers of signed requests read. -/
def readRequest (n : AtNotification) : Except Thrown (Which × Envelope × Session) := do
  let (envelope, params) ← SshnpdImpl.readEnvelope rt n
  if d.messageType rt n = "npt_request" then
    let req ← NptSessionRequest.fromJson params
    return (.startNpt, envelope, ⟨req.sessionId, req.relayAtsign, req.requestedHost, req.requestedPort⟩)
  else
    let req ← SshnpSessionRequest.fromJson params
    let session : Session := ⟨req.sessionId, req.relayAtsign, localSshdHost, d.localSshdPort⟩
    return (if req.direct then .startDirectSsh else .startReverseSsh, envelope, session)

namespace Sshnpd
variable (s : Sshnpd) (i : ℕ) (h : Handling)

/-- The `i`th handling goes on to its next `await`, or to its end. -/
def goOn (stage : Stage) : Sshnpd := { s with handlings := s.handlings.set i { h with stage } }

/-- The session that the `i`th handling has started. -/
def started (which : Which) (session : Session) (signingKey : Option String) (call : Option ℕ) : Sshnpd :=
  { s.goOn i h .ended with sessions := s.sessions ++ [⟨i, which, session, signingKey, call⟩] }

/-- The switch, for a session's request: its handler up to the first `await`. -/
def openSession (auth : Npp.NPAAuthCheckResponse) (a : Answers) : Sshnpd :=
  if d.messageType rt h.notification = "sshd" then
    match SshnpdImpl.legacyReverse rt { d with privateKey := s.privateKey } h.notification a auth with
    | .ok (some req) => s.started i h .legacy (d.legacySession req.sessionId) none none
    | _ => s.goOn i h .ended
  else
    match rt.toAtsign h.notification.fromAtsign, readRequest rt d h.notification with
    | .ok requestingAtsign, .ok (which, envelope, session) =>
      s.goOn i h (.logRequested ⟨requestingAtsign, which, envelope, session, auth⟩)
    | _, _ => s.goOn i h .ended

/-- The switch, for the other types, which start no session. -/
def handleOther : Sshnpd :=
  match d.messageType rt h.notification, h.notification.value with
  | "privatekey", some value => { s.goOn i h .ended with privateKey := value }
  | _, _ => s.goOn i h .ended

/-- `authCheck` has answered; only with a policy was anything asked. -/
def onAuthCheck (a : Answers) : Sshnpd :=
  let n := h.notification
  let asks := !d.managerAtsigns.contains n.fromAtsign && d.policy
  let h := { h with asked.mayConnect := if asks then some (n.fromAtsign, a.mayConnect) else none }
  match d.authCheck n a with
  | .error _ => s.goOn i h .ended
  | .ok auth =>
    if !auth.authorized then s.goOn i h .ended
    else if ["ssh_request", "npt_request", "sshd"].contains (d.messageType rt n) then
      if !SshnpdImpl.hasValidSessionId rt n (d.messageType rt n) then s.goOn i h .ended
      else s.goOn i h (.sessionMutex auth)
    else s.handleOther rt d i h

/-- `_clientSigningKey` up to its lookup. -/
def askEnrollment (req : Request) : Sshnpd :=
  if (s.clientSessions.clientSessions.get? req.session.sessionId).isSome then s.goOn i h .ended
  else s.goOn i h (.verifyEnrollment req)

def onVerified (req : Request) (a : Answers) : Sshnpd :=
  let h := { h with
    asked.verifyEnvelopeSignature := some (req.requestingAtsign, req.envelope, a.verifyEnvelopeSignature) }
  if SshnpdImpl.verifyRequestSignature a then s.askEnrollment i h req else s.goOn i h .ended

/-- `_clientSigningKey` from its lookup on, and the two lists of permits. -/
def onEnrollment (req : Request) (a : Answers) : Sshnpd :=
  let h := { h with
    asked.verifyEnrollmentSignature := some (req.requestingAtsign, req.envelope, a.verifyEnrollmentSignature) }
  -- that no session with the id is live was found before the lookup
  match SshnpdImpl.signingKey { d with clientSessions := [] } a req.session.sessionId with
  | .error _ => s.goOn i h .ended
  | .ok signingKey =>
    if !SshnpdImpl.permittedToOpen d.permitOpen req.session then s.goOn i h .ended
    else if !SshnpdImpl.permittedToOpen req.auth.permitOpen req.session then s.goOn i h .ended
    else s.goOn i h (.logApproved req signingKey)

def onApproved (req : Request) (signingKey : Option String) : Sshnpd :=
  -- a reverse session is not given the key
  if req.which = .startReverseSsh then s.started i h .startReverseSsh req.session signingKey none
  else s.goOn i h (.starting req signingKey)

/-- What a handling waits for has come. `_logEvent` gives a value where there is no `elc`. -/
def resume (a : Answers) : Option Sshnpd :=
  match h.stage with
  | .preProcessor =>
    match a.notifPreProcessor with
    | .error _ => some (s.goOn i h .ended)
    | .ok _ => some (s.goOn i h .authCheck)
  | .authCheck => some (s.onAuthCheck rt d i h a)
  | .sessionMutex auth =>
    if !SshnpdImpl.tryAcquireSessionMutex a then some (s.goOn i h .ended) else some (s.openSession rt d i h auth a)
  | .logRequested req =>
    match a.logRequested with
    | .error _ => some (s.goOn i h .ended)
    | .ok _ => if d.strict then some (s.goOn i h (.verifySignature req)) else some (s.askEnrollment i h req)
  | .verifySignature req => some (s.onVerified i h req a)
  | .verifyEnrollment req => some (s.onEnrollment d i h req a)
  | .logApproved req signingKey =>
    match a.logApproved with
    | .error _ => some (s.goOn i h .ended)
    | .ok _ => some (s.onApproved i h req signingKey)
  | .starting _ _ | .ended => none

/-- `srv.run()` has given the process or the connector: the session is tracked if it has a key. -/
def onRun (req : Request) (signingKey : Option String) : Except Thrown Unit → Sshnpd
  | .error _ => s.goOn i h .ended
  | .ok _ =>
    match signingKey with
    | none => s.started i h req.which req.session none none
    | some key =>
      { s.started i h req.which req.session (some key) (some s.clientSessions.calls.length) with
        clientSessions := s.clientSessions.trackClientSession req.session.sessionId key }

end Sshnpd

inductive Event where
  | arrives (notification : AtNotification)
  /-- What the `i`th handling waits for has come. -/
  | resumes (i : ℕ) (answers : Answers)
  /-- The `srv.run()` of the `i`th handling has come to its end, or what is before it has thrown. -/
  | ran (i : ℕ) (run : Except Thrown Unit)
  /-- A re-check of the clients' keys goes on, or a session ends. -/
  | watch (e : ClientSessions.Event)

/-- Sessions are tracked by the handlers only. -/
def tracks : ClientSessions.Event → Bool
  | .track _ _ => true
  | _ => false

def step (s : Sshnpd) : Event → Option Sshnpd
  | .arrives n => some { s with handlings := s.handlings ++ [⟨n, .preProcessor, ⟨none, none, none⟩⟩] }
  | .resumes i a => do
    let h ← s.handlings[i]?
    s.resume rt d i h a
  | .ran i run => do
    let h ← s.handlings[i]?
    match h.stage with
    | .starting req signingKey => return s.onRun i h req signingKey run
    | _ => none
  | .watch e => do
    guard (tracks e = false)
    return { s with clientSessions := ← s.clientSessions.step e }

def machine : Machine Sshnpd Event := ⟨step rt d⟩

/-- A daemon to which nothing has come. -/
def start : Sshnpd := ⟨"", ClientSessions.Daemon.start, [], []⟩

/-! ### What a started session is owed -/

/-- The permits let the session be opened. -/
def Opens (permits : List String) (session : Session) : Prop :=
  let host := session.requestedHost
  let port := toString session.requestedPort
  ∃ permit ∈ permits, permit = host ++ ":" ++ port ∨ permit = "*:" ++ port ∨ permit = host ++ ":*" ∨ permit = "*:*"

/-- The sender is a manager, or the policy's answer for this notification authorises it; with what permits. -/
def Authorised (n : AtNotification) (asked : Asked) (permits : List String) : Prop :=
  (n.fromAtsign ∈ d.managerAtsigns ∧ permits = ["*:*"]) ∨
    ∃ resp, asked.mayConnect = some (n.fromAtsign, .ok (some resp)) ∧ resp.authorized = true ∧
      resp.permitOpen = permits

/-- The notification asks for the session, in an envelope that is signed. -/
structure Asks (n : AtNotification) (requestingAtsign : String) (which : Which) (envelope : Envelope)
    (session : Session) : Prop where
  client : rt.toAtsign n.fromAtsign = .ok requestingAtsign
  type : d.messageType rt n = "npt_request" ∧ which = .startNpt ∨
    d.messageType rt n = "ssh_request" ∧ which = .startDirectSsh
  read : readRequest rt d n = .ok (which, envelope, session)

/-- Such a session may be started on account of the notification, its checks having answered so. -/
structure Permitted (n : AtNotification) (asked : Asked) (which : Which) (session : Session)
    (signingKey : Option String) : Prop where
  authorised : ∃ permits, Authorised d n asked permits ∧ Opens permits session
  daemon : Opens d.permitOpen session
  legacy : which = .legacy → d.messageType rt n = "sshd" ∧ ∃ id, session = d.legacySession id
  strict : which ≠ .legacy → ∃ requestingAtsign envelope, Asks rt d n requestingAtsign which envelope session ∧
    (d.strict = true → asked.verifyEnvelopeSignature = some (requestingAtsign, envelope, .ok ()))
  required : d.requireEnrollmentSignature = true → signingKey.isSome = true
  key : ∀ key, signingKey = some key → ∃ requestingAtsign envelope,
    Asks rt d n requestingAtsign which envelope session ∧
      asked.verifyEnrollmentSignature = some (requestingAtsign, envelope, .ok (some key))
  keyed : ∀ requestingAtsign envelope key,
    asked.verifyEnrollmentSignature = some (requestingAtsign, envelope, .ok (some key)) → signingKey = some key
  notRefused : ∀ requestingAtsign envelope message,
    asked.verifyEnrollmentSignature ≠ some (requestingAtsign, envelope, .error (.apskSignature message))

/-- The session is started by this step, and its id is already tracked. -/
def Taken (started : StartedSession) (s : Sshnpd) (e : Event) : Prop :=
  e = .ran started.handling (.ok ()) ∧
    (s.clientSessions.clientSessions.get? started.session.sessionId).isSome = true

/-- A session with a key is tracked under it until it ends, unless its id was tracked when it was started: then it
was ended at once. -/
def Tracked (es : List Event) (t : Sshnpd) (started : StartedSession) : Prop :=
  ∀ key, started.signingKey = some key → ∃ k call, started.call = some k ∧ t.clientSessions.calls[k]? = some call ∧
    call.sessionId = started.session.sessionId ∧ call.signingKey = key ∧
    (call.tracked = true → call.completed = false → ∃ entry,
      t.clientSessions.clientSessions.get? started.session.sessionId = some entry ∧ entry.signingKey = key ∧
        entry.call = k) ∧
    (call.tracked = false → (machine rt d).At start es (Taken started))

/-- What is to hold of a run. -/
structure Safe (es : List Event) (t : Sshnpd) : Prop where
  starting : ∀ (i : ℕ) (h : Handling) req signingKey, t.handlings[i]? = some h → h.stage = .starting req signingKey →
    Permitted rt d h.notification h.asked req.which req.session signingKey
  started : ∀ started ∈ t.sessions, ∃ h, t.handlings[started.handling]? = some h ∧
    Permitted rt d h.notification h.asked started.which started.session started.signingKey ∧
      Tracked rt d es t started

/-! ### The checks -/

/-- The request of a handling that has read it. -/
structure Read (h : Handling) (req : Request) : Prop where
  authorised : Authorised d h.notification h.asked req.auth.permitOpen
  asks : Asks rt d h.notification req.requestingAtsign req.which req.envelope req.session

/-- And its signature has been verified, if it has to be. -/
structure Verified (h : Handling) (req : Request) : Prop extends Read rt d h req where
  strict : d.strict = true →
    h.asked.verifyEnvelopeSignature = some (req.requestingAtsign, req.envelope, .ok ())

/-- What has been found when a handling comes to each of its stages. -/
def Found (h : Handling) : Prop :=
  match h.stage with
  | .preProcessor | .authCheck => h.asked.verifyEnrollmentSignature = none
  | .sessionMutex auth => Authorised d h.notification h.asked auth.permitOpen ∧
    ["ssh_request", "npt_request", "sshd"].contains (d.messageType rt h.notification) = true ∧
      h.asked.verifyEnrollmentSignature = none
  | .logRequested req | .verifySignature req => Read rt d h req
  | .verifyEnrollment req => Verified rt d h req
  | .logApproved req signingKey | .starting req signingKey =>
    Permitted rt d h.notification h.asked req.which req.session signingKey
  | .ended => True

end

variable {rt : Runtime} {d : SshnpdImpl} {s t : Sshnpd} {i : ℕ} {h : Handling} {a : Answers} {req : Request}

theorem permittedToOpen_iff {permits : List String} {session : Session} :
    SshnpdImpl.permittedToOpen permits session = true ↔ Opens permits session := by
  simp only [SshnpdImpl.permittedToOpen, Bool.or_eq_true, List.contains_iff_mem, Opens]
  constructor
  · rintro (((h | h) | h) | h)
    · exact ⟨_, h, Or.inl rfl⟩
    · exact ⟨_, h, Or.inr (Or.inl rfl)⟩
    · exact ⟨_, h, Or.inr (Or.inr (Or.inl rfl))⟩
    · exact ⟨_, h, Or.inr (Or.inr (Or.inr rfl))⟩
  · rintro ⟨permit, h, rfl | rfl | rfl | rfl⟩
    · exact Or.inl (Or.inl (Or.inl h))
    · exact Or.inl (Or.inl (Or.inr h))
    · exact Or.inl (Or.inr h)
    · exact Or.inr h

theorem opens_of_not {permits : List String} {session : Session}
    (h : ¬(!SshnpdImpl.permittedToOpen permits session) = true) : Opens permits session := by
  rw [Bool.not_eq_true', Bool.not_eq_false] at h
  exact permittedToOpen_iff.mp h

/-- Whoever is authorised is a manager, or the policy said so. -/
theorem authorised_of_authCheck {n : AtNotification} {auth : Npp.NPAAuthCheckResponse} {asked : Asked}
    (hauth : d.authCheck n a = .ok auth) (hauthorized : auth.authorized = true)
    (hasked : asked.mayConnect =
      if !d.managerAtsigns.contains n.fromAtsign && d.policy then some (n.fromAtsign, a.mayConnect) else none) :
    Authorised d n asked auth.permitOpen := by
  unfold SshnpdImpl.authCheck at hauth
  split at hauth
  · rename_i hmanager
    obtain rfl := Except.ok.inj hauth
    exact Or.inl ⟨List.contains_iff_mem.mp hmanager, rfl⟩
  · rename_i hmanager
    split at hauth
    · rename_i hpolicy
      obtain ⟨answer, hanswer, hauth⟩ := bind_eq_ok.mp hauth
      rw [hpolicy, Bool.eq_false_iff.mpr hmanager, hanswer] at hasked
      cases answer with
      | none =>
        obtain rfl := Except.ok.inj hauth
        cases hauthorized
      | some resp =>
        obtain rfl := Except.ok.inj hauth
        exact Or.inr ⟨resp, hasked, hauthorized, rfl⟩
    · obtain rfl := Except.ok.inj hauth
      cases hauthorized

/-- What `_clientSigningKey` lets through. -/
structure Cleared (d : SshnpdImpl) (answer : Except Thrown (Option String)) (signingKey : Option String) : Prop where
  key : ∀ key, signingKey = some key ↔ answer = .ok (some key)
  required : d.requireEnrollmentSignature = true → signingKey.isSome = true
  notRefused : ∀ message, answer ≠ .error (.apskSignature message)

theorem cleared_of_signingKey {sessionId : String} {signingKey : Option String}
    (h : SshnpdImpl.signingKey { d with clientSessions := [] } a sessionId = .ok signingKey) :
    Cleared d a.verifyEnrollmentSignature signingKey := by
  unfold SshnpdImpl.signingKey at h
  rw [if_neg (by simp)] at h
  dsimp only at h
  split at h
  · cases h
  · rename_i hother hanswer
    split at h
    · cases h
    · rename_i hrequire
      obtain rfl := Except.ok.inj h
      refine ⟨fun key => ?_, fun hrequired => absurd hrequired hrequire, fun message hrefused => ?_⟩
      · rw [hanswer]
        simp
      · exact hother message (Except.error.inj (hanswer.symm.trans hrefused))
  · rename_i hanswer
    split at h
    · cases h
    · rename_i hrequire
      obtain rfl := Except.ok.inj h
      rw [hanswer]
      exact ⟨fun key => by simp, fun hrequired => absurd hrequired hrequire, fun message => by simp⟩
  · rename_i key hanswer
    obtain rfl := Except.ok.inj h
    rw [hanswer]
    exact ⟨fun key => by simp, fun _ => rfl, fun message => by simp⟩

/-- No request that can be read is for a reverse session. -/
theorem asks_of_read {n : AtNotification} {requestingAtsign : String} {which : Which} {envelope : Envelope}
    {session : Session} (hclient : rt.toAtsign n.fromAtsign = .ok requestingAtsign)
    (hread : readRequest rt d n = .ok (which, envelope, session))
    (htype : ["ssh_request", "npt_request", "sshd"].contains (d.messageType rt n) = true)
    (hlegacy : d.messageType rt n ≠ "sshd") : Asks rt d n requestingAtsign which envelope session := by
  refine ⟨hclient, ?_, hread⟩
  unfold readRequest at hread
  obtain ⟨⟨found, params⟩, -, hread⟩ := bind_eq_ok.mp hread
  dsimp only at hread
  split at hread
  · rename_i hnpt
    obtain ⟨request, -, hread⟩ := bind_eq_ok.mp hread
    exact Or.inl ⟨hnpt, (congrArg Prod.fst (Except.ok.inj hread)).symm⟩
  · rename_i hnpt
    obtain ⟨request, hrequest, hread⟩ := bind_eq_ok.mp hread
    have hwhich := congrArg Prod.fst (Except.ok.inj hread)
    rw [SshnpdImpl.fromJson_direct params request hrequest, if_pos rfl] at hwhich
    refine Or.inr ⟨?_, hwhich.symm⟩
    have hmem := List.contains_iff_mem.mp htype
    simpa [hnpt, hlegacy] using hmem

/-- What a legacy request that starts a session has passed. -/
theorem legacyReverse_opens {impl : SshnpdImpl} {n : AtNotification} {auth : Npp.NPAAuthCheckResponse}
    {request : SshnpSessionRequest} (h : impl.legacyReverse rt n a auth = .ok (some request)) :
    impl.requireEnrollmentSignature = false ∧ Opens impl.permitOpen (impl.legacySession request.sessionId) ∧
      Opens auth.permitOpen (impl.legacySession request.sessionId) := by
  unfold SshnpdImpl.legacyReverse at h
  obtain ⟨value, -, h⟩ := bind_eq_ok.mp h
  obtain ⟨remoteForwardPort, -, h⟩ := bind_eq_ok.mp h
  obtain ⟨port, -, h⟩ := bind_eq_ok.mp h
  obtain ⟨username, -, h⟩ := bind_eq_ok.mp h
  obtain ⟨host, -, h⟩ := bind_eq_ok.mp h
  dsimp only at h
  split at h
  · obtain ⟨⟨⟩, -, h⟩ := bind_eq_ok.mp h
    cases h
  · rename_i hrequire
    obtain ⟨read, -, h⟩ := bind_eq_ok.mp h
    split at h
    · obtain ⟨⟨⟩, -, h⟩ := bind_eq_ok.mp h
      cases h
    · rename_i hdaemon
      split at h
      · obtain ⟨⟨⟩, -, h⟩ := bind_eq_ok.mp h
        cases h
      · rename_i hclient
        obtain rfl : read = request := Option.some.inj (Except.ok.inj h)
        exact ⟨Bool.eq_false_iff.mpr hrequire, opens_of_not hdaemon, opens_of_not hclient⟩

/-! ### One step of a handling -/

/-- What going on from an `await` does: the handling has found what it should, and a session it starts without a
`srv` was permitted. -/
inductive Goes (rt : Runtime) (d : SshnpdImpl) (s : Sshnpd) (i : ℕ) (n : AtNotification) : Sshnpd → Prop
  | on {privateKey : String} {h : Handling} (hn : h.notification = n) (hfound : Found rt d h) :
      Goes rt d s i n { s with privateKey := privateKey, handlings := s.handlings.set i h }
  | starts {h : Handling} {which : Which} {session : Session} (hn : h.notification = n)
      (hpermitted : Permitted rt d n h.asked which session none) :
      Goes rt d s i n (s.started i h which session none none)

theorem goes_handleOther {n : AtNotification} (hn : h.notification = n) : Goes rt d s i n (s.handleOther rt d i h) := by
  unfold Sshnpd.handleOther
  split
  · exact .on hn trivial
  · exact .on hn trivial

theorem goes_onAuthCheck (hfound : h.asked.verifyEnrollmentSignature = none) :
    Goes rt d s i h.notification (s.onAuthCheck rt d i h a) := by
  unfold Sshnpd.onAuthCheck
  dsimp only
  split
  · exact .on rfl trivial
  · rename_i auth hauth
    split
    · exact .on rfl trivial
    · rename_i hauthorized
      rw [Bool.not_eq_true', Bool.not_eq_false] at hauthorized
      split
      · rename_i htype
        split
        · exact .on rfl trivial
        · exact .on rfl ⟨authorised_of_authCheck hauth hauthorized rfl, htype, hfound⟩
      · exact goes_handleOther rfl

theorem goes_openSession {auth : Npp.NPAAuthCheckResponse}
    (hauth : Authorised d h.notification h.asked auth.permitOpen)
    (htype : ["ssh_request", "npt_request", "sshd"].contains (d.messageType rt h.notification) = true)
    (hnone : h.asked.verifyEnrollmentSignature = none) :
    Goes rt d s i h.notification (s.openSession rt d i h auth a) := by
  unfold Sshnpd.openSession
  split
  · rename_i hlegacy
    split
    · rename_i request hrequest
      obtain ⟨hrequire, hdaemon, hclient⟩ := legacyReverse_opens hrequest
      refine .starts rfl ?_
      exact {
        authorised := ⟨_, hauth, hclient⟩
        daemon := hdaemon
        legacy := fun _ => ⟨hlegacy, _, rfl⟩
        strict := fun hsigned => absurd rfl hsigned
        required := fun hrequired => absurd (hrequired.symm.trans hrequire) (by decide)
        key := fun key hkey => by cases hkey
        keyed := fun _ _ _ hasked => by cases hnone.symm.trans hasked
        notRefused := fun _ _ _ hasked => by cases hnone.symm.trans hasked }
    · exact .on rfl trivial
  · rename_i hlegacy
    split
    · rename_i requestingAtsign which envelope session hclient hread
      exact .on rfl ⟨hauth, asks_of_read hclient hread htype hlegacy⟩
    · exact .on rfl trivial

theorem goes_askEnrollment {n : AtNotification} (hn : h.notification = n) (hv : Verified rt d h req) :
    Goes rt d s i n (s.askEnrollment i h req) := by
  unfold Sshnpd.askEnrollment
  split
  · exact .on hn trivial
  · exact .on hn ⟨⟨hv.authorised, hv.asks⟩, hv.strict⟩

theorem goes_onVerified (hread : Read rt d h req) : Goes rt d s i h.notification (s.onVerified i h req a) := by
  unfold Sshnpd.onVerified
  dsimp only
  split
  · rename_i hverified
    obtain ⟨⟨⟩, hok⟩ := SshnpdImpl.verifyRequestSignature_iff.mp hverified
    refine goes_askEnrollment rfl ⟨⟨hread.authorised, hread.asks⟩, fun _ => ?_⟩
    rw [hok]
  · exact .on rfl trivial

theorem goes_onEnrollment (hv : Verified rt d h req) :
    Goes rt d s i h.notification (s.onEnrollment d i h req a) := by
  unfold Sshnpd.onEnrollment
  dsimp only
  split
  · exact .on rfl trivial
  · rename_i signingKey hkey
    have hcleared := cleared_of_signingKey hkey
    split
    · exact .on rfl trivial
    · rename_i hdaemon
      split
      · exact .on rfl trivial
      · rename_i hclient
        have hwhich : req.which ≠ .legacy := by
          intro hlegacy
          rcases hv.asks.type with ⟨-, hother⟩ | ⟨-, hother⟩
          · cases hlegacy.symm.trans hother
          · cases hlegacy.symm.trans hother
        refine .on rfl ?_
        exact {
          authorised := ⟨_, hv.authorised, opens_of_not hclient⟩
          daemon := opens_of_not hdaemon
          legacy := fun hlegacy => absurd hlegacy hwhich
          strict := fun _ => ⟨_, _, hv.asks, hv.strict⟩
          required := hcleared.required
          key := fun key hsome => ⟨_, _, hv.asks, by rw [(hcleared.key key).mp hsome]⟩
          keyed := fun _ _ key hasked => (hcleared.key key).mpr (congrArg (·.2.2) (Option.some.inj hasked))
          notRefused := fun _ _ message hasked =>
            hcleared.notRefused message (congrArg (·.2.2) (Option.some.inj hasked)) }

theorem goes_onApproved {signingKey : Option String}
    (hp : Permitted rt d h.notification h.asked req.which req.session signingKey) :
    Goes rt d s i h.notification (s.onApproved i h req signingKey) := by
  unfold Sshnpd.onApproved
  split
  · rename_i hreverse
    -- what has been read is for no reverse session
    obtain ⟨_, _, hasks, -⟩ := hp.strict (by rw [hreverse]; decide)
    rcases hasks.type with ⟨-, hother⟩ | ⟨-, hother⟩
    · cases hreverse.symm.trans hother
    · cases hreverse.symm.trans hother
  · exact .on rfl hp

theorem open_of_resume (ht : s.resume rt d i h a = some t) : h.stage ≠ .ended := by
  intro hended
  unfold Sshnpd.resume at ht
  rw [hended] at ht
  cases ht

theorem goes_of_resume (hfound : Found rt d h) (ht : s.resume rt d i h a = some t) :
    Goes rt d s i h.notification t := by
  unfold Sshnpd.resume at ht
  unfold Found at hfound
  cases hstage : h.stage with
  | preProcessor =>
    simp only [hstage] at ht hfound
    split at ht
    · obtain rfl := Option.some.inj ht
      exact .on rfl trivial
    · obtain rfl := Option.some.inj ht
      exact .on rfl hfound
  | authCheck =>
    simp only [hstage] at ht hfound
    obtain rfl := Option.some.inj ht
    exact goes_onAuthCheck hfound
  | sessionMutex auth =>
    simp only [hstage] at ht hfound
    obtain ⟨hauth, htype, hnone⟩ := hfound
    split at ht
    · obtain rfl := Option.some.inj ht
      exact .on rfl trivial
    · obtain rfl := Option.some.inj ht
      exact goes_openSession hauth htype hnone
  | logRequested req =>
    simp only [hstage] at ht hfound
    split at ht
    · obtain rfl := Option.some.inj ht
      exact .on rfl trivial
    · split at ht
      · obtain rfl := Option.some.inj ht
        exact .on rfl ⟨hfound.authorised, hfound.asks⟩
      · rename_i hstrict
        obtain rfl := Option.some.inj ht
        exact goes_askEnrollment rfl ⟨hfound, fun hset => absurd hset hstrict⟩
  | verifySignature req =>
    simp only [hstage] at ht hfound
    obtain rfl := Option.some.inj ht
    exact goes_onVerified hfound
  | verifyEnrollment req =>
    simp only [hstage] at ht hfound
    obtain rfl := Option.some.inj ht
    exact goes_onEnrollment hfound
  | logApproved req signingKey =>
    simp only [hstage] at ht hfound
    split at ht
    · obtain rfl := Option.some.inj ht
      exact .on rfl trivial
    · obtain rfl := Option.some.inj ht
      exact goes_onApproved hfound
  | starting req signingKey =>
    simp only [hstage] at ht
    cases ht
  | ended => exact absurd hstage (open_of_resume ht)

/-! ### Every state that is reached -/

/-- The handlings have found what they should, and those that have started a session have ended. -/
structure Ok (rt : Runtime) (d : SshnpdImpl) (s : Sshnpd) : Prop where
  found : ∀ (j : ℕ) (h : Handling), s.handlings[j]? = some h → Found rt d h
  started : ∀ started ∈ s.sessions, ∃ h, s.handlings[started.handling]? = some h ∧ h.stage = .ended ∧
    Permitted rt d h.notification h.asked started.which started.session started.signingKey

theorem ok_start : Ok rt d start := by
  constructor
  · intro j h hj
    cases hj
  · intro started hstarted
    cases hstarted

section
variable {old : Handling} (hok : Ok rt d s) (hold : s.handlings[i]? = some old) (hopen : old.stage ≠ .ended)
include hok hold hopen

theorem ok_goesOn (privateKey : String) (hfound : Found rt d h) :
    Ok rt d { s with privateKey := privateKey, handlings := s.handlings.set i h } := by
  constructor
  · intro j h' hj
    rcases getElem?_set_cases hj with ⟨-, rfl⟩ | ⟨-, hj⟩
    · exact hfound
    · exact hok.found j h' hj
  · intro started hstarted
    obtain ⟨h', hat, hended, hpermitted⟩ := hok.started started hstarted
    have hne : i ≠ started.handling := by
      intro heq
      rw [← heq, hold] at hat
      rw [Option.some.inj hat] at hopen
      exact hopen hended
    exact ⟨h', by rw [List.getElem?_set_ne hne, hat], hended, hpermitted⟩

theorem ok_started {which : Which} {session : Session} {signingKey : Option String} {call : Option ℕ}
    (hpermitted : Permitted rt d h.notification h.asked which session signingKey) :
    Ok rt d (s.started i h which session signingKey call) := by
  have hended := ok_goesOn hok hold hopen s.privateKey (h := { h with stage := .ended }) trivial
  have hlt : i < s.handlings.length := (List.getElem?_eq_some_iff.mp hold).1
  refine ⟨hended.found, fun started hstarted => ?_⟩
  rcases List.mem_append.mp hstarted with hstarted | hstarted
  · exact hended.started started hstarted
  · rw [List.mem_singleton.mp hstarted]
    exact ⟨_, List.getElem?_set_self hlt, rfl, hpermitted⟩

theorem ok_of_goes (hgoes : Goes rt d s i old.notification t) : Ok rt d t := by
  cases hgoes with
  | on hn hfound => exact ok_goesOn hok hold hopen _ hfound
  | starts hn hpermitted => exact ok_started hok hold hopen (hn ▸ hpermitted)

end

theorem ok_arrives (hok : Ok rt d s) (n : AtNotification) :
    Ok rt d { s with handlings := s.handlings ++ [⟨n, .preProcessor, ⟨none, none, none⟩⟩] } := by
  constructor
  · intro j h hj
    rcases getElem?_concat_cases hj with hj | ⟨-, rfl⟩
    · exact hok.found j h hj
    · exact rfl
  · intro started hstarted
    obtain ⟨h, hat, hrest⟩ := hok.started started hstarted
    exact ⟨h, by rw [List.getElem?_append_left (List.getElem?_eq_some_iff.mp hat).1, hat], hrest⟩

/-! ### The calls of `trackClientSession` -/

/-- What a call was made with, and whether it tracked its session, stays. -/
def Kept (u v : ClientSessions.Daemon) : Prop :=
  ∀ (k : ℕ) (call : ClientSessions.TrackCall), u.calls[k]? = some call → ∃ call', v.calls[k]? = some call' ∧
    call'.sessionId = call.sessionId ∧ call'.signingKey = call.signingKey ∧ call'.tracked = call.tracked

theorem kept_of_eq {u v : ClientSessions.Daemon} (hsame : v.calls = u.calls) : Kept u v := by
  intro k call hcall
  exact ⟨call, by rw [hsame, hcall], rfl, rfl, rfl⟩

theorem calls_track (u : ClientSessions.Daemon) (sessionId key : String) :
    (u.trackClientSession sessionId key).calls =
      u.calls ++ [⟨sessionId, key, !(u.clientSessions.get? sessionId).isSome, false⟩] := by
  rw [ClientSessions.Daemon.trackClientSession]
  split
  · rename_i htaken
    rw [htaken]
    rfl
  · rename_i hfree
    rw [Bool.eq_false_iff.mpr hfree]
    rfl

theorem last_call_track (u : ClientSessions.Daemon) (sessionId key : String) :
    (u.trackClientSession sessionId key).calls[u.calls.length]? =
      some ⟨sessionId, key, !(u.clientSessions.get? sessionId).isSome, false⟩ := by
  rw [calls_track]
  exact List.getElem?_concat_length

theorem kept_track (u : ClientSessions.Daemon) (sessionId key : String) :
    Kept u (u.trackClientSession sessionId key) := by
  intro k call hcall
  refine ⟨call, ?_, rfl, rfl, rfl⟩
  rw [calls_track, List.getElem?_append_left (List.getElem?_eq_some_iff.mp hcall).1, hcall]

theorem kept_step {u v : ClientSessions.Daemon} {e : ClientSessions.Event} (hstep : u.step e = some v) : Kept u v := by
  rcases ClientSessions.Daemon.step_cases hstep with ⟨id, key, -, rfl⟩ | ⟨-, rfl⟩ | ⟨r, key, -, -, rfl⟩ |
    ⟨r, key, place, -, -, rfl⟩ | ⟨r, key, pc, -, -, -, rfl⟩ | ⟨n, ended, -, hended, -, rfl⟩
  · exact kept_track u id key
  · exact kept_of_eq rfl
  · exact kept_of_eq rfl
  · exact kept_of_eq rfl
  · exact kept_of_eq rfl
  · intro k call hcall
    by_cases hk : n = k
    · subst hk
      obtain rfl := Option.some.inj (hended.symm.trans hcall)
      exact ⟨_, List.getElem?_set_self (List.getElem?_eq_some_iff.mp hcall).1, rfl, rfl, rfl⟩
    · exact ⟨call, by rw [ClientSessions.Daemon.whenEnded, List.getElem?_set_ne hk, hcall], rfl, rfl, rfl⟩

/-- The call a session with a key was given to; where it tracked nothing, another session had the id. -/
def Called (rt : Runtime) (d : SshnpdImpl) (es : List Event) (t : Sshnpd) (started : StartedSession) : Prop :=
  ∀ key, started.signingKey = some key → ∃ k call, started.call = some k ∧ t.clientSessions.calls[k]? = some call ∧
    call.sessionId = started.session.sessionId ∧ call.signingKey = key ∧
      (call.tracked = false → (machine rt d).At start es (Taken started))

theorem Called.later {es : List Event} {started : StartedSession} (hcalled : Called rt d es s started) (e : Event)
    (hkept : Kept s.clientSessions t.clientSessions) : Called rt d (es ++ [e]) t started := by
  intro key hkey
  obtain ⟨k, call, hk, hcall, hid, hsigning, htaken⟩ := hcalled key hkey
  obtain ⟨call', hcall', hid', hsigning', htracked⟩ := hkept k call hcall
  exact ⟨k, call', hk, hcall', hid'.trans hid, hsigning'.trans hsigning, fun huntracked =>
    (htaken (htracked.symm.trans huntracked)).later e⟩

theorem Called.tracked {es : List Event} {started : StartedSession} (hcalled : Called rt d es t started)
    (hwatch : ClientSessions.Daemon.Inv t.clientSessions) : Tracked rt d es t started := by
  intro key hkey
  obtain ⟨k, call, hk, hcall, hid, hsigning, htaken⟩ := hcalled key hkey
  refine ⟨k, call, hk, hcall, hid, hsigning, fun htracked hrunning => ?_, htaken⟩
  obtain ⟨entry, hentry, hsame⟩ := hwatch.holds.live k call ⟨hcall, htracked, hrunning⟩
  rw [hid] at hentry
  obtain ⟨call', hlive, -, hkey'⟩ := hwatch.holds.entry _ _ hentry
  have hat := hlive.1
  rw [hsame, hcall] at hat
  rw [← Option.some.inj hat, hsigning] at hkey'
  exact ⟨entry, hentry, hkey'.symm, hsame⟩

/-- What holds of a run. -/
structure Inv (rt : Runtime) (d : SshnpdImpl) (es : List Event) (t : Sshnpd) : Prop where
  ok : Ok rt d t
  watch : ClientSessions.Daemon.Inv t.clientSessions
  called : ∀ started ∈ t.sessions, Called rt d es t started

/-- A session without a key is nothing to the watch. -/
theorem called_of_none {es : List Event} {started : StartedSession} (hnone : started.signingKey = none) :
    Called rt d es t started := by
  intro key hkey
  cases hnone.symm.trans hkey

theorem inv_resumes {es : List Event} {e : Event} (hinv : Inv rt d es s) (hh : s.handlings[i]? = some h)
    (ht : s.resume rt d i h a = some t) : Inv rt d (es ++ [e]) t := by
  have hgoes := goes_of_resume (hinv.ok.found i h hh) ht
  refine ⟨ok_of_goes hinv.ok hh (open_of_resume ht) hgoes, ?_, ?_⟩
  · cases hgoes with
    | on hn hfound => exact hinv.watch
    | starts hn hpermitted => exact hinv.watch
  · intro started hstarted
    cases hgoes with
    | on hn hfound => exact (hinv.called started hstarted).later e (kept_of_eq rfl)
    | starts hn hpermitted =>
      rcases List.mem_append.mp hstarted with hstarted | hstarted
      · exact (hinv.called started hstarted).later e (kept_of_eq rfl)
      · rw [List.mem_singleton.mp hstarted]
        exact called_of_none rfl

theorem inv_ran {es : List Event} {run : Except Thrown Unit} {signingKey : Option String} (hinv : Inv rt d es s)
    (hs : (machine rt d).run start es = some s) (hh : s.handlings[i]? = some h)
    (hstage : h.stage = .starting req signingKey) :
    Inv rt d (es ++ [.ran i run]) (s.onRun i h req signingKey run) := by
  have hopen : h.stage ≠ .ended := by
    rw [hstage]
    simp
  have hpermitted : Permitted rt d h.notification h.asked req.which req.session signingKey := by
    have hfound := hinv.ok.found i h hh
    rwa [Found, hstage] at hfound
  cases run with
  | error e =>
    exact ⟨ok_goesOn hinv.ok hh hopen s.privateKey trivial, hinv.watch, fun started hstarted =>
      (hinv.called started hstarted).later _ (kept_of_eq rfl)⟩
  | ok value =>
    cases signingKey with
    | none =>
      refine ⟨ok_started hinv.ok hh hopen hpermitted, hinv.watch, fun started hstarted => ?_⟩
      rcases List.mem_append.mp hstarted with hstarted | hstarted
      · exact (hinv.called started hstarted).later _ (kept_of_eq rfl)
      · rw [List.mem_singleton.mp hstarted]
        exact called_of_none rfl
    | some key =>
      have hnext : Ok rt d (s.started i h req.which req.session (some key) (some s.clientSessions.calls.length)) :=
        ok_started hinv.ok hh hopen hpermitted
      refine ⟨⟨hnext.found, hnext.started⟩, hinv.watch.step (e := .track req.session.sessionId key) rfl,
        fun started hstarted => ?_⟩
      rcases List.mem_append.mp hstarted with hstarted | hstarted
      · exact (hinv.called started hstarted).later _ (kept_track _ _ _)
      · rw [List.mem_singleton.mp hstarted]
        intro key' hkey'
        obtain rfl := Option.some.inj hkey'
        refine ⟨_, _, rfl, last_call_track _ _ _, rfl, rfl, fun huntracked => ?_⟩
        rw [Bool.not_eq_false'] at huntracked
        exact Machine.At.now hs ⟨rfl, huntracked⟩

theorem inv_step {es : List Event} {e : Event} (hinv : Inv rt d es s)
    (hs : (machine rt d).run start es = some s) (ht : step rt d s e = some t) : Inv rt d (es ++ [e]) t := by
  cases e with
  | arrives n =>
    obtain rfl := Option.some.inj ht
    exact ⟨ok_arrives hinv.ok n, hinv.watch, fun started hstarted =>
      (hinv.called started hstarted).later _ (kept_of_eq rfl)⟩
  | resumes i a =>
    obtain ⟨h, hh, ht⟩ := Option.bind_eq_some_iff.mp ht
    exact inv_resumes hinv hh ht
  | ran i run =>
    obtain ⟨h, hh, ht⟩ := Option.bind_eq_some_iff.mp ht
    split at ht
    · rename_i req signingKey hstage
      obtain rfl := Option.some.inj ht
      exact inv_ran hinv hs hh hstage
    · cases ht
  | watch e =>
    obtain ⟨_, -, ht⟩ := Option.bind_eq_some_iff.mp ht
    obtain ⟨v, hv, ht⟩ := Option.bind_eq_some_iff.mp ht
    obtain rfl := Option.some.inj ht
    exact ⟨⟨hinv.ok.found, hinv.ok.started⟩, hinv.watch.step hv, fun started hstarted =>
      (hinv.called started hstarted).later _ (kept_step hv)⟩

theorem inv_run {es : List Event} (hr : (machine rt d).run start es = some t) : Inv rt d es t := by
  apply (machine rt d).run_induction _ _ hr
  · exact ⟨ok_start, ClientSessions.Daemon.inv_start, fun started hstarted => by cases hstarted⟩
  · intro es e u v hu hinv ht
    exact inv_step hinv hu ht

/-- No session without permission. -/
theorem safe_run {es : List Event} (hr : (machine rt d).run start es = some t) : Safe rt d es t := by
  have hinv := inv_run hr
  constructor
  · intro i h req signingKey hh hstage
    have hfound := hinv.ok.found i h hh
    rwa [Found, hstage] at hfound
  · intro started hstarted
    obtain ⟨h, hh, -, hpermitted⟩ := hinv.ok.started started hstarted
    exact ⟨h, hh, hpermitted, (hinv.called started hstarted).tracked hinv.watch⟩

/-! ### Two clients at once -/

def signedEnvelope (payload : List (String × Json)) : Json :=
  .obj [("payload", .obj payload), ("signature", .str "c2ln"), ("hashingAlgo", .str "sha256"),
    ("signingAlgo", .str "rsa2048")]

def ownEnvelope : Json :=
  signedEnvelope
    [("sessionId", .str "01234567-89ab-cdef-0123-456789abcdef"), ("rvdHost", .str "relay"), ("rvdPort", .int 443),
      ("requestedHost", .str "db"), ("requestedPort", .int 5432), ("authenticateToRvd", .bool false),
      ("clientNonce", .str "n"), ("rvdNonce", .str "m"), ("encryptRvdTraffic", .bool false),
      ("clientEphemeralPK", .str "pk"), ("clientEphemeralPKType", .str "rsa2048")]

def guestEnvelope : Json :=
  signedEnvelope
    [("direct", .bool true), ("sessionId", .str "76543210-89ab-cdef-0123-456789abcdef"), ("host", .str "relay"),
      ("port", .int 443)]

/-- It decodes the text of either envelope. -/
def envelopeRuntime : Runtime :=
  { SshnpdImpl.lowercased with
    jsonDecode := fun text =>
      match [ownEnvelope, guestEnvelope].find? fun envelope => Json.compactEncode envelope == text with
      | some envelope => .ok envelope
      | none => .error (.format "Unexpected character") }

def ownRequest : AtNotification :=
  ⟨"1", "@daemon:npt_request.dev.sshnp@client", "@client", "@daemon", some (Json.compactEncode ownEnvelope)⟩

def guestRequest : AtNotification :=
  ⟨"2", "@daemon:ssh_request.dev.sshnp@guest", "@guest", "@daemon", some (Json.compactEncode guestEnvelope)⟩

/-- With a policy, and stricter about what is signed and what is opened. -/
def guarded : SshnpdImpl :=
  { SshnpdImpl.managed with policy := true, strict := true, permitOpen := ["localhost:22", "db:*"] }

def signedWith (key : Option String) : Answers :=
  { SshnpdImpl.answering with
    mayConnect := .ok (some ⟨true, none, ["*:22"]⟩)
    tryAcquireServerMutex := .error (.other "timeout")
    verifyEnrollmentSignature := .ok key }

/-- A manager's request and a guest's, of which only the first is signed with an enrollment key. -/
def twoClients : List Event :=
  [.arrives ownRequest, .arrives guestRequest] ++ List.replicate 5 (.resumes 0 (signedWith (some "k"))) ++
    List.replicate 7 (.resumes 1 (signedWith none)) ++ List.replicate 2 (.resumes 0 (signedWith (some "k"))) ++
    [.ran 1 (.ok ()), .ran 0 (.ok ()), .watch .tick]

theorem safe_run_sample : ∃ t, (machine envelopeRuntime guarded).run start twoClients = some t ∧
    t.sessions.map (fun started => (started.handling, started.which, started.signingKey)) =
      [(1, .startDirectSsh, none), (0, .startNpt, some "k")] ∧ Safe envelopeRuntime guarded twoClients t := by
  have hrun : ((machine envelopeRuntime guarded).run start twoClients).map
      (fun t => t.sessions.map fun started => (started.handling, started.which, started.signingKey)) =
        some [(1, .startDirectSsh, none), (0, .startNpt, some "k")] := by
    decide +kernel
  obtain ⟨t, ht, hsessions⟩ := Option.map_eq_some_iff.mp hrun
  exact ⟨t, ht, hsessions, safe_run ht⟩

/-- One request twice, signed with two keys: both are past the check that no session with the id is live when the
first of the two is started. -/
def twins : List Event :=
  [.arrives ownRequest, .arrives ownRequest] ++ List.replicate 7 (.resumes 0 (signedWith (some "k"))) ++
    List.replicate 7 (.resumes 1 (signedWith (some "l"))) ++ [.ran 0 (.ok ()), .ran 1 (.ok ())]

/-- A legacy request of a manager. -/
def legacyAlone : List Event :=
  .arrives (SshnpdImpl.legacyRequestOf "alice") :: List.replicate 3 (.resumes 0 (signedWith none))

/-- A strict daemon starts a legacy session though no signature was verified, and of two sessions with one id the
second, whose key was verified too, is not tracked under it. -/
theorem legacy_unverified_twin_untracked : guarded.strict = true ∧
    (∃ t started h, (machine envelopeRuntime guarded).run start legacyAlone = some t ∧ started ∈ t.sessions ∧
      t.handlings[started.handling]? = some h ∧ h.asked.verifyEnvelopeSignature.isNone = true) ∧
    ∃ t started, (machine envelopeRuntime guarded).run start twins = some t ∧ started ∈ t.sessions ∧
      started.signingKey = some "l" ∧
      ∀ id entry, t.clientSessions.clientSessions.get? id = some entry → entry.signingKey = "k" := by
  refine ⟨rfl, ?_, ?_⟩
  · have hrun : ((machine envelopeRuntime guarded).run start legacyAlone).map (fun t =>
        (t.sessions.map (·.handling), t.handlings.map fun h => h.asked.verifyEnvelopeSignature.isNone)) =
          some ([0], [true]) := by
      decide +kernel
    obtain ⟨t, ht, hboth⟩ := Option.map_eq_some_iff.mp hrun
    obtain ⟨hsessions, hasked⟩ := Prod.mk.inj hboth
    have hmem : 0 ∈ t.sessions.map (·.handling) := by
      rw [hsessions]
      exact List.mem_singleton_self 0
    obtain ⟨started, hstarted, hzero⟩ := List.mem_map.mp hmem
    have hat : (t.handlings.map fun h => h.asked.verifyEnvelopeSignature.isNone)[0]? = some true := by
      rw [hasked]
      rfl
    rw [List.getElem?_map] at hat
    obtain ⟨h, hh, hnone⟩ := Option.map_eq_some_iff.mp hat
    exact ⟨t, started, h, ht, hstarted, by rw [hzero, hh], hnone⟩
  · have hrun : ((machine envelopeRuntime guarded).run start twins).map (fun t =>
        (t.sessions.map (·.signingKey), t.clientSessions.clientSessions.entries.map (·.2.signingKey))) =
          some ([some "k", some "l"], ["k"]) := by
      decide +kernel
    obtain ⟨t, ht, hboth⟩ := Option.map_eq_some_iff.mp hrun
    obtain ⟨hsessions, hentries⟩ := Prod.mk.inj hboth
    have hmem : some "l" ∈ t.sessions.map (·.signingKey) := by
      rw [hsessions]
      exact List.mem_cons_of_mem _ (List.mem_singleton_self _)
    obtain ⟨started, hstarted, hkey⟩ := List.mem_map.mp hmem
    refine ⟨t, started, ht, hstarted, hkey, fun id entry hentry => ?_⟩
    have hkept := List.mem_map_of_mem (f := (·.2.signingKey)) (Table.mem_entries_iff.mpr hentry)
    rw [hentries] at hkept
    exact List.mem_singleton.mp hkept

end NoPorts.SshnpdSessions
