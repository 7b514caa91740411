import Mathlib.Data.Option.Basic
import NoPorts.RelayAuthEscrSound
import NoPorts.SrvdModels

/-! The worker of the port that all sessions share: sessions start and end while sockets
are authenticated, each socket on its own verifier. -/
namespace NoPorts.Srvd
open Lib Signing

/-- A `SessionInfo` of the worker; `ref` tells one object from another. -/
structure WorkerSession where
  ref : ℕ
  params : SrvdSessionParams
  /-- Whether its connector has been closed. -/
  closed : Bool

/-- What the worker sends to the main isolate. -/
inductive ToMain where
  | startRefused (sessionId reason : String)
  | signingKey (sessionId key : String)
  | sessionComplete (sessionId : String)
  deriving DecidableEq, Repr

/-- A side of a session that a socket has become. -/
structure Joined where
  sessionId : String
  ref : ℕ
  isSideA : Bool
  deriving DecidableEq, Repr

/-- How far the `socketHandler` of a socket has come. -/
inductive Stage where
  /-- At `verifySocketAuth`, before the response line. -/
  | reading
  /-- At `verifySocketAuth`, until the `ok` is flushed. -/
  | verifying
  | authenticated
  /-- At `isSessionActive`, which has its answer. -/
  | asking (sessionId atSign : String) (active : Bool)
  | over
  deriving DecidableEq, Repr

structure Connection where
  challenge : String
  /-- The response line, once it has arrived. -/
  response : Option String
  /-- The socket's verifier; its helper's sessions are the worker's. -/
  rav : Verifier
  stage : Stage
  joined : Option Joined
  destroyed : Bool

structure SinglePortWorker where
  sessions : List (String × WorkerSession)
  connections : List Connection
  toMain : List ToMain
  /-- The next session's `ref`. -/
  refs : ℕ

inductive WorkerEvent where
  | startSession (params : SrvdSessionParams)
  | endSession (sessionId : String)
  /-- The connector of a session is done. -/
  | connectorDone (sessionId : String)
  /-- A socket connects, and is sent a fresh challenge. -/
  | socketHandler (challenge : String)
  | respond (connection : ℕ) (response : String)
  /-- The verification goes on; `record` is how a lookup it awaits has ended. -/
  | resume (connection : ℕ) (record : Except Thrown String)
  /-- The `ok` for a verified response is flushed. -/
  | flushed (connection : ℕ)
  /-- The handler of an authenticated socket goes on. -/
  | handle (connection : ℕ)
  /-- `verifySocketAuth` throws, or takes too long. -/
  | fail (connection : ℕ)

/-- Why a single-port session can't be started. -/
def whyRefused (params : SrvdSessionParams) : Option String :=
  if params.relayAuthMode = .payload then some "relayAuthMode may not be \"payload\" on port 443"
  else if !(params.authenticateSocketA && params.authenticateSocketB) then
    some "both sides must authenticate on port 443"
  else none

namespace Connection

/-- The `catch` of the handler. -/
def destroy (c : Connection) : Connection := { c with stage := .over, destroyed := true }

def verified (c : Connection) : Bool :=
  match c.rav.calls with
  | [.finished (.ok true)] => true
  | _ => false

end Connection

namespace SinglePortWorker

/-- The live sessions, as the verifiers' helper sees them. -/
def keys (w : SinglePortWorker) : List (String × Option String) :=
  w.sessions.map fun e => (e.1, e.2.params.relayAuthAesKey)

def startSession (w : SinglePortWorker) (params : SrvdSessionParams) : SinglePortWorker :=
  if (w.sessions.lookup params.sessionId).isSome then w
  else
    match whyRefused params with
    | some reason => { w with toMain := w.toMain ++ [.startRefused params.sessionId reason] }
    | none => { w with
        sessions := (params.sessionId, ⟨w.refs, params, false⟩) :: w.sessions
        refs := w.refs + 1 }

/-- Closes the connector of the session. -/
def endSession (w : SinglePortWorker) (sessionId : String) : SinglePortWorker := { w with
  sessions := w.sessions.map fun e => if e.1 = sessionId then (e.1, { e.2 with closed := true }) else e }

def connectorDone (w : SinglePortWorker) (sessionId : String) : Option SinglePortWorker :=
  match w.sessions.lookup sessionId with
  | none => none
  | some _ => some { w with
      sessions := w.sessions.filter (·.1 != sessionId)
      toMain := w.toMain ++ [.sessionComplete sessionId] }

/-- A socket that has been sent its challenge. -/
def challenged (challenge : String) : Connection where
  challenge := challenge
  response := none
  rav := Runtime.fresh [] []
  stage := .reading
  joined := none
  destroyed := false

/-- What the handler does with one connection. -/
def setConnection (w : SinglePortWorker) (i : ℕ) (c : Connection) : SinglePortWorker :=
  { w with connections := w.connections.set i c }

def respond (w : SinglePortWorker) (c : Connection) (response : String) : Option Connection :=
  if c.stage = .reading then
    some { c with
      response := some response
      rav := Runtime.fresh w.keys [response]
      stage := .verifying }
  else none

def flushed (c : Connection) : Option Connection :=
  if c.stage = .verifying ∧ c.verified = true then some { c with stage := .authenticated } else none

def fail (c : Connection) : Option Connection :=
  if c.stage = .reading ∨ c.stage = .verifying then some c.destroy else none

section
variable (rt : Runtime) (takes : (closed : Bool) → Bool)

def resume (w : SinglePortWorker) (c : Connection) (record : Except Thrown String) :
    Option Connection :=
  if c.stage = .verifying then
    (rt.verifierStep c.challenge { c.rav with sessions := w.keys } (.resume 0 record)).map
      fun rav => { c with rav := rav }
  else none

/-- The checks after `isSessionActive`; a session, side and signing key unless one of
them throws. -/
def admitted (w : SinglePortWorker) (c : Connection) (sessionId atSign : String) (active : Bool) :
    Option (WorkerSession × Bool × String) := do
  guard active
  let si ← w.sessions.lookup sessionId
  let isSideA ← c.rav.isSideA
  let expected ← rt.toAtsign (if isSideA then si.params.atSignA else si.params.atSignB)
  guard (atSign = expected)
  let key ← c.rav.signingKeyUri
  return (si, isSideA, key)

/-- The handler, from an await to the next or to its end. A connector that does not take
the side throws, which destroys the socket. -/
def handle (w : SinglePortWorker) (c : Connection) : Option (Connection × List ToMain) :=
  match c.stage with
  | .authenticated =>
    match c.rav.sessionId, c.rav.atSign, c.rav.isSideA with
    | some sessionId, some atSign, some _ =>
      some ({ c with stage := .asking sessionId atSign (w.sessions.lookup sessionId).isSome }, [])
    | _, _, _ => some (c.destroy, [])
  | .asking sessionId atSign active =>
    match admitted rt w c sessionId atSign active with
    | none => some (c.destroy, [])
    | some (si, isSideA, key) =>
      if takes si.closed then
        some ({ c with stage := .over, joined := some ⟨sessionId, si.ref, isSideA⟩ },
          [.signingKey sessionId key])
      else some (c.destroy, [.signingKey sessionId key])
  | _ => none

def step (w : SinglePortWorker) : WorkerEvent → Option SinglePortWorker
  | .startSession params => some (w.startSession params)
  | .endSession sessionId => some (w.endSession sessionId)
  | .connectorDone sessionId => w.connectorDone sessionId
  | .socketHandler challenge =>
    some { w with connections := w.connections ++ [challenged challenge] }
  | .respond i response =>
    (w.connections[i]?).bind fun c => (w.respond c response).map (w.setConnection i)
  | .resume i record =>
    (w.connections[i]?).bind fun c => (resume rt w c record).map (w.setConnection i)
  | .flushed i => (w.connections[i]?).bind fun c => (flushed c).map (w.setConnection i)
  | .handle i =>
    (w.connections[i]?).bind fun c => (handle rt takes w c).map fun r =>
      { w.setConnection i r.1 with toMain := w.toMain ++ r.2 }
  | .fail i => (w.connections[i]?).bind fun c => (fail c).map (w.setConnection i)

def machine : Machine SinglePortWorker WorkerEvent := ⟨step rt takes⟩

end

def init : SinglePortWorker := ⟨[], [], [], 0⟩

/-! ### A socket's verifier -/

/-- The verifier of `c` has come to where it is in a run of its own, among the sessions
of the worker. -/
def Follows (rt : Runtime) (w : SinglePortWorker) (c : Connection) : Prop :=
  ∃ response sessions es, c.response = some response ∧
    (rt.verifier c.challenge).run (Runtime.fresh sessions [response]) es =
      some { c.rav with sessions := w.keys }

/-- What holds of a socket by where its handler is. -/
def Reached (rt : Runtime) (w : SinglePortWorker) (c : Connection) : Prop :=
  match c.stage with
  | .reading => c.joined = none ∧ c.destroyed = false
  | .verifying => c.joined = none ∧ c.destroyed = false ∧ Follows rt w c
  | .authenticated => c.joined = none ∧ c.destroyed = false ∧ Follows rt w c ∧ c.verified = true
  | .asking sessionId atSign _ => c.joined = none ∧ c.destroyed = false ∧ Follows rt w c ∧
      c.verified = true ∧ c.rav.sessionId = some sessionId ∧ c.rav.atSign = some atSign
  | .over => c.joined.isSome = !c.destroyed

/-- `response`, to `challenge`, verifies as one for this side of this session, signed with
a key of `atSign`. -/
def Proves (rt : Runtime) (challenge response sessionId : String) (isSideA : Bool)
    (atSign : String) : Prop :=
  ∃ helper claim envelopeJson apsk, rt.verifyWith challenge helper response =
      .ok ⟨sessionId, isSideA, atSign, claim.signingKeyUri⟩ ∧
    rt.Vouches challenge sessionId envelopeJson claim ∧ rt.SignedBy claim apsk ∧
      claim.isSideA = isSideA ∧ claim.atSign = atSign

/-- The session of `j` is live, its connector takes sides, and its `j` side is for `atSign`. -/
def Expects (rt : Runtime) (takes : (closed : Bool) → Bool) (w : SinglePortWorker) (j : Joined)
    (atSign : String) : Prop :=
  ∃ si, w.sessions.lookup j.sessionId = some si ∧ si.ref = j.ref ∧ takes si.closed = true ∧
    rt.toAtsign (if j.isSideA then si.params.atSignA else si.params.atSignB) = some atSign

/-- What the socket has proved is what the session of `j` expects. -/
def Admits (rt : Runtime) (takes : (closed : Bool) → Bool) (w : SinglePortWorker) (c : Connection)
    (j : Joined) : Prop :=
  ∃ response atSign, c.response = some response ∧
    Proves rt c.challenge response j.sessionId j.isSideA atSign ∧ Expects rt takes w j atSign

variable {rt : Runtime} {takes : (closed : Bool) → Bool} {w w' : SinglePortWorker}
  {c c' : Connection}

theorem Follows.event (h : Follows rt w c) (ev : VerifierEvent) {rav : Verifier}
    (hstep : rt.verifierStep c.challenge { c.rav with sessions := w.keys } ev = some rav)
    (hc : c'.response = c.response ∧ c'.challenge = c.challenge)
    (hrav : rav = { c'.rav with sessions := w'.keys }) : Follows rt w' c' := by
  obtain ⟨response, sessions, es, hresponse, hrun⟩ := h
  refine ⟨response, sessions, es ++ [ev], hc.1.trans hresponse, ?_⟩
  rw [hc.2, Machine.run_append, hrun, Option.bind_some, ← hrav]
  exact (Machine.run_step _ hstep []).trans rfl

theorem lookup_keys (sessionId : String) :
    w.keys.lookup sessionId = (w.sessions.lookup sessionId).map (·.params.relayAuthAesKey) := by
  unfold keys
  induction w.sessions with
  | nil => rfl
  | cons e es ih =>
    obtain ⟨id, si⟩ := e
    simp only [List.map_cons, List.lookup_cons, ih]
    cases sessionId == id with
    | true => rfl
    | false => rfl

theorem follows_startSession (params : SrvdSessionParams) (h : Follows rt w c) :
    Follows rt (w.startSession params) c := by
  unfold startSession
  split
  · exact h
  · rename_i hnew
    split
    · exact h
    · refine h.event (.startSession params.sessionId params.relayAuthAesKey) rfl ⟨rfl, rfl⟩ ?_
      have hkeys : (w.keys.lookup params.sessionId).isSome = false := by
        rw [lookup_keys, Option.isSome_map]
        exact Bool.not_eq_true _ ▸ hnew
      simp only [hkeys, Bool.false_eq_true, if_false]
      rfl

theorem follows_endSession (sessionId : String) (h : Follows rt w c) :
    Follows rt (w.endSession sessionId) c := by
  have hkeys : (w.endSession sessionId).keys = w.keys := by
    simp only [keys, endSession, List.map_map]
    refine List.map_congr_left fun e _ => ?_
    simp only [Function.comp_apply]
    split
    · rfl
    · rfl
  unfold Follows
  rwa [hkeys]

theorem connectorDone_spec {sessionId : String} (hdone : w.connectorDone sessionId = some w') :
    w'.connections = w.connections ∧ ∀ c, Follows rt w c → Follows rt w' c := by
  unfold connectorDone at hdone
  split at hdone
  · cases hdone
  · obtain rfl := Option.some.inj hdone
    refine ⟨rfl, fun c h => h.event (.endSession sessionId) rfl ⟨rfl, rfl⟩ ?_⟩
    simp only [keys, List.filter_map]
    rfl

/-- Where a handler is depends on the sessions through its verifier only. -/
theorem Reached.of_follows (h : Reached rt w c) (hf : Follows rt w c → Follows rt w' c) :
    Reached rt w' c := by
  unfold Reached at h ⊢
  split at h
  · exact h
  · exact ⟨h.1, h.2.1, hf h.2.2⟩
  · exact ⟨h.1, h.2.1, hf h.2.2.1, h.2.2.2⟩
  · exact ⟨h.1, h.2.1, hf h.2.2.1, h.2.2.2⟩
  · exact h

/-! ### One step of a handler -/

theorem respond_reached {response : String} (h : w.respond c response = some c') :
    Reached rt w c → Reached rt w c' ∧ c'.joined = none := by
  intro hc
  obtain ⟨hstage, h⟩ := Option.ite_none_right_eq_some.mp h
  obtain rfl := Option.some.inj h
  simp only [Reached, hstage] at hc
  exact ⟨⟨hc.1, hc.2, response, w.keys, [], rfl, rfl⟩, hc.1⟩

/-- A verification leaves the sessions as they are. -/
theorem goOn_sessions {challenge : String} {v v' : Verifier} {call call' : Call}
    {record : Except Thrown String} (h : rt.goOn challenge v record call = some (v', call')) :
    v'.sessions = v.sessions := by
  cases call with
  | made response =>
    replace h : rt.onResponse v response = (v', call') := Option.some.inj h
    unfold Runtime.onResponse at h
    split at h
    · cases h
      rfl
    · split at h <;> cases h <;> rfl
  | checking sessionId json active =>
    replace h : rt.onActive v sessionId json active = (v', call') := Option.some.inj h
    unfold Runtime.onActive at h
    split at h
    · cases h
      rfl
    · split at h <;> cases h <;> rfl
  | keying sessionId iv e key =>
    replace h : rt.onAesKey challenge v sessionId iv e key = (v', call') := Option.some.inj h
    unfold Runtime.onAesKey at h
    split at h
    · cases h
      rfl
    · split at h <;> cases h <;> rfl
  | looking sessionId claim =>
    replace h : rt.onRecord v claim record = (v', call') := Option.some.inj h
    unfold Runtime.onRecord at h
    split at h <;> cases h <;> rfl
  | finished result => cases h

theorem resume_reached {record : Except Thrown String} (h : resume rt w c record = some c') :
    Reached rt w c → Reached rt w c' ∧ c'.joined = none := by
  intro hc
  obtain ⟨hstage, h⟩ := Option.ite_none_right_eq_some.mp h
  obtain ⟨rav, hstep, rfl⟩ := Option.map_eq_some_iff.mp h
  simp only [Reached, hstage] at hc ⊢
  refine ⟨⟨hc.1, hc.2.1, hc.2.2.event _ hstep ⟨rfl, rfl⟩ ?_⟩, hc.1⟩
  obtain ⟨call, -, hmap⟩ := Option.bind_eq_some_iff.mp hstep
  obtain ⟨⟨v, call'⟩, hgo, rfl⟩ := Option.map_eq_some_iff.mp hmap
  have hsame : v.sessions = w.keys := goOn_sessions hgo
  rw [← hsame]

theorem flushed_reached (h : flushed c = some c') :
    Reached rt w c → Reached rt w c' ∧ c'.joined = none := by
  intro hc
  obtain ⟨⟨hstage, hverified⟩, h⟩ := Option.ite_none_right_eq_some.mp h
  obtain rfl := Option.some.inj h
  simp only [Reached, hstage] at hc
  exact ⟨⟨hc.1, hc.2.1, hc.2.2, hverified⟩, hc.1⟩

theorem reached_destroy (h : c.joined = none) : Reached rt w c.destroy ∧ c.destroy.joined = none := by
  refine ⟨?_, h⟩
  change c.joined.isSome = !true
  rw [h]
  rfl

theorem fail_reached (h : fail c = some c') :
    Reached rt w c → Reached rt w c' ∧ c'.joined = none := by
  intro hc
  obtain ⟨hstage, h⟩ := Option.ite_none_right_eq_some.mp h
  obtain rfl := Option.some.inj h
  refine reached_destroy ?_
  rcases hstage with hstage | hstage
  · simp only [Reached, hstage] at hc
    exact hc.1
  · simp only [Reached, hstage] at hc
    exact hc.1

/-- What a verified socket's verifier says, its response proves. -/
theorem Follows.proves (h : Follows rt w c) (hverified : c.verified = true) {sessionId atSign : String}
    {isSideA : Bool} (hid : c.rav.sessionId = some sessionId) (hside : c.rav.isSideA = some isSideA)
    (hat : c.rav.atSign = some atSign) :
    ∃ response, c.response = some response ∧
      Proves rt c.challenge response sessionId isSideA atSign := by
  obtain ⟨response, sessions, es, hresponse, hrun⟩ := h
  have hcall : c.rav.calls[0]? = some (.finished (.ok true)) := by
    unfold Connection.verified at hverified
    split at hverified
    · rename_i hcalls
      rw [hcalls]
      rfl
    · cases hverified
  obtain ⟨helper, response', fields, hget, hverify, hid', hside', hat', -⟩ :=
    Runtime.verifyWith_of_run hrun hcall
  obtain rfl := Option.some.inj hget
  obtain ⟨claim, envelopeJson, apsk, -, hvouches, -, hsigned, hfields⟩ := Runtime.verifyWith_ok hverify
  obtain rfl := Option.some.inj (hid.symm.trans hid')
  obtain rfl := Option.some.inj (hside.symm.trans hside')
  obtain rfl := Option.some.inj (hat.symm.trans hat')
  refine ⟨_, hresponse, helper, claim, envelopeJson, apsk, ?_, hvouches, hsigned, ?_, ?_⟩
  · rw [hverify, hfields]
  · rw [hfields]
  · rw [hfields]

theorem admitted_eq_some {sessionId atSign : String} {active isSideA : Bool} {si : WorkerSession}
    {key : String} (h : admitted rt w c sessionId atSign active = some (si, isSideA, key)) :
    w.sessions.lookup sessionId = some si ∧ c.rav.isSideA = some isSideA ∧
      rt.toAtsign (if isSideA then si.params.atSignA else si.params.atSignB) = some atSign := by
  simp only [admitted, Option.bind_eq_bind, Option.bind_eq_some_iff, Option.guard_eq_some'] at h
  obtain ⟨-, -, si', hsi, side, hside, expected, hexpected, -, rfl, key', -, h⟩ := h
  injection h with h
  injection h with hsi' h
  injection h with hside' hkey
  subst hsi' hside'
  exact ⟨hsi, hside, hexpected⟩

theorem handle_reached {messages : List ToMain} (h : handle rt takes w c = some (c', messages)) :
    Reached rt w c → Reached rt w c' ∧ ∀ j, c'.joined = some j → Admits rt takes w c' j := by
  intro hc
  have hout (hjoined : c.joined = none) (hc' : c.destroy = c') :
      Reached rt w c' ∧ ∀ j, c'.joined = some j → Admits rt takes w c' j := by
    obtain ⟨hr, hn⟩ := @reached_destroy rt w c hjoined
    subst hc'
    refine ⟨hr, fun j hj => ?_⟩
    rw [hn] at hj
    cases hj
  unfold handle at h
  split at h
  · rename_i hstage
    simp only [Reached, hstage] at hc
    split at h
    · rename_i sessionId atSign isSideA hid hat hside
      injection h with h
      injection h with h
      subst h
      refine ⟨⟨hc.1, hc.2.1, hc.2.2.1, hc.2.2.2, hid, hat⟩, fun j hj => ?_⟩
      rw [hc.1] at hj
      cases hj
    · injection h with h
      injection h with h
      exact hout hc.1 h
  · rename_i sessionId atSign active hstage
    simp only [Reached, hstage] at hc
    obtain ⟨hjoined, hdestroyed, hfollows, hverified, hid, hat⟩ := hc
    split at h
    · injection h with h
      injection h with h
      exact hout hjoined h
    · rename_i si isSideA key hadmitted
      obtain ⟨hsi, hside, hexpected⟩ := admitted_eq_some hadmitted
      split at h
      · rename_i htakes
        injection h with h
        injection h with h
        subst h
        refine ⟨?_, fun j hj => ?_⟩
        · change true = !c.destroyed
          rw [hdestroyed]
          rfl
        · obtain rfl := Option.some.inj hj
          obtain ⟨response, hresponse, hproves⟩ := hfollows.proves hverified hid hside hat
          exact ⟨response, atSign, hresponse, hproves, si, hsi, rfl, htakes, hexpected⟩
      · injection h with h
        injection h with h
        exact hout hjoined h
  · cases h

/-! ### Runs -/

/-- What one step keeps of the handlers: a socket is joined only when its handler goes on,
and then to a session that expects what it has proved. -/
def Kept (rt : Runtime) (takes : (closed : Bool) → Bool) (w w' : SinglePortWorker)
    (e : WorkerEvent) : Prop :=
  ∀ (i : ℕ) (c : Connection), w'.connections[i]? = some c → Reached rt w' c ∧
    ∀ j, c.joined = some j → w.connections[i]? = some c ∨ e = .handle i ∧ Admits rt takes w c j

theorem Kept.of_same {e : WorkerEvent} (hconnections : w'.connections = w.connections)
    (hfollows : ∀ c, Follows rt w c → Follows rt w' c)
    (hw : ∀ (i : ℕ) (c : Connection), w.connections[i]? = some c → Reached rt w c) :
    Kept rt takes w w' e := by
  intro i c hi
  rw [hconnections] at hi
  exact ⟨(hw i c hi).of_follows (hfollows c), fun _ _ => Or.inl hi⟩

/-- One connection moves, among the same sessions. -/
theorem Kept.of_moved {e : WorkerEvent} {i : ℕ} (hsessions : w'.sessions = w.sessions)
    (hconnections : w'.connections = w.connections.set i c')
    (hw : ∀ (i : ℕ) (c : Connection), w.connections[i]? = some c → Reached rt w c)
    (hmoved : Reached rt w c' ∧ ∀ j, c'.joined = some j → e = .handle i ∧ Admits rt takes w c' j) :
    Kept rt takes w w' e := by
  have hfollows (d : Connection) (hd : Follows rt w d) : Follows rt w' d := by
    unfold Follows keys
    rwa [hsessions]
  intro k d hk
  rw [hconnections] at hk
  rcases getElem?_set_cases hk with ⟨rfl, rfl⟩ | ⟨-, hk⟩
  · exact ⟨hmoved.1.of_follows (hfollows _), fun j hj => Or.inr (hmoved.2 j hj)⟩
  · exact ⟨(hw k d hk).of_follows (hfollows _), fun _ _ => Or.inl hk⟩

theorem step_kept {e : WorkerEvent} (h : step rt takes w e = some w')
    (hw : ∀ (i : ℕ) (c : Connection), w.connections[i]? = some c → Reached rt w c) :
    Kept rt takes w w' e := by
  have hquiet {i : ℕ} {c c' : Connection} (hc : w.connections[i]? = some c)
      (hmove : Reached rt w c → Reached rt w c' ∧ c'.joined = none) :
      Kept rt takes w (w.setConnection i c') e := by
    obtain ⟨hreached, hnone⟩ := hmove (hw i c hc)
    refine .of_moved rfl rfl hw ⟨hreached, fun j hj => ?_⟩
    rw [hnone] at hj
    cases hj
  cases e with
  | startSession params =>
    obtain rfl := Option.some.inj h
    refine .of_same ?_ (fun c => follows_startSession params) hw
    unfold startSession
    split
    · rfl
    · split
      · rfl
      · rfl
  | endSession sessionId =>
    obtain rfl := Option.some.inj h
    exact .of_same rfl (fun c => follows_endSession sessionId) hw
  | connectorDone sessionId =>
    obtain ⟨hsame, hfollows⟩ := connectorDone_spec h
    exact .of_same hsame hfollows hw
  | socketHandler challenge =>
    obtain rfl := Option.some.inj h
    intro i c hi
    rcases getElem?_concat_cases hi with hi | ⟨-, rfl⟩
    · exact ⟨(hw i c hi).of_follows id, fun _ _ => Or.inl hi⟩
    · refine ⟨⟨rfl, rfl⟩, fun j hj => ?_⟩
      cases hj
  | respond i response =>
    obtain ⟨c, hc, h⟩ := Option.bind_eq_some_iff.mp h
    obtain ⟨c', hc', rfl⟩ := Option.map_eq_some_iff.mp h
    exact hquiet hc (respond_reached hc')
  | resume i record =>
    obtain ⟨c, hc, h⟩ := Option.bind_eq_some_iff.mp h
    obtain ⟨c', hc', rfl⟩ := Option.map_eq_some_iff.mp h
    exact hquiet hc (resume_reached hc')
  | flushed i =>
    obtain ⟨c, hc, h⟩ := Option.bind_eq_some_iff.mp h
    obtain ⟨c', hc', rfl⟩ := Option.map_eq_some_iff.mp h
    exact hquiet hc (flushed_reached hc')
  | fail i =>
    obtain ⟨c, hc, h⟩ := Option.bind_eq_some_iff.mp h
    obtain ⟨c', hc', rfl⟩ := Option.map_eq_some_iff.mp h
    exact hquiet hc (fail_reached hc')
  | handle i =>
    obtain ⟨c, hc, h⟩ := Option.bind_eq_some_iff.mp h
    obtain ⟨⟨c', messages⟩, hc', rfl⟩ := Option.map_eq_some_iff.mp h
    obtain ⟨hreached, hadmits⟩ := handle_reached hc' (hw i c hc)
    exact .of_moved rfl rfl hw ⟨hreached, fun j hj => ⟨rfl, hadmits j hj⟩⟩

theorem Reached.over (h : Reached rt w c) :
    (∀ j, c.joined = some j → c.stage = .over ∧ c.destroyed = false) ∧
      (c.stage = .over → c.joined = none → c.destroyed = true) ∧
        (c.destroyed = true → c.stage = .over ∧ c.joined = none) := by
  have hunfinished (hover : c.stage ≠ .over) (hj : c.joined = none) (hd : c.destroyed = false) :
      (∀ j, c.joined = some j → c.stage = .over ∧ c.destroyed = false) ∧
        (c.stage = .over → c.joined = none → c.destroyed = true) ∧
          (c.destroyed = true → c.stage = .over ∧ c.joined = none) := by
    refine ⟨fun j hjoined => ?_, fun h => absurd h hover, fun h => ?_⟩
    · rw [hj] at hjoined
      cases hjoined
    · rw [hd] at h
      cases h
  unfold Reached at h
  split at h
  · rename_i hstage
    exact hunfinished (by simp [hstage]) h.1 h.2
  · rename_i hstage
    exact hunfinished (by simp [hstage]) h.1 h.2.1
  · rename_i hstage
    exact hunfinished (by simp [hstage]) h.1 h.2.1
  · rename_i hstage
    exact hunfinished (by simp [hstage]) h.1 h.2.1
  · rename_i hstage
    refine ⟨fun j hj => ⟨hstage, ?_⟩, fun _ hj => ?_, fun hd => ⟨hstage, ?_⟩⟩
    · simpa [hj] using h
    · simpa [hj] using h
    · simpa [hd] using h

def sampleParams : SrvdSessionParams :=
  ⟨"s", "@alice", "@bob", true, true, .escr, some "new", true, true⟩

end SinglePortWorker
end NoPorts.Srvd
