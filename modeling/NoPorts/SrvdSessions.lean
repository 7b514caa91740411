import NoPorts.Lib.Table
import NoPorts.SinglePortWorker

/-! The relay's sessions: requests for ports, suspended at their awaits, the workers they
start, and the messages the workers send. -/
namespace NoPorts.Srvd
open Lib

/-- What a call of `handleRequestPorts` awaits. -/
inductive RequestStage where
  /-- `sendNack`, of a session that can't be started on port 443. -/
  | refusing
  | payloadKeys
  | spawning
  | sendPort (worker : ℕ)
  | ports (worker : ℕ)
  | mutex (worker : Option ℕ)
  /-- `sendNack`, of a relay that is not bound to port 443. -/
  | nacking
  | notifying
  | preFetching
  | over
  deriving DecidableEq, Repr

structure PortsRequest where
  params : SrvdSessionParams
  stage : RequestStage
  deriving DecidableEq, Repr

/-- Messages of a port-pair worker. -/
inductive FromPair where
  | sendPort
  | ports
  | sessionComplete
  deriving DecidableEq, Repr

inductive ToPair where
  | start
  | stop
  deriving DecidableEq, Repr

inductive PairPhase where
  | spawned
  | listening
  | starting
  | running
  /-- Its connector has closed, and it has said so. -/
  | completed
  | killed
  deriving DecidableEq, Repr

structure PairWorker where
  /-- The request that has spawned it. -/
  request : ℕ
  sessionId : String
  phase : PairPhase
  inbox : List ToPair
  toMain : List FromPair
  deriving DecidableEq, Repr

inductive ToSinglePort where
  | start (params : SrvdSessionParams)
  | endSession (sessionId : String)
  deriving DecidableEq, Repr

structure LiveSession extends SessionInfo where
  eventLoggingConfig : Option String
  deriving DecidableEq, Repr

/-- How the relay has been started; `toAtsign` is none where it throws. -/
structure RelayConfig where
  managerAtsign : String
  bind443 : Bool
  toAtsign : String → Option String
  sameAtsign : String → String → Bool

structure Relay where
  sessions : Table String LiveSession
  startingSessions : List String
  requests : List PortsRequest
  pairs : List PairWorker
  worker443 : SinglePortWorker
  inbox443 : List ToSinglePort
  /-- Completed sessions whose last event is being logged. -/
  completing : List String
  /-- Logging configs whose atSign is being looked up, and the records they are for. -/
  validating : List (ℕ × String)
  /-- The next record's `ref`. -/
  refs : ℕ

inductive RelayEvent where
  | requestPorts (sender : String) (params : SrvdSessionParams)
  | nackSent (request : ℕ)
  | payloadKeys (request : ℕ) (fetched : Bool)
  | spawned (request : ℕ) (started : Bool)
  | timeout (request : ℕ)
  | mutex (request : ℕ) (acquired : Bool)
  | notified (request : ℕ)
  | preFetched (request : ℕ)
  /-- The main isolate takes the next message of a port-pair worker. -/
  | fromPair (worker : ℕ)
  | exited (worker : ℕ)
  /-- The main isolate takes the next message of the single-port worker. -/
  | from443
  | doneLogged (completion : ℕ)
  | logging (sender sessionId config : String)
  | validated (config : ℕ) (valid : Bool)
  /-- A session's signing key has been withdrawn. -/
  | endSession (sessionId : String)
  | pairListens (worker : ℕ)
  | pairTakes (worker : ℕ)
  | pairBinds (worker : ℕ)
  | pairDone (worker : ℕ)
  | pairDies (worker : ℕ)
  | takes443
  | done443 (sessionId : String)

namespace Relay

/-- The request at `i`, awaiting something else. -/
def move (s : Relay) (i : ℕ) (r : PortsRequest) (stage : RequestStage) : Relay :=
  { s with requests := s.requests.set i { r with stage := stage } }

/-- The `finally` of a request. -/
def finish (s : Relay) (i : ℕ) (r : PortsRequest) : Relay :=
  { s.move i r .over with
    startingSessions := s.startingSessions.filter (· ≠ r.params.sessionId) }

def setPair (s : Relay) (w : ℕ) (p : PairWorker) : Relay := { s with pairs := s.pairs.set w p }

/-- `toWorker.send`. -/
def send (s : Relay) (w : ℕ) (message : ToPair) : Relay :=
  match s.pairs[w]? with
  | none => s
  | some p => s.setPair w { p with inbox := p.inbox ++ [message] }

/-! ### handleRequestPorts -/

def denied (cfg : RelayConfig) (sender : String) (params : SrvdSessionParams) : Bool :=
  match cfg.toAtsign sender, cfg.toAtsign params.atSignA with
  | some a, some b =>
    a != b || (cfg.managerAtsign != "open" && !cfg.sameAtsign cfg.managerAtsign params.atSignA)
  | _, _ => true

def handleRequestPorts (s : Relay) (cfg : RelayConfig) (sender : String) (params : SrvdSessionParams) :
    Relay :=
  if denied cfg sender params then s
  else if (s.sessions.get? params.sessionId).isSome || s.startingSessions.contains params.sessionId then s
  else if params.only443 && (whyRefused params).isSome then
    if params.multipleAcksOk then { s with requests := s.requests ++ [⟨params, .refusing⟩] } else s
  else { s with
    startingSessions := s.startingSessions ++ [params.sessionId]
    requests := s.requests ++ [⟨params, .payloadKeys⟩] }

/-- The session is recorded, and the requester is sent its ports. -/
def record (s : Relay) (cfg : RelayConfig) (i : ℕ) (r : PortsRequest) (toWorker : Option ℕ) : Relay :=
  if r.params.only443 && !cfg.bind443 then
    if r.params.multipleAcksOk then s.move i r .nacking else s.finish i r
  else { s.move i r .notifying with
    sessions := s.sessions.set r.params.sessionId ⟨⟨s.refs, r.params, toWorker, [], false⟩, none⟩
    inbox443 := if r.params.only443 then s.inbox443 ++ [.start r.params] else s.inbox443
    refs := s.refs + 1 }

/-- A request that has its ports takes the mutex, unless its client can handle multiple acks. -/
def mutexOrRecord (s : Relay) (cfg : RelayConfig) (i : ℕ) (r : PortsRequest) (toWorker : Option ℕ) : Relay :=
  if r.params.multipleAcksOk then s.record cfg i r toWorker else s.move i r (.mutex toWorker)

def nackSent (s : Relay) (i : ℕ) : Option Relay := do
  let r ← s.requests[i]?
  match r.stage with
  | .refusing => return s.move i r .over
  | .nacking => return s.finish i r
  | _ => none

def payloadKeys (s : Relay) (cfg : RelayConfig) (i : ℕ) (fetched : Bool) : Option Relay := do
  let r ← s.requests[i]?
  guard (r.stage = .payloadKeys)
  return if !fetched then s.finish i r
    else if r.params.only443 then s.mutexOrRecord cfg i r none
    else s.move i r .spawning

def spawned (s : Relay) (i : ℕ) (started : Bool) : Option Relay := do
  let r ← s.requests[i]?
  guard (r.stage = .spawning)
  return if !started then s.finish i r
    else { s.move i r (.sendPort s.pairs.length) with
      pairs := s.pairs ++ [⟨i, r.params.sessionId, .spawned, [], []⟩] }

def timeout (s : Relay) (i : ℕ) : Option Relay := do
  let r ← s.requests[i]?
  match r.stage with
  | .sendPort _ => return s.finish i r
  | .ports _ => return s.finish i r
  | _ => none

/-- `tryAcquireServerMutex` answers, or throws, which comes to no lease. -/
def mutex (s : Relay) (cfg : RelayConfig) (i : ℕ) (acquired : Bool) : Option Relay := do
  let r ← s.requests[i]?
  match r.stage with
  | .mutex toWorker =>
    return if acquired then s.record cfg i r toWorker
      else match toWorker with
        | none => s.finish i r
        | some w => (s.finish i r).send w .stop
  | _ => none

def notified (s : Relay) (i : ℕ) : Option Relay := do
  let r ← s.requests[i]?
  guard (r.stage = .notifying)
  return s.move i r .preFetching

def preFetched (s : Relay) (i : ℕ) : Option Relay := do
  let r ← s.requests[i]?
  guard (r.stage = .preFetching)
  return s.finish i r

/-! ### Messages from the workers -/

/-- `_handleSessionComplete`, up to the await of its event if it logs one. -/
def handleSessionComplete (s : Relay) (sessionId : String) : Relay :=
  match (s.sessions.get? sessionId).bind (·.eventLoggingConfig) with
  | some _ => { s with completing := s.completing ++ [sessionId] }
  | none => { s with sessions := s.sessions.erase sessionId }

/-- The listener of one worker. What a request awaits from it completes there, and the request
goes on before the next message is taken. -/
def fromPair (s : Relay) (cfg : RelayConfig) (w : ℕ) : Option Relay := do
  let p ← s.pairs[w]?
  match p.toMain with
  | [] => none
  | message :: rest =>
    let s := s.setPair w { p with toMain := rest }
    match message with
    | .sessionComplete => return s.handleSessionComplete p.sessionId
    | .sendPort =>
      let r ← s.requests[p.request]?
      return if r.stage = .sendPort w then (s.move p.request r (.ports w)).send w .start else s
    | .ports =>
      let r ← s.requests[p.request]?
      return if r.stage = .ports w then s.mutexOrRecord cfg p.request r (some w) else s

/-- The listener of a worker that has exited is closed, after its last message. -/
def exited (s : Relay) (w : ℕ) : Option Relay := do
  let p ← s.pairs[w]?
  guard ((p.phase = .completed ∨ p.phase = .killed) ∧ p.toMain = [])
  let r ← s.requests[p.request]?
  return if r.stage = .ports w then s.finish p.request r else s

def from443 (s : Relay) : Option Relay :=
  match s.worker443.toMain with
  | [] => none
  | message :: rest =>
    let s := { s with worker443 := { s.worker443 with toMain := rest } }
    match message with
    | .sessionComplete sessionId => some (s.handleSessionComplete sessionId)
    | .startRefused sessionId _ => some { s with sessions := s.sessions.erase sessionId }
    -- changes what a record holds, and no record comes or goes
    | .signingKey _ _ => some s

def doneLogged (s : Relay) (k : ℕ) : Option Relay := do
  let sessionId ← s.completing[k]?
  return { s with
    sessions := s.sessions.erase sessionId
    completing := s.completing.eraseIdx k }

/-! ### Event logging, and sessions that are ended -/

/-- `handleSessionMessages`, to its lookup of the logging atSign. -/
def logging (s : Relay) (cfg : RelayConfig) (sender sessionId config : String) : Option Relay := do
  let si ← s.sessions.get? sessionId
  let daemon ← cfg.toAtsign sender
  guard (cfg.toAtsign si.params.atSignB = some daemon ∧ si.eventLoggingConfig = none)
  return { s with validating := s.validating ++ [(si.ref, config)] }

def validated (s : Relay) (k : ℕ) (valid : Bool) : Option Relay := do
  let (ref, config) ← s.validating[k]?
  let s := { s with validating := s.validating.eraseIdx k }
  return if valid then { s with
      sessions := s.sessions.mapValues fun _ si =>
        if si.ref = ref then { si with eventLoggingConfig := some config } else si }
    else s

/-- `_endSession`. -/
def endSession (s : Relay) (sessionId : String) : Option Relay := do
  let si ← s.sessions.get? sessionId
  guard (si.ending = false)
  let s := { s with
    sessions := s.sessions.modify sessionId fun si => { si with ending := true } }
  match si.toWorker with
  | some w => return s.send w .stop
  | none =>
    if si.params.only443 then return { s with inbox443 := s.inbox443 ++ [.endSession sessionId] }
    else return s

/-! ### The workers -/

def pairListens (s : Relay) (w : ℕ) : Option Relay := do
  let p ← s.pairs[w]?
  guard (p.phase = .spawned)
  return s.setPair w { p with phase := .listening, toMain := p.toMain ++ [.sendPort] }

/-- A worker without a connector is killed by `stop`; else its connector closes, some time. -/
def pairTakes (s : Relay) (w : ℕ) : Option Relay := do
  let p ← s.pairs[w]?
  guard (p.phase = .listening ∨ p.phase = .starting ∨ p.phase = .running)
  match p.inbox with
  | [] => none
  | .start :: rest =>
    return s.setPair w { p with
      phase := if p.phase = .listening then .starting else p.phase
      inbox := rest }
  | .stop :: rest =>
    return s.setPair w { p with
      phase := if p.phase = .running then .running else .killed
      inbox := rest }

def pairBinds (s : Relay) (w : ℕ) : Option Relay := do
  let p ← s.pairs[w]?
  guard (p.phase = .starting)
  return s.setPair w { p with phase := .running, toMain := p.toMain ++ [.ports] }

/-- `run`, once the connector is done. -/
def pairDone (s : Relay) (w : ℕ) : Option Relay := do
  let p ← s.pairs[w]?
  guard (p.phase = .running)
  return s.setPair w { p with phase := .completed, toMain := p.toMain ++ [.sessionComplete] }

def pairDies (s : Relay) (w : ℕ) : Option Relay := do
  let p ← s.pairs[w]?
  guard (p.phase ≠ .completed)
  return s.setPair w { p with phase := .killed }

def takes443 (s : Relay) : Option Relay :=
  match s.inbox443 with
  | [] => none
  | .start params :: rest =>
    some { s with inbox443 := rest, worker443 := s.worker443.startSession params }
  | .endSession sessionId :: rest =>
    some { s with inbox443 := rest, worker443 := s.worker443.endSession sessionId }

def done443 (s : Relay) (sessionId : String) : Option Relay := do
  let worker443 ← s.worker443.connectorDone sessionId
  return { s with worker443 := worker443 }

def step (cfg : RelayConfig) (s : Relay) : RelayEvent → Option Relay
  | .requestPorts sender params => some (s.handleRequestPorts cfg sender params)
  | .nackSent i => s.nackSent i
  | .payloadKeys i fetched => s.payloadKeys cfg i fetched
  | .spawned i started => s.spawned i started
  | .timeout i => s.timeout i
  | .mutex i acquired => s.mutex cfg i acquired
  | .notified i => s.notified i
  | .preFetched i => s.preFetched i
  | .fromPair w => s.fromPair cfg w
  | .exited w => s.exited w
  | .from443 => s.from443
  | .doneLogged k => s.doneLogged k
  | .logging sender sessionId config => s.logging cfg sender sessionId config
  | .validated k valid => s.validated k valid
  | .endSession sessionId => s.endSession sessionId
  | .pairListens w => s.pairListens w
  | .pairTakes w => s.pairTakes w
  | .pairBinds w => s.pairBinds w
  | .pairDone w => s.pairDone w
  | .pairDies w => s.pairDies w
  | .takes443 => s.takes443
  | .done443 sessionId => s.done443 sessionId

def machine (cfg : RelayConfig) : Machine Relay RelayEvent := ⟨step cfg⟩

def start : Relay where
  sessions := Table.empty
  startingSessions := []
  requests := []
  pairs := []
  worker443 := ⟨[], [], [], 0⟩
  inbox443 := []
  completing := []
  validating := []
  refs := 0

end Relay
end NoPorts.Srvd
