import NoPorts.CDaemonRequests
import NoPorts.Lib.Machine

/-! The C daemon's main loop. An iteration is one step, with whatever the outside
answers in it: the children reaped, the monitor message, the policy check, the
lookups, the pipe and the fork. A process that forks goes on as the parent or as
the child, so every process of the daemon is a run of its own. -/
namespace NoPorts.CDaemon
open Lib

inductive MonitorMessage where
  | none
  | empty
  | dataResponse
  | errorResponse
  | notification (n : AtNotification)
  | errorRead
  | errorParseNotification
  | errorDecryptNotification
  deriving DecidableEq, Repr

def monitorReadTimeoutMs : ℕ := 5000
def monitorNoopTimeoutMs : ℕ := 40000
def monitorReconnectCounter : ℕ := monitorNoopTimeoutMs / monitorReadTimeoutMs + 1

/-- `sshnpd_next_timeout_counter` -/
def nextTimeoutCounter (readRet : ℤ) (message : MonitorMessage) (counter : ℕ) : ℕ :=
  let next := if readRet ≠ 0 then monitorReconnectCounter else counter
  match message with
  | .empty => next + 1
  | .notification _ | .dataResponse | .errorResponse | .errorDecryptNotification => 0
  | _ => next

/-- The request names of `notification_key_map` the daemon handles. -/
def notificationKeyMap : List (String × NotificationKey) :=
  [("sshpublickey", .sshpublickey), ("ping", .ping), ("ssh_request", .sshRequest),
    ("npt_request", .nptRequest)]

/-- `sshnpd_notification_kind`. The character between `to` and the name is skipped
as one byte, so a longer one leaves no name that is known. -/
def notificationKind (key toAtsign device fromAtsign : Option String) : NotificationKey :=
  match key, toAtsign, device, fromAtsign with
  | some key, some toAtsign, some device, some fromAtsign =>
    match indexOf? ("." ++ device ++ ".sshnp" ++ fromAtsign).toList key.toList with
    | none => .none
    | some tailStart =>
      if tailStart ≤ toAtsign.toList.length ∨ ¬toAtsign.toList.isPrefixOf key.toList then .none
      else
        match (key.toList.take tailStart).drop toAtsign.toList.length with
        | skipped :: name =>
          if skipped.utf8Size = 1 then
            ((notificationKeyMap.find? (·.1.toList == name)).map (·.2)).getD .none
          else .none
        | [] => .none
  | _, _, _, _ => .none

def policyRpcInfix : String := ".auth_checks.__rpcs"

/-- `policy_is_policy_service_message` -/
def isPolicyServiceMessage (n : AtNotification) (params : SshnpdParams) : Bool :=
  match n.key with
  | none => false
  | some key =>
    params.policy.isSome && atsignEquals n.fromAtsign params.policy &&
      ((indexOf? policyRpcInfix.toList key.toList).isSome ||
        (indexOf? ".devices.policy.".toList key.toList).isSome)

/-- What the outside answers in one iteration. -/
structure Outcomes where
  reaped : List (ℤ × ExitStatus)
  now : ℤ
  startKeyCheck : String → ℤ
  reconnect : ℤ
  readRet : ℤ
  message : MonitorMessage
  clock : GateClock
  /-- What `policy_auth_check` decides, `none` when it could not ask. -/
  check : Option PolicyDecision
  /-- A signal has cleared `should_run` before the request is dispatched. -/
  stopped : Bool
  answers : Answers
  pipe : Bool
  fork : ℤ
  waitpid : ℤ

/-- The loop's variables, and the globals it shares with its handlers. -/
structure MainLoop where
  shouldRun : Bool
  isChildProcess : Bool
  /-- `main_loop` has returned, as it does in a child. -/
  returned : Bool
  policyDecision : PolicyDecision
  policyChecked : Bool
  decisions : PolicyCache
  checkedSenders : PolicyThrottle
  timeoutCounter : ℕ
  sessions : ClientSessions

/-- What an iteration does to the world outside. -/
inductive Effect where
  | srv (start : SrvStart)
  | sessionError (e : SessionError)
  | signal (s : Signal)
  | sshpublickey (n : AtNotification)
  | ping (n : AtNotification)
  deriving DecidableEq, Repr

namespace MainLoop
variable (lib : DaemonLibraries) (params : SshnpdParams)

def init : Option MainLoop :=
  (PolicyCache.init params.policyCacheSize).map fun decisions =>
    { shouldRun := true, isChildProcess := false, returned := false, policyDecision := .zero,
      policyChecked := false, decisions := decisions, checkedSenders := .init, timeoutCounter := 0,
      sessions := .init params.clientKeyCheckSecs }

def reapChildren (cs : ClientSessions) (reaped : List (ℤ × ExitStatus)) : ClientSessions :=
  reaped.foldl (fun cs r => (cs.reaped r.1 r.2).1) cs

/-- The sessions once the children are reaped and the key checks due are started, none
when `client_sessions_tick` crashes. -/
def sessionsOf (s : MainLoop) (o : Outcomes) : Option ClientSessions :=
  ((reapChildren s.sessions o.reaped).tick o.now o.startKeyCheck).map (·.1)

/-- The handler's `fork`, and what the process it goes on in does next. -/
def forked (s : MainLoop) (start : SrvStart) (o : Outcomes) : MainLoop × List Effect :=
  if o.fork = 0 then ({ s with isChildProcess := true, returned := true }, [.srv start])
  else if o.fork < 0 then (s, [])
  else if o.waitpid ≠ 0 then (s, [.srv start])
  else
    match start.clientSigningKey with
    | none => (s, [.srv start])
    | some signingKey =>
      ({ s with sessions := (s.sessions.track start.sessionId signingKey o.fork).1 },
        .srv start :: (s.sessions.track start.sessionId signingKey o.fork).2.map .signal)

/-- The policy decision a handler is passed. -/
def policyFor (s : MainLoop) : Option PolicyDecision :=
  if s.policyChecked then some s.policyDecision else none

def handle (s : MainLoop) (kind : RequestKind) (n : AtNotification) (o : Outcomes) :
    MainLoop × List Effect :=
  match lib.handleRequest kind params s.sessions o.answers o.pipe n s.policyFor with
  | .ok start => s.forked start o
  | .error none => (s, [])
  | .error (some e) => (s, [.sessionError e])

/-- The switch over the request kinds, behind the gate. -/
def dispatch (s : MainLoop) (n : AtNotification) (kind : NotificationKey) (o : Outcomes) :
    MainLoop × List Effect :=
  if kind = .none then (s, [])
  else if ¬s.shouldRun then (s, [])
  else
    match kind with
    | .sshpublickey => (s, [.sshpublickey n])
    | .ping => (s, [.ping n])
    | .sshRequest => s.handle lib params sshRequest n o
    | .nptRequest => s.handle lib params nptRequest n o
    | .none => (s, [])

/-- The gate: managers pass, anyone else is referred to the policy service. -/
def gated (s : MainLoop) (n : AtNotification) (kind : NotificationKey) (o : Outcomes) :
    MainLoop × List Effect :=
  if isManagerAtsign params n.fromAtsign then s.dispatch lib params n kind o
  else
    match params.policy, n.fromAtsign with
    | some _, some client =>
      let gate := policyGate s.decisions s.checkedSenders client kind o.clock o.check
        s.policyDecision
      let s := { s with decisions := gate.cache, checkedSenders := gate.throttle,
                        policyDecision := gate.decision }
      match gate.result with
      | .allow => { s with policyChecked := true }.dispatch lib params n kind o
      | _ => (s, [])
    | _, _ => (s, [])

def kindOf (n : AtNotification) : NotificationKey :=
  notificationKind n.key n.toAtsign params.device n.fromAtsign

def onNotification (s : MainLoop) (n : AtNotification) (o : Outcomes) : MainLoop × List Effect :=
  if n.decryptedValue = none then (s, [])
  else if n.key = none ∨ n.id = none ∨ n.id = some "-1" then (s, [])
  else if params.policy.isSome ∧ isPolicyServiceMessage n params then (s, [])
  else { s with policyChecked := false }.gated lib params n (kindOf params n) o

def onMessage (s : MainLoop) (o : Outcomes) : MainLoop × List Effect :=
  match o.message with
  | .notification n => s.onNotification lib params n o
  | _ => (s, [])

/-- An iteration from the reconnect on. When the monitor does not reconnect it is cut
short before the read. -/
def readMonitor (s : MainLoop) (o : Outcomes) : MainLoop × List Effect :=
  if monitorNoopTimeoutMs < s.timeoutCounter * monitorReadTimeoutMs ∧ o.reconnect ≠ 0 then
    ({ s with timeoutCounter := monitorReconnectCounter }, [])
  else
    let counter :=
      if monitorNoopTimeoutMs < s.timeoutCounter * monitorReadTimeoutMs then 0 else s.timeoutCounter
    let done := { s with timeoutCounter := nextTimeoutCounter o.readRet o.message counter }.onMessage
      lib params o
    ({ done.1 with policyDecision := .zero }, done.2)

/-- One iteration of the loop, none when it crashes. -/
def iteration (s : MainLoop) (o : Outcomes) : Option (MainLoop × List Effect) :=
  (s.sessionsOf o).map fun sessions =>
    { s with sessions := sessions, shouldRun := s.shouldRun && !o.stopped }.readMonitor lib params o

inductive Event where
  | iteration (o : Outcomes)
  /-- A signal outside an iteration. -/
  | signal

def step (s : MainLoop) : Event → Option MainLoop
  | .iteration o =>
    if s.shouldRun ∧ ¬s.returned then (s.iteration lib params o).map (·.1) else none
  | .signal => some { s with shouldRun := false }

def machine : Machine MainLoop Event := ⟨step lib params⟩

end MainLoop
end NoPorts.CDaemon
