import NoPorts.Lib.Machine
import NoPorts.Lib.Utf8
import NoPorts.SshnpdRequests

/-! The two ways to do a reverse ssh, and what they leave behind: the file that holds the client's key, a process, a
socket, an `SSHClient`. -/
namespace NoPorts.ReverseSsh
open Lib SshnpdRequests

/-! ### `reverseSshViaExec` -/

namespace ViaExec

/-- The step that comes next, or how the call ended. -/
inductive Stage where
  | write
  | chmod
  | start
  | exitCode
  | ended (result : Except Thrown (Bool × Option String))
  deriving DecidableEq

inductive Process where
  | none
  | running
  | exited
  deriving DecidableEq

structure State where
  stage : Stage
  /-- What the key file holds, if there is one. -/
  pemFile : Option String
  process : Process
  /-- A listener of ssh's output threw. -/
  uncaught : Bool

inductive Event where
  /-- `writeAsStringSync` -/
  | wrote
  | writeThrew (left : Option String)
  /-- `Process.run('chmod', …)`: the exit code is not looked at. -/
  | chmodRan
  | chmodThrew
  /-- `Process.start` -/
  | started
  | startThrew
  /-- A chunk of ssh's output, on either stream. -/
  | output (chunk : List UInt8)
  /-- Ssh exits; `deleted` is whether the key file can be deleted now. -/
  | exits (exitCode : ℤ) (deleted : Bool)
  /-- The ten seconds are over. -/
  | timesOut (deleted : Bool)

/-- What is written to the key file. -/
def pemText (privateKey : String) : String :=
  if privateKey.toList.getLast? = some '\n' then privateKey else privateKey ++ "\n"

def timedOut : ℤ := 6464

def errorMessage (sshExitCode : ℤ) : Option String :=
  if sshExitCode = 0 then none
  else if sshExitCode = timedOut then some "Failed to establish connection - timed out"
  else some ("Failed to establish connection - exit code " ++ toString sshExitCode)

namespace State
variable (s : State)

def cleanupPemFile (deleted : Bool) : State := if deleted then { s with pemFile := none } else s

/-- From `sshExitCode` on. -/
def finish (sshExitCode : ℤ) (deleted : Bool) : State :=
  { s.cleanupPemFile deleted with stage := .ended (.ok (decide (sshExitCode = 0), errorMessage sshExitCode)) }

@[simp] theorem finish_process (sshExitCode : ℤ) (deleted : Bool) :
    (s.finish sshExitCode deleted).process = s.process := by
  cases deleted with
  | true => rfl
  | false => rfl

@[simp] theorem finish_uncaught (sshExitCode : ℤ) (deleted : Bool) :
    (s.finish sshExitCode deleted).uncaught = s.uncaught := by
  cases deleted with
  | true => rfl
  | false => rfl

def threw (what : String) : State := { s with stage := .ended (.error (.other what)) }

/-- `utf8.decode(l)` in the listeners. -/
def decode (chunk : List UInt8) : State :=
  match Utf8.decodeText chunk with
  | some _ => s
  | none => { s with uncaught := true }

end State

/-- The time-out is only that of `exitCode`, so that ssh may exit after it too. -/
def step (privateKey : String) (s : State) : Event → Option State
  | .wrote => if s.stage = .write then some { s with pemFile := some (pemText privateKey), stage := .chmod } else none
  | .writeThrew left => if s.stage = .write then some ({ s with pemFile := left }.threw "write") else none
  | .chmodRan => if s.stage = .chmod then some { s with stage := .start } else none
  | .chmodThrew => if s.stage = .chmod then some (s.threw "chmod") else none
  | .started => if s.stage = .start then some { s with process := .running, stage := .exitCode } else none
  | .startThrew => if s.stage = .start then some (s.threw "start") else none
  | .output chunk => if s.process = .none then none else some (s.decode chunk)
  | .exits exitCode deleted =>
    if s.process = .running then
      -- an exit after the time-out is waited for by nobody
      if s.stage = .exitCode then some ({ s with process := .exited }.finish exitCode deleted)
      else some { s with process := .exited }
    else none
  | .timesOut deleted => if s.stage = .exitCode then some (s.finish timedOut deleted) else none

def machine (privateKey : String) : Machine State Event := ⟨step privateKey⟩

def initial : State := ⟨.write, none, .none, false⟩

/-- The call reported that the connection was made. -/
def Succeeded (result : Except Thrown (Bool × Option String)) : Prop := ∃ message, result = .ok (true, message)

structure Tidy (s : State) : Prop where
  pemFile : ∀ result, s.stage = .ended result → s.pemFile = none
  process : ∀ result, s.stage = .ended result → Succeeded result ∨ s.process ≠ .running
  output : s.uncaught = false

/-- Nothing throws once the key is written, ssh exits in time, the file can be deleted then, and each chunk is UTF-8
on its own. -/
def Clean (s : State) : Event → Prop
  | .writeThrew left => left = none
  | .chmodThrew => False
  | .startThrew => False
  | .output chunk => (Utf8.decodeText chunk).isSome = true
  | .exits _ deleted => s.stage = .exitCode → deleted = true
  | .timesOut _ => False
  | _ => True

/-- What there is at each stage of a clean run. -/
def Held (s : State) : Prop :=
  match s.stage with
  | .write => s.pemFile = none ∧ s.process = .none
  | .chmod => s.pemFile.isSome = true ∧ s.process = .none
  | .start => s.pemFile.isSome = true ∧ s.process = .none
  | .exitCode => s.pemFile.isSome = true ∧ s.process = .running
  | .ended _ => s.pemFile = none ∧ s.process ≠ .running

structure Inv (s : State) : Prop where
  held : Held s
  output : s.uncaught = false

variable {privateKey : String} {s t : State}

theorem tidy_of_inv (h : Inv s) : Tidy s := by
  have hended (result : Except Thrown (Bool × Option String)) (hresult : s.stage = .ended result) :
      s.pemFile = none ∧ s.process ≠ .running := by
    have hheld := h.held
    rwa [Held, hresult] at hheld
  exact ⟨fun result hresult => (hended result hresult).1, fun result hresult => Or.inr (hended result hresult).2,
    h.output⟩

/-- There is a file when the call comes to its end, so that it has to be deleted. -/
theorem finish_pemFile {exitCode : ℤ} {deleted : Bool} (hpem : s.pemFile.isSome = true) :
    (s.finish exitCode deleted).pemFile = none ↔ deleted = true := by
  cases deleted with
  | true => exact iff_of_true rfl rfl
  | false =>
    refine iff_of_false (fun hgone => ?_) Bool.false_ne_true
    have hnone : s.pemFile = none := hgone
    rw [hnone] at hpem
    cases hpem

/-- No call of a clean run has ended with ssh running. -/
theorem exitCode_of_running (h : Held s) (hrunning : s.process = .running) : s.stage = .exitCode := by
  unfold Held at h
  split at h
  · exact absurd (h.2.symm.trans hrunning) (by decide)
  · exact absurd (h.2.symm.trans hrunning) (by decide)
  · exact absurd (h.2.symm.trans hrunning) (by decide)
  · rename_i hstage
    exact hstage
  · exact absurd hrunning h.2

theorem inv_exits {exitCode : ℤ} {deleted : Bool} (h : Inv s) (hclean : s.stage = .exitCode → deleted = true)
    (hstep : (machine privateKey).step s (.exits exitCode deleted) = some t) : Inv t := by
  obtain ⟨hrunning, hstep⟩ := Option.ite_none_right_eq_some.mp hstep
  have hstage := exitCode_of_running h.held hrunning
  have hheld := h.held
  rw [Held, hstage] at hheld
  rw [if_pos hstage] at hstep
  rw [← Option.some.inj hstep]
  have hpem : ({ s with process := .exited } : State).pemFile.isSome = true := hheld.1
  refine ⟨⟨(finish_pemFile hpem).mpr (hclean hstage), ?_⟩, ?_⟩
  · rw [State.finish_process]
    intro hprocess
    cases hprocess
  · rw [State.finish_uncaught]
    exact h.output

theorem inv_step {e : Event} (h : Inv s) (hclean : Clean s e) (hstep : (machine privateKey).step s e = some t) :
    Inv t := by
  have hheld := h.held
  cases e with
  | wrote =>
    obtain ⟨hstage, rfl⟩ := of_guarded hstep
    rw [Held, hstage] at hheld
    exact ⟨⟨rfl, hheld.2⟩, h.output⟩
  | writeThrew left =>
    obtain ⟨hstage, rfl⟩ := of_guarded hstep
    rw [Held, hstage] at hheld
    refine ⟨⟨hclean, ?_⟩, h.output⟩
    intro hrunning
    exact absurd (hheld.2.symm.trans hrunning) (by decide)
  | chmodRan =>
    obtain ⟨hstage, rfl⟩ := of_guarded hstep
    rw [Held, hstage] at hheld
    exact ⟨hheld, h.output⟩
  | chmodThrew => exact hclean.elim
  | started =>
    obtain ⟨hstage, rfl⟩ := of_guarded hstep
    rw [Held, hstage] at hheld
    exact ⟨⟨hheld.1, rfl⟩, h.output⟩
  | startThrew => exact hclean.elim
  | output chunk =>
    obtain ⟨-, hstep⟩ := Option.ite_none_left_eq_some.mp hstep
    obtain ⟨text, htext⟩ := Option.isSome_iff_exists.mp hclean
    rw [← Option.some.inj hstep, State.decode, htext]
    exact h
  | exits exitCode deleted => exact inv_exits h hclean hstep
  | timesOut deleted => exact hclean.elim

/-- A throw with the file there leaves it. -/
theorem not_tidy_threw {what : String} (hpem : s.pemFile.isSome = true) : ¬Tidy (s.threw what) := by
  intro htidy
  have hnone : s.pemFile = none := htidy.pemFile _ rfl
  rw [hnone] at hpem
  cases hpem

/-- Where a step isn't clean, what it leaves is not tidy. -/
theorem clean_of_tidy {e : Event} (h : Inv s) (hstep : (machine privateKey).step s e = some t) (htidy : Tidy t) :
    Clean s e := by
  have hheld := h.held
  cases e with
  | wrote => trivial
  | writeThrew left =>
    obtain ⟨-, rfl⟩ := of_guarded hstep
    exact htidy.pemFile _ rfl
  | chmodRan => trivial
  | chmodThrew =>
    obtain ⟨hstage, rfl⟩ := of_guarded hstep
    rw [Held, hstage] at hheld
    exact not_tidy_threw hheld.1 htidy
  | started => trivial
  | startThrew =>
    obtain ⟨hstage, rfl⟩ := of_guarded hstep
    rw [Held, hstage] at hheld
    exact not_tidy_threw hheld.1 htidy
  | output chunk =>
    obtain ⟨-, hstep⟩ := Option.ite_none_left_eq_some.mp hstep
    have houtput := htidy.output
    rw [← Option.some.inj hstep, State.decode] at houtput
    cases htext : Utf8.decodeText chunk with
    | none =>
      rw [htext] at houtput
      cases houtput
    | some text => rw [Clean, htext, Option.isSome_some]
  | exits exitCode deleted =>
    intro hstage
    obtain ⟨-, hstep⟩ := Option.ite_none_right_eq_some.mp hstep
    rw [if_pos hstage] at hstep
    rw [Held, hstage] at hheld
    rw [← Option.some.inj hstep] at htidy
    have hpem : ({ s with process := .exited } : State).pemFile.isSome = true := hheld.1
    exact (finish_pemFile hpem).mp (htidy.pemFile _ rfl)
  | timesOut deleted =>
    obtain ⟨hstage, rfl⟩ := of_guarded hstep
    rw [Held, hstage] at hheld
    -- a call that is over for the time-out reports failure, with ssh running
    have hrunning : (s.finish timedOut deleted).process = .running := by rw [State.finish_process, hheld.2]
    rcases htidy.process _ rfl with ⟨message, hsucceeded⟩ | hnot
    · exact absurd hsucceeded (by simp [timedOut])
    · exact absurd hrunning hnot

theorem inv_initial : Inv initial := ⟨⟨rfl, rfl⟩, rfl⟩

/-- A run is clean just when every state it reaches is tidy. -/
theorem meets_iff_tidy {es : List Event} (hrun : (machine privateKey).run initial es = some s) :
    (machine privateKey).Meets Clean initial es ↔
      ∀ pre u, pre <+: es → (machine privateKey).run initial pre = some u → Tidy u :=
  Machine.meets_iff_reached _ (fun _ _ _ => inv_step) (fun _ => tidy_of_inv) (fun _ _ _ => clean_of_tidy)
    inv_initial hrun

end ViaExec

/-! ### `reverseSshViaSSHClient` -/

namespace ViaSSHClient

/-- The step that comes next, or what the call returned: it doesn't throw. -/
inductive Stage where
  | connect
  | create
  | authenticated
  | forwardRemote
  | ended (success : Bool) (errorMessage : Option String)
  deriving DecidableEq

/-- A socket, or an `SSHClient`. -/
inductive Handle where
  | none
  | opened
  | closed
  deriving DecidableEq

/-- The loop over the forwarded connections. -/
inductive Loop where
  | awaitsConnection
  /-- It is at `Socket.connect` to the local port. -/
  | connects
  | isOver
  deriving DecidableEq

/-- A tick of the timer: how many forwarded connections were open, and whether the client was closed before it and
after. -/
structure Tick where
  opened : ℕ
  closedBefore : Bool
  closedAfter : Bool
  deriving DecidableEq

structure State where
  stage : Stage
  socket : Handle
  client : Handle
  counter : ℤ
  shouldStop : Bool
  /-- The timer is active. -/
  timer : Bool
  /-- A tick has closed the client. -/
  closing : Bool
  loop : Loop
  /-- The forwarded connections that the loop has not come to. -/
  waiting : ℕ
  /-- Those whose stream is being piped to the local port. -/
  piped : ℕ
  /-- How many have failed to reach it. -/
  failed : ℕ
  ticks : List Tick

/-- Of the steps of the call: `none` when there is no error. -/
inductive Event where
  | connected (error : Option String)
  | created (error : Option String)
  | authenticated (error : Option String)
  /-- `forwardRemote` gives a forward, or none, or throws. -/
  | forwarded (outcome : Except String Bool)
  /-- The client closes itself: its peer went away, or it gave up. -/
  | clientCloses
  | connection
  | reached (error : Option String)
  /-- A forwarded connection's stream has ended. -/
  | connectionEnds
  | tick
  /-- `client.done`, after a tick closed it. -/
  | clientDone

variable (host username : String) (port remoteForwardPort : ℤ)

namespace State
variable (s : State)

/-- `client.close()`, which closes its socket. -/
def close : State := if s.client = .opened then { s with client := .closed, socket := .closed } else s

def fail (errorMessage : String) : State := { s with stage := .ended false (some errorMessage) }

def authority : String := username ++ "@" ++ host ++ ":" ++ toString port

def connected (error : Option String) : State :=
  match error with
  | none => { s with socket := .opened, stage := .create }
  | some e => s.fail ("Failed to open socket to " ++ host ++ ":" ++ toString port ++ " : " ++ e)

def created (error : Option String) : State :=
  match error with
  | none => { s with client := .opened, stage := .authenticated }
  | some e => s.fail ("Failed to create SSHClient for " ++ authority host username port ++ " : " ++ e)

def hasAuthenticated (error : Option String) : State :=
  match error with
  | none => { s with stage := .forwardRemote }
  | some e => s.fail ("Failed to authenticate as " ++ authority host username port ++ " : " ++ e)

def forwarded (outcome : Except String Bool) : State :=
  match outcome with
  | .ok true => { s with stage := .ended true none, timer := true, loop := .awaitsConnection }
  | .ok false => s.fail ("Failed to forward remote port " ++ toString remoteForwardPort)
  | .error e => s.fail ("Failed to request forwardRemote : " ++ e)

/-- The loop takes a connection, and goes to the local port with it. -/
def take : State := { s with counter := s.counter + 1, loop := .connects }

def connection : State :=
  match s.loop with
  | .awaitsConnection => s.take
  | .connects => { s with waiting := s.waiting + 1 }
  | .isOver => s

/-- The loop's next round. -/
def next : State :=
  if s.shouldStop then { s with loop := .isOver }
  else if s.waiting = 0 then { s with loop := .awaitsConnection }
  else { s with waiting := s.waiting - 1 }.take

/-- What `Socket.connect` throws ends the loop, and is caught only there. -/
def reached (error : Option String) : State :=
  match error with
  | none => { s with piped := s.piped + 1 }.next
  | some _ => { s with loop := .isOver, failed := s.failed + 1 }

/-- The forwarded connections that are open: those on their way to the local port, and those that are piped. -/
def openConnections : ℕ := (if s.loop = .connects then 1 else 0) + s.piped

def isClosed : Bool := s.client == .closed

/-- The timer's callback. -/
def ticked : State :=
  -- what is counted, which need not be what is open
  let after := if s.counter = 0 then { s.close with closing := true } else s
  { after with ticks := s.ticks ++ [⟨s.openConnections, s.isClosed, after.isClosed⟩] }

end State

def step (s : State) : Event → Option State
  | .connected error => if s.stage = .connect then some (s.connected host port error) else none
  | .created error => if s.stage = .create then some (s.created host username port error) else none
  | .authenticated error =>
    if s.stage = .authenticated then some (s.hasAuthenticated host username port error) else none
  | .forwarded outcome => if s.stage = .forwardRemote then some (s.forwarded remoteForwardPort outcome) else none
  | .clientCloses => if s.client = .opened then some s.close else none
  | .connection => if s.stage = .ended true none then some s.connection else none
  | .reached error => if s.loop = .connects then some (s.reached error) else none
  | .connectionEnds => if 0 < s.piped then some { s with piped := s.piped - 1, counter := s.counter - 1 } else none
  | .tick => if s.timer = true then some s.ticked else none
  | .clientDone => if s.closing = true then some { s with shouldStop := true, timer := false } else none

def machine : Machine State Event := ⟨step host username port remoteForwardPort⟩

def initial : State := ⟨.connect, .none, .none, 0, false, false, false, .isOver, 0, 0, 0, []⟩

structure Tidy (s : State) : Prop where
  failure : ∀ message, s.stage = .ended false message → s.socket ≠ .opened ∧ s.client ≠ .opened
  closes : ∀ tick ∈ s.ticks, tick.opened = 0 → tick.closedAfter = true
  /-- No tick closes a client that has a connection open. -/
  waits : ∀ tick ∈ s.ticks, tick.opened ≠ 0 → tick.closedAfter = tick.closedBefore

/-- A client is made; whatever fails after it, the client has closed itself; and a tick that finds no connection open
finds either that none has failed to reach the local port, or the client closed. -/
def Clean (s : State) : Event → Prop
  -- with the socket open and no client there is nothing that could close it
  | .created error => error = none
  | .authenticated error => error = none ∨ s.client ≠ .opened
  | .forwarded outcome => outcome = .ok true ∨ s.client ≠ .opened
  | .tick => s.openConnections = 0 → s.failed = 0 ∨ s.isClosed = true
  | _ => True

/-- What there is at each stage of a clean run. -/
def Held (s : State) : Prop :=
  match s.stage with
  | .connect => s.socket = .none ∧ s.client = .none ∧ s.loop = .isOver
  | .create => s.socket = .opened ∧ s.client = .none ∧ s.loop = .isOver
  | .authenticated => s.client ≠ .none ∧ (s.client ≠ .opened → s.socket ≠ .opened) ∧ s.loop = .isOver
  | .forwardRemote => s.client ≠ .none ∧ (s.client ≠ .opened → s.socket ≠ .opened) ∧ s.loop = .isOver
  | .ended true _ => s.client ≠ .none
  | .ended false _ => s.socket ≠ .opened ∧ s.client ≠ .opened

structure Inv (s : State) : Prop where
  held : Held s
  /-- A connection that failed is counted for ever. -/
  counted : s.counter = s.openConnections + s.failed
  session : s.timer = true → s.client ≠ .none
  tidy : Tidy s

variable {host username : String} {port remoteForwardPort : ℤ} {s t : State}

theorem inv_initial : Inv initial := by
  refine ⟨⟨rfl, rfl, rfl⟩, rfl, fun htimer => Bool.noConfusion htimer, ?_, ?_, ?_⟩
  · intro message hended
    cases hended
  · intro tick htick
    cases htick
  · intro tick htick
    cases htick

theorem close_client (h : s.client ≠ .none) : s.close.client = .closed := by
  unfold State.close
  cases hclient : s.client with
  | none => exact absurd hclient h
  | opened => rw [if_pos rfl]
  | closed => rw [if_neg (by decide), hclient]

/-- What is not open can be left. -/
theorem inv_fail {errorMessage : String} (h : Inv s) (hsocket : s.socket ≠ .opened) (hclient : s.client ≠ .opened) :
    Inv (s.fail errorMessage) :=
  ⟨⟨hsocket, hclient⟩, h.counted, h.session, fun _ _ => ⟨hsocket, hclient⟩, h.tidy.closes, h.tidy.waits⟩

/-- The call goes on to a stage other than failure. -/
theorem tidy_of_not_failed (h : Tidy s) (hticks : t.ticks = s.ticks)
    (hstage : ∀ message, t.stage ≠ .ended false message) : Tidy t := by
  refine ⟨fun message hended => absurd hended (hstage message), ?_, ?_⟩
  · rw [hticks]
    exact h.closes
  · rw [hticks]
    exact h.waits

theorem inv_connected {error : Option String} (h : Inv s) (hstage : s.stage = .connect) :
    Inv (s.connected host port error) := by
  have hheld := h.held
  rw [Held, hstage] at hheld
  obtain ⟨hsocket, hclient, hloop⟩ := hheld
  cases error with
  | none =>
    refine ⟨⟨rfl, hclient, hloop⟩, h.counted, h.session, tidy_of_not_failed h.tidy rfl ?_⟩
    intro message hended
    cases hended
  | some e =>
    apply inv_fail h
    · rw [hsocket]
      decide
    · rw [hclient]
      decide

theorem inv_created (h : Inv s) (hstage : s.stage = .create) : Inv (s.created host username port none) := by
  have hheld := h.held
  rw [Held, hstage] at hheld
  have hopened : (Handle.opened : Handle) ≠ .none := by decide
  refine ⟨⟨hopened, fun hnot => absurd rfl hnot, hheld.2.2⟩, h.counted, fun _ => hopened,
    tidy_of_not_failed h.tidy rfl ?_⟩
  intro message hended
  cases hended

theorem inv_authenticated {error : Option String} (h : Inv s) (hstage : s.stage = .authenticated)
    (hclean : error = none ∨ s.client ≠ .opened) : Inv (s.hasAuthenticated host username port error) := by
  have hheld := h.held
  rw [Held, hstage] at hheld
  cases error with
  | none =>
    refine ⟨hheld, h.counted, h.session, tidy_of_not_failed h.tidy rfl ?_⟩
    intro message hended
    cases hended
  | some e =>
    have hclosed : s.client ≠ .opened := hclean.resolve_left (by simp)
    exact inv_fail h (hheld.2.1 hclosed) hclosed

theorem inv_forwarded {outcome : Except String Bool} (h : Inv s) (hstage : s.stage = .forwardRemote)
    (hclean : outcome = .ok true ∨ s.client ≠ .opened) : Inv (s.forwarded remoteForwardPort outcome) := by
  have hheld := h.held
  rw [Held, hstage] at hheld
  cases outcome with
  | error e =>
    have hclosed : s.client ≠ .opened := hclean.resolve_left (by simp)
    exact inv_fail h (hheld.2.1 hclosed) hclosed
  | ok given =>
    cases given with
    | false =>
      have hclosed : s.client ≠ .opened := hclean.resolve_left (by simp)
      exact inv_fail h (hheld.2.1 hclosed) hclosed
    | true =>
      refine ⟨hheld.1, ?_, fun _ => hheld.1, tidy_of_not_failed h.tidy rfl ?_⟩
      · -- the loop begins with no connection on its way
        have hcounted := h.counted
        rw [State.openConnections, hheld.2.2] at hcounted
        exact hcounted
      · intro message hended
        cases hended

/-- A step that leaves the call, its socket and its client as they are. -/
theorem held_of_eq (h : Held s) (hstage : t.stage = s.stage) (hsocket : t.socket = s.socket)
    (hclient : t.client = s.client) (hloop : s.loop = .isOver → t.loop = .isOver) : Held t := by
  unfold Held at h ⊢
  rw [hstage, hsocket, hclient]
  split at h
  · exact ⟨h.1, h.2.1, hloop h.2.2⟩
  · exact ⟨h.1, h.2.1, hloop h.2.2⟩
  · exact ⟨h.1, h.2.1, hloop h.2.2⟩
  · exact ⟨h.1, h.2.1, hloop h.2.2⟩
  · exact h
  · exact h

theorem tidy_of_eq (h : Tidy s) (hstage : t.stage = s.stage) (hsocket : t.socket = s.socket)
    (hclient : t.client = s.client) (hticks : t.ticks = s.ticks) : Tidy t := by
  constructor
  · rw [hstage, hsocket, hclient]
    exact h.failure
  · rw [hticks]
    exact h.closes
  · rw [hticks]
    exact h.waits

theorem held_close (h : Held s) : Held s.close := by
  unfold State.close
  split
  · rename_i hopened
    have hclosed : (Handle.closed : Handle) ≠ .opened := by decide
    have hsome : (Handle.closed : Handle) ≠ .none := by decide
    unfold Held at h ⊢
    dsimp only
    split at h
    · exact absurd (hopened.symm.trans h.2.1) (by decide)
    · exact absurd (hopened.symm.trans h.2.1) (by decide)
    · exact ⟨hsome, fun _ => hclosed, h.2.2⟩
    · exact ⟨hsome, fun _ => hclosed, h.2.2⟩
    · exact hsome
    · exact ⟨hclosed, hclosed⟩
  · exact h

theorem inv_close (h : Inv s) : Inv s.close := by
  have hheld := held_close h.held
  by_cases hopened : s.client = .opened
  · have hclose : s.close = { s with client := .closed, socket := .closed } := if_pos hopened
    rw [hclose] at hheld ⊢
    have hclosed : (Handle.closed : Handle) ≠ .opened := by decide
    have hsome : (Handle.closed : Handle) ≠ .none := by decide
    exact ⟨hheld, h.counted, fun _ => hsome, fun _ _ => ⟨hclosed, hclosed⟩, h.tidy.closes, h.tidy.waits⟩
  · have hclose : s.close = s := if_neg hopened
    rwa [hclose]

theorem inv_take (h : Inv s) (hloop : s.loop = .awaitsConnection) : Inv s.take := by
  refine ⟨held_of_eq h.held rfl rfl rfl ?_, ?_, h.session, tidy_of_eq h.tidy rfl rfl rfl rfl⟩
  · intro hover
    rw [hloop] at hover
    cases hover
  · have hcounted := h.counted
    simp only [State.openConnections, State.take, hloop, reduceCtorEq, if_false, if_true] at hcounted ⊢
    omega

theorem inv_connection (h : Inv s) : Inv s.connection := by
  unfold State.connection
  split
  · rename_i hloop
    exact inv_take h hloop
  · exact ⟨held_of_eq h.held rfl rfl rfl id, h.counted, h.session, tidy_of_eq h.tidy rfl rfl rfl rfl⟩
  · exact h

theorem inv_reached {error : Option String} (h : Inv s) (hloop : s.loop = .connects) : Inv (s.reached error) := by
  have hnot (next : Loop) : s.loop = .isOver → next = .isOver := by
    intro hover
    rw [hloop] at hover
    cases hover
  have hcounted := h.counted
  simp only [State.openConnections, hloop, if_true] at hcounted
  cases error with
  | some e =>
    refine ⟨held_of_eq h.held rfl rfl rfl (hnot _), ?_, h.session, tidy_of_eq h.tidy rfl rfl rfl rfl⟩
    simp only [State.reached, State.openConnections, reduceCtorEq, if_false]
    omega
  | none =>
    simp only [State.reached, State.next]
    split
    · refine ⟨held_of_eq h.held rfl rfl rfl (hnot _), ?_, h.session, tidy_of_eq h.tidy rfl rfl rfl rfl⟩
      simp only [State.openConnections, reduceCtorEq, if_false]
      omega
    · split
      · refine ⟨held_of_eq h.held rfl rfl rfl (hnot _), ?_, h.session, tidy_of_eq h.tidy rfl rfl rfl rfl⟩
        simp only [State.openConnections, reduceCtorEq, if_false]
        omega
      · -- it goes on with a connection that was waiting
        refine ⟨held_of_eq h.held rfl rfl rfl (hnot _), ?_, h.session, tidy_of_eq h.tidy rfl rfl rfl rfl⟩
        simp only [State.take, State.openConnections, if_true]
        omega

theorem inv_connectionEnds (h : Inv s) (hpiped : 0 < s.piped) :
    Inv { s with piped := s.piped - 1, counter := s.counter - 1 } := by
  -- the connection is no longer piped, nor counted
  refine ⟨held_of_eq h.held rfl rfl rfl id, ?_, h.session, tidy_of_eq h.tidy rfl rfl rfl rfl⟩
  have hcounted := h.counted
  simp only [State.openConnections] at hcounted ⊢
  omega

theorem inv_logged {tick : Tick} {closing : Bool} (h : Inv s) (hcloses : tick.opened = 0 → tick.closedAfter = true)
    (hwaits : tick.opened ≠ 0 → tick.closedAfter = tick.closedBefore) :
    Inv { s with closing, ticks := s.ticks ++ [tick] } := by
  refine ⟨held_of_eq h.held rfl rfl rfl id, h.counted, h.session, h.tidy.failure, ?_, ?_⟩
  · intro other hother
    rcases List.mem_append.mp hother with hold | hnew
    · exact h.tidy.closes other hold
    · rw [List.mem_singleton.mp hnew]
      exact hcloses
  · intro other hother
    rcases List.mem_append.mp hother with hold | hnew
    · exact h.tidy.waits other hold
    · rw [List.mem_singleton.mp hnew]
      exact hwaits

theorem close_ticks : s.close.ticks = s.ticks := by
  unfold State.close
  split
  · rfl
  · rfl

/-- A tick that finds no connection counted closes the client. -/
theorem ticked_of_zero (hzero : s.counter = 0) : s.ticked = { s.close with
    closing := true, ticks := s.close.ticks ++ [⟨s.openConnections, s.isClosed, s.close.isClosed⟩] } := by
  rw [State.ticked, if_pos hzero, close_ticks]
  rfl

/-- One that finds some does nothing. -/
theorem ticked_of_ne (hne : s.counter ≠ 0) : s.ticked = { s with
    closing := s.closing, ticks := s.ticks ++ [⟨s.openConnections, s.isClosed, s.isClosed⟩] } := by
  rw [State.ticked, if_neg hne]

theorem isClosed_close (h : s.client ≠ .none) : s.close.isClosed = true := by
  rw [State.isClosed, close_client h]
  rfl

theorem inv_ticked (h : Inv s) (htimer : s.timer = true)
    (hclean : s.openConnections = 0 → s.failed = 0 ∨ s.isClosed = true) : Inv s.ticked := by
  have hcounted := h.counted
  by_cases hzero : s.counter = 0
  · rw [ticked_of_zero hzero]
    apply inv_logged (inv_close h)
    · exact fun _ => isClosed_close (h.session htimer)
    · intro hopened
      have hnone : s.openConnections = 0 := by omega
      exact absurd hnone hopened
  · rw [ticked_of_ne hzero]
    apply inv_logged h
    · intro hopened
      rcases hclean hopened with hfailed | hclosed
      · -- then what is counted is what is open: none
        rw [hfailed] at hcounted
        have hnone : s.openConnections = 0 := hopened
        omega
      · exact hclosed
    · exact fun _ => rfl

theorem inv_step {e : Event} (h : Inv s) (hclean : Clean s e)
    (hstep : (machine host username port remoteForwardPort).step s e = some t) : Inv t := by
  cases e with
  | connected error =>
    obtain ⟨hstage, rfl⟩ := of_guarded hstep
    exact inv_connected h hstage
  | created error =>
    obtain ⟨hstage, rfl⟩ := of_guarded hstep
    rw [show error = none from hclean]
    exact inv_created h hstage
  | authenticated error =>
    obtain ⟨hstage, rfl⟩ := of_guarded hstep
    exact inv_authenticated h hstage hclean
  | forwarded outcome =>
    obtain ⟨hstage, rfl⟩ := of_guarded hstep
    exact inv_forwarded h hstage hclean
  | clientCloses =>
    obtain ⟨-, rfl⟩ := of_guarded hstep
    exact inv_close h
  | connection =>
    obtain ⟨-, rfl⟩ := of_guarded hstep
    exact inv_connection h
  | reached error =>
    obtain ⟨hloop, rfl⟩ := of_guarded hstep
    exact inv_reached h hloop
  | connectionEnds =>
    obtain ⟨hpiped, rfl⟩ := of_guarded hstep
    exact inv_connectionEnds h hpiped
  | tick =>
    obtain ⟨htimer, rfl⟩ := of_guarded hstep
    exact inv_ticked h htimer hclean
  | clientDone =>
    obtain ⟨-, rfl⟩ := of_guarded hstep
    refine ⟨held_of_eq h.held rfl rfl rfl id, h.counted, fun htimer => ?_, tidy_of_eq h.tidy rfl rfl rfl rfl⟩
    cases htimer

/-- Where a step isn't clean, what it leaves is not tidy. -/
theorem clean_of_tidy {e : Event} (h : Inv s)
    (hstep : (machine host username port remoteForwardPort).step s e = some t) (htidy : Tidy t) : Clean s e := by
  have hheld := h.held
  cases e with
  | connected error => trivial
  | created error =>
    obtain ⟨hstage, rfl⟩ := of_guarded hstep
    rw [Held, hstage] at hheld
    cases error with
    | none => rfl
    | some e => exact absurd hheld.1 (htidy.failure _ rfl).1
  | authenticated error =>
    obtain ⟨hstage, rfl⟩ := of_guarded hstep
    cases error with
    | none => exact Or.inl rfl
    | some e => exact Or.inr (htidy.failure _ rfl).2
  | forwarded outcome =>
    obtain ⟨hstage, rfl⟩ := of_guarded hstep
    cases outcome with
    | error e => exact Or.inr (htidy.failure _ rfl).2
    | ok given =>
      cases given with
      | true => exact Or.inl rfl
      | false => exact Or.inr (htidy.failure _ rfl).2
  | clientCloses => trivial
  | connection => trivial
  | reached error => trivial
  | connectionEnds => trivial
  | tick =>
    obtain ⟨-, rfl⟩ := of_guarded hstep
    intro hopened
    have hcounted := h.counted
    by_cases hzero : s.counter = 0
    · left
      omega
    · -- a tick that does nothing is in time only for a client that is closed
      right
      rw [ticked_of_ne hzero] at htidy
      exact htidy.closes _ (List.mem_append_right _ (List.mem_singleton_self _)) hopened
  | clientDone => trivial

/-- A run is clean just when every state it reaches is tidy. -/
theorem meets_iff_tidy {es : List Event}
    (hrun : (machine host username port remoteForwardPort).run initial es = some s) :
    (machine host username port remoteForwardPort).Meets Clean initial es ↔
      ∀ pre u, pre <+: es → (machine host username port remoteForwardPort).run initial pre = some u → Tidy u :=
  Machine.meets_iff_reached _ (fun _ _ _ => inv_step) (fun _ hinv => hinv.tidy) (fun _ _ _ => clean_of_tidy)
    inv_initial hrun

end ViaSSHClient

/-! ### Both -/

/-- A reverse ssh leaves nothing behind just in the runs whose steps are all clean. -/
theorem reverse_ssh_leaves_nothing_iff (privateKey host username : String) (port remoteForwardPort : ℤ)
    (execs : List ViaExec.Event) (clients : List ViaSSHClient.Event) :
    (∀ s, (ViaExec.machine privateKey).run ViaExec.initial execs = some s →
      ((ViaExec.machine privateKey).Meets ViaExec.Clean ViaExec.initial execs ↔ ∀ pre u, pre <+: execs →
        (ViaExec.machine privateKey).run ViaExec.initial pre = some u → ViaExec.Tidy u)) ∧
    ∀ s, (ViaSSHClient.machine host username port remoteForwardPort).run ViaSSHClient.initial clients = some s →
      ((ViaSSHClient.machine host username port remoteForwardPort).Meets ViaSSHClient.Clean ViaSSHClient.initial
          clients ↔ ∀ pre u, pre <+: clients →
        (ViaSSHClient.machine host username port remoteForwardPort).run ViaSSHClient.initial pre = some u →
          ViaSSHClient.Tidy u) := by
  constructor
  · intro s hrun
    exact ViaExec.meets_iff_tidy hrun
  · intro s hrun
    exact ViaSSHClient.meets_iff_tidy hrun

/-- Ssh connects and goes to the background. -/
def connects : List ViaExec.Event :=
  [.wrote, .chmodRan, .started, .exits 0 true, .output (Utf8.encode ['o', 'k'])]

/-- A session with one connection, that the timer closes once the connection has ended. -/
def forwards : List ViaSSHClient.Event :=
  [.connected none, .created none, .authenticated none, .forwarded (.ok true), .connection, .reached none, .tick,
    .connectionEnds, .tick, .clientDone]

theorem reverse_ssh_leaves_nothing_sample :
    (∃ t, (ViaExec.machine "KEY").run ViaExec.initial connects = some t ∧ ViaExec.Tidy t) ∧
    ∃ t, (ViaSSHClient.machine "host" "alice" 22 22).run ViaSSHClient.initial forwards = some t ∧
      t.client = .closed ∧ ViaSSHClient.Tidy t := by
  have h := reverse_ssh_leaves_nothing_iff "KEY" "host" "alice" 22 22 connects forwards
  constructor
  · refine ⟨_, rfl, (h.1 _ rfl).mp ?_ connects _ List.prefix_rfl rfl⟩
    refine Machine.meets_cons _ trivial rfl (Machine.meets_cons _ trivial rfl (Machine.meets_cons _ trivial rfl
      (Machine.meets_cons _ (fun _ => rfl) rfl (Machine.meets_cons _ ?_ rfl trivial))))
    rw [ViaExec.Clean, Utf8.decodeText_encode (by decide)]
    rfl
  · refine ⟨_, rfl, rfl, (h.2 _ rfl).mp ?_ forwards _ List.prefix_rfl rfl⟩
    refine Machine.meets_cons _ trivial rfl (Machine.meets_cons _ rfl rfl (Machine.meets_cons _ (Or.inl rfl) rfl
      (Machine.meets_cons _ (Or.inl rfl) rfl (Machine.meets_cons _ trivial rfl (Machine.meets_cons _ trivial rfl
      (Machine.meets_cons _ ?_ rfl (Machine.meets_cons _ trivial rfl (Machine.meets_cons _ ?_ rfl
      (Machine.meets_cons _ trivial rfl trivial)))))))))
    · exact fun _ => Or.inl rfl
    · exact fun _ => Or.inl rfl

/-- What a reverse ssh leaves: the key file, when `chmod` or ssh cannot be run; ssh itself, when it takes too long;
an error of its own, for half a character; the socket, when the private key can't be read; and a session that no
tick closes, once a connection has failed to reach the local port. -/
theorem reverse_ssh_leaves :
    (∃ t, (ViaExec.machine "KEY\n").run ViaExec.initial [.wrote, .chmodThrew] = some t ∧
      t.stage = .ended (.error (.other "chmod")) ∧ t.pemFile.isSome = true ∧ ¬ViaExec.Tidy t) ∧
    (∃ t, (ViaExec.machine "KEY\n").run ViaExec.initial [.wrote, .chmodRan, .started, .timesOut true] = some t ∧
      t.stage = .ended (.ok (false, some "Failed to establish connection - timed out")) ∧ t.process = .running ∧
        ¬ViaExec.Tidy t) ∧
    (∃ t, (ViaExec.machine "KEY\n").run ViaExec.initial [.wrote, .chmodRan, .started, .output [0xC3]] = some t ∧
      t.uncaught = true ∧ ¬ViaExec.Tidy t) ∧
    (∃ t, (ViaSSHClient.machine "host" "alice" 22 22).run ViaSSHClient.initial
        [.connected none, .created (some "not a key")] = some t ∧
      (∃ message, t.stage = .ended false message) ∧ t.socket = .opened ∧ ¬ViaSSHClient.Tidy t) ∧
    (∃ t, (ViaSSHClient.machine "host" "alice" 22 22).run ViaSSHClient.initial
        [.connected none, .created none, .authenticated none, .forwarded (.ok true), .connection,
          .reached (some "Connection refused"), .tick, .tick] = some t ∧
      t.ticks = [⟨0, false, false⟩, ⟨0, false, false⟩] ∧ ¬ViaSSHClient.Tidy t) := by
  have hhalf : Utf8.decodeText [0xC3] = none := by decide
  refine ⟨⟨_, rfl, rfl, rfl, fun h => ?_⟩, ⟨_, rfl, rfl, rfl, fun h => ?_⟩, ⟨_, rfl, ?_, fun h => ?_⟩,
    ⟨_, rfl, ⟨_, rfl⟩, rfl, fun h => ?_⟩, ⟨_, rfl, rfl, fun h => ?_⟩⟩
  · have hgone : some (ViaExec.pemText "KEY\n") = none := h.pemFile _ rfl
    cases hgone
  · rcases h.process _ rfl with ⟨message, hmessage⟩ | hnot
    · have hflag : decide (ViaExec.timedOut = 0) = true := congrArg Prod.fst (Except.ok.inj hmessage)
      exact absurd hflag (by decide)
    · exact hnot rfl
  · rw [ViaExec.State.decode, hhalf]
  · have houtput := h.output
    rw [ViaExec.State.decode, hhalf] at houtput
    cases houtput
  · exact (h.failure _ rfl).1 rfl
  · have hclosed := h.closes ⟨0, false, false⟩ List.mem_cons_self rfl
    cases hclosed

end NoPorts.ReverseSsh
