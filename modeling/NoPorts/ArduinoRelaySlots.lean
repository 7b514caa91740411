import Mathlib.Data.Int.Notation
import Mathlib.Data.Option.Basic
import NoPorts.Lib.Machine

/-! The relay slots of the Arduino daemon: its loop gives each slot to one session after another, and
the FreeRTOS task of each session works on what the slot holds until its clean-up is over. -/
namespace NoPorts.ArduinoSlots
open Lib

/-- The address of a block on the heap. -/
abbrev Ptr := ℕ

/-- `NoPortsRelayState` -/
inductive RelayState where
  | idle
  | connecting
  | authenticating
  | running
  | error
  | stopped
  deriving DecidableEq, Repr

/-- What a relay's task frees of its configuration, in the order in which it does. -/
inductive Owned where
  | rvd_auth_string
  | relay_auth_aes_key
  | escr_signing_key_uri
  | rvd_host
  | local_host
  | session_aes_key
  | session_iv
  | session_aes_key_d2c
  | session_iv_d2c
  deriving DecidableEq, Repr

structure NoPortsRelayConfig where
  rvd_host : Option Ptr
  local_host : Option Ptr
  rv_auth : Bool
  rvd_auth_string : Option Ptr
  escr_auth : Bool
  relay_auth_aes_key : Option Ptr
  escr_signing_key_uri : Option Ptr
  /-- The daemon's own key, which no relay frees. -/
  escr_signing_key : Option Ptr
  rv_e2ee : Bool
  session_aes_key : Option Ptr
  session_iv : Option Ptr
  session_aes_key_d2c : Option Ptr
  session_iv_d2c : Option Ptr
  multi : Bool
  session_id : String
  deriving DecidableEq, Repr

namespace NoPortsRelayConfig

/-- What `memset` makes of a configuration. -/
def zero : NoPortsRelayConfig :=
  ⟨none, none, false, none, false, none, none, none, false, none, none, none, none, false, ""⟩

def get (config : NoPortsRelayConfig) : Owned → Option Ptr
  | .rvd_auth_string => config.rvd_auth_string
  | .relay_auth_aes_key => config.relay_auth_aes_key
  | .escr_signing_key_uri => config.escr_signing_key_uri
  | .rvd_host => config.rvd_host
  | .local_host => config.local_host
  | .session_aes_key => config.session_aes_key
  | .session_iv => config.session_iv
  | .session_aes_key_d2c => config.session_aes_key_d2c
  | .session_iv_d2c => config.session_iv_d2c

def clear (config : NoPortsRelayConfig) : Owned → NoPortsRelayConfig
  | .rvd_auth_string => { config with rvd_auth_string := none }
  | .relay_auth_aes_key => { config with relay_auth_aes_key := none }
  | .escr_signing_key_uri => { config with escr_signing_key_uri := none }
  | .rvd_host => { config with rvd_host := none }
  | .local_host => { config with local_host := none }
  | .session_aes_key => { config with session_aes_key := none }
  | .session_iv => { config with session_iv := none }
  | .session_aes_key_d2c => { config with session_aes_key_d2c := none }
  | .session_iv_d2c => { config with session_iv_d2c := none }

end NoPortsRelayConfig

structure NoPortsRelay where
  config : NoPortsRelayConfig
  state : RelayState
  /-- The task created for the slot, by its number. -/
  task_handle : Option ℕ
  should_run : Bool
  active_sessions : ℕ
  encrypter : Option Ptr
  decrypter : Option Ptr
  deriving DecidableEq, Repr

namespace NoPortsRelay

/-- A slot as the daemon is constructed. -/
def unused : NoPortsRelay := ⟨.zero, .idle, none, false, 0, none, none⟩

/-- `if (p) { free(p); p = NULL; }` for a pointer of the relay, or a counter set to zero. -/
inductive Statement where
  | active_sessions
  | encrypter
  | decrypter
  | owned (field : Owned)
  deriving DecidableEq, Repr

/-- What a statement makes of the relay, and what it frees. -/
def exec (relay : NoPortsRelay) : Statement → NoPortsRelay × List Ptr
  | .active_sessions => ({ relay with active_sessions := 0 }, [])
  | .encrypter => ({ relay with encrypter := none }, relay.encrypter.toList)
  | .decrypter => ({ relay with decrypter := none }, relay.decrypter.toList)
  | .owned field => ({ relay with config := relay.config.clear field }, (relay.config.get field).toList)

def execAll (relay : NoPortsRelay) : List Statement → NoPortsRelay × List Ptr
  | [] => (relay, [])
  | statement :: rest =>
    let done := (relay.exec statement).1.execAll rest
    (done.1, (relay.exec statement).2 ++ done.2)

end NoPortsRelay

/-! ### The calls of the daemon's loop -/

/-- What the allocator and FreeRTOS answer one `noports_relay_start`. -/
structure Answers where
  /-- The four `strdup`s. -/
  rvd_host : Option Ptr
  local_host : Option Ptr
  relay_auth_aes_key : Option Ptr
  escr_signing_key_uri : Option Ptr
  /-- `_alloc_aes_ctr_state` -/
  decrypter : Option Ptr
  /-- `xTaskCreatePinnedToCore` returns `pdPASS`. -/
  created : Bool
  deriving DecidableEq, Repr

/-- The configuration with the strings that the relay has copied. -/
def NoPortsRelayConfig.dup (config : NoPortsRelayConfig) (answers : Answers) : NoPortsRelayConfig :=
  { config with
    rvd_host := config.rvd_host.bind fun _ => answers.rvd_host
    local_host := config.local_host.bind fun _ => answers.local_host
    relay_auth_aes_key := config.relay_auth_aes_key.bind fun _ => answers.relay_auth_aes_key
    escr_signing_key_uri := config.escr_signing_key_uri.bind fun _ => answers.escr_signing_key_uri }

/-- The relay, the result, and what has been freed. -/
structure Started where
  relay : NoPortsRelay
  res : ℤ
  freed : List Ptr

/-- The copies are freed again when the task cannot be created. -/
def undoStart : List NoPortsRelay.Statement :=
  [.encrypter, .decrypter, .owned .rvd_host, .owned .local_host, .owned .relay_auth_aes_key,
    .owned .escr_signing_key_uri]

/-- The slot as a start makes it ready, with the decrypter of the control channel. -/
def NoPortsRelay.reset (relay : NoPortsRelay) (config : NoPortsRelayConfig) (answers : Answers)
    (decrypter : Option Ptr) : NoPortsRelay :=
  { relay with config := config.dup answers, state := .idle, should_run := true, encrypter := none, decrypter }

/-- `noports_relay_start`; the task would be number `task`. -/
def noports_relay_start (relay : NoPortsRelay) (config : NoPortsRelayConfig) (answers : Answers) (task : ℕ) :
    Started :=
  let e2ee := config.rv_e2ee && config.session_aes_key.isSome && config.session_iv.isSome
  if e2ee && answers.decrypter.isNone then ⟨relay.reset config answers none, -1, []⟩
  else
    let relay := relay.reset config answers (if e2ee then answers.decrypter else none)
    if answers.created then ⟨{ relay with task_handle := some task }, 0, []⟩
    else ⟨(relay.execAll undoStart).1, -1, (relay.execAll undoStart).2⟩

/-- What `_continueNptRequest` frees of the configuration it has built, once the start has returned
`res`, and with the request's envelope. -/
def callerFrees (config : NoPortsRelayConfig) (res : ℤ) : List Ptr :=
  let own : List Owned :=
    if res = 0 then [.relay_auth_aes_key, .escr_signing_key_uri]
    else [.session_aes_key, .session_iv, .session_aes_key_d2c, .session_iv_d2c, .relay_auth_aes_key,
      .escr_signing_key_uri, .rvd_auth_string]
  (own ++ [Owned.rvd_host, .local_host]).flatMap fun field => (config.get field).toList

def noports_relay_stop (relay : NoPortsRelay) : NoPortsRelay := { relay with should_run := false }

/-- `noports_relay_is_running`; `gone` is whether `eTaskGetState` calls the task deleted or invalid. -/
def noports_relay_is_running (relay : NoPortsRelay) (gone : Bool) : NoPortsRelay × Bool :=
  if relay.task_handle.isSome && gone then ({ relay with state := .stopped, task_handle := none }, false)
  else (relay, relay.state == .running || relay.state == .connecting || relay.state == .authenticating)

/-- What `_cleanupFinishedRelays` makes of one slot. -/
def cleanupFinished (relay : NoPortsRelay) : NoPortsRelay :=
  if (relay.state = .stopped ∨ relay.state = .error) ∧ relay.task_handle = none then
    { relay with
      state := .idle
      active_sessions := 0
      config := .zero }
  else relay

/-! ### The task of a relay -/

/-- What the task does to its relay before it next comes to a statement that does. -/
inductive Pc where
  /-- Created, and not run yet. -/
  | created
  /-- The task allocates its buffers; `multi` as it read it from the configuration. -/
  | setUp (multi : Bool)
  | allocated (multi : Bool)
  /-- It connects to the rendezvous. -/
  | connecting (multi : Bool)
  | authenticating (multi : Bool)
  | authenticated (multi : Bool)
  /-- It has taken the relay's decrypter for its own. -/
  | taken (multi : Bool)
  | ready (multi : Bool)
  | running (multi : Bool)
  /-- It has these statements of its clean-up left. -/
  | cleanup (left : List NoPortsRelay.Statement)
  /-- It has written `RELAY_STOPPED`. -/
  | stopped
  /-- The inner function has returned. -/
  | returned
  /-- By `vTaskDelete`. -/
  | deleted
  deriving DecidableEq, Repr

/-- How what the task does next turns out. -/
inductive TaskEvent where
  | next
  /-- An allocation, a connection or an authentication fails. -/
  | fails
  /-- One pass of the loop of a running relay. -/
  | pass (active_sessions : ℕ)
  deriving DecidableEq, Repr

/-- The clean-up of `_relay_task_inner_multi`, or of `_relay_task_inner`, as far as the relay's own
pointers go. -/
def cleanup (multi : Bool) : List NoPortsRelay.Statement :=
  (if multi then [.active_sessions] else []) ++
    [.encrypter, .decrypter, .owned .rvd_auth_string, .owned .relay_auth_aes_key,
      .owned .escr_signing_key_uri, .owned .rvd_host, .owned .local_host, .owned .session_aes_key,
      .owned .session_iv, .owned .session_aes_key_d2c, .owned .session_iv_d2c]

structure Stepped where
  relay : NoPortsRelay
  pc : Pc
  freed : List Ptr

/-- Connected: the relay is authenticated as its configuration says. -/
def authenticate (relay : NoPortsRelay) (multi : Bool) : Stepped :=
  if relay.config.escr_auth && relay.config.escr_signing_key.isSome && relay.config.relay_auth_aes_key.isSome then
    ⟨{ relay with state := .authenticating }, .authenticating multi, []⟩
  else if relay.config.rv_auth && relay.config.rvd_auth_string.isSome then
    ⟨{ relay with state := .authenticating }, .authenticated multi, []⟩
  else ⟨relay, .authenticated multi, []⟩

/-- The error exits: `RELAY_ERROR` is written before the clean-up begins. -/
def gotoCleanup (relay : NoPortsRelay) (multi : Bool) : Stepped :=
  ⟨{ relay with state := .error }, .cleanup (cleanup multi), []⟩

def taskStep (relay : NoPortsRelay) : Pc → TaskEvent → Option Stepped
  | .created, .next => some ⟨relay, .setUp relay.config.multi, []⟩
  -- no clean-up, and the handle stays
  | .setUp _, .fails => some ⟨{ relay with state := .error }, .returned, []⟩
  | .setUp multi, .next =>
    some ⟨if multi then { relay with active_sessions := 0 } else relay, .allocated multi, []⟩
  | .allocated multi, .next => some ⟨{ relay with state := .connecting }, .connecting multi, []⟩
  | .connecting multi, .fails => some (gotoCleanup relay multi)
  | .connecting multi, .next => some (authenticate relay multi)
  | .authenticating multi, .fails => some (gotoCleanup relay multi)
  | .authenticating multi, .next => some ⟨relay, .authenticated multi, []⟩
  | .authenticated multi, .next => some ⟨{ relay with decrypter := none }, .taken multi, []⟩
  | .taken multi, .next =>
    some ⟨(relay.exec .encrypter).1, .ready multi, (relay.exec .encrypter).2⟩
  | .ready multi, .next => some ⟨{ relay with state := .running }, .running multi, []⟩
  -- the second connection of a single relay, its wait for `connect:`, and its local connection
  | .authenticated false, .fails => some (gotoCleanup relay false)
  | .taken false, .fails => some (gotoCleanup relay false)
  | .ready false, .fails => some (gotoCleanup relay false)
  | .running multi, .pass active_sessions => do
    guard (relay.should_run = true)
    return ⟨{ relay with active_sessions }, .running multi, []⟩
  | .running multi, .next => some ⟨relay, .cleanup (cleanup multi), []⟩
  | .cleanup (statement :: left), .next => some ⟨(relay.exec statement).1, .cleanup left, (relay.exec statement).2⟩
  | .cleanup [], .next => some ⟨{ relay with state := .stopped }, .stopped, []⟩
  | .stopped, .next => some ⟨{ relay with task_handle := none }, .returned, []⟩
  | .returned, .next => some ⟨relay, .deleted, []⟩
  | _, _ => none

/-! ### The daemon and the tasks together -/

structure Task where
  /-- The slot it was created for. -/
  slot : ℕ
  pc : Pc
  deriving DecidableEq, Repr

/-- Where `_continueNptRequest` is with its slot. -/
inductive Handler where
  | idle
  /-- `_findFreeRelaySlot` is about to ask whether this slot is running. -/
  | probing (slot : ℕ)
  /-- It is not, and its state is about to be looked at. -/
  | comparing (slot : ℕ)
  | found (slot : ℕ)
  deriving DecidableEq, Repr

structure Daemon where
  /-- `_relays` -/
  relays : List NoPortsRelay
  /-- `_max_relays` -/
  max_relays : ℕ
  handler : Handler
  /-- Every task that has been created, in order. -/
  tasks : List Task
  /-- Everything that has been freed, the last first. -/
  freed : List Ptr

inductive Event where
  /-- A request reaches `_findFreeRelaySlot`. -/
  | request
  | probe (gone : Bool)
  | compare
  /-- The session keys cannot be set up. -/
  | refuse (config : NoPortsRelayConfig)
  | start (config : NoPortsRelayConfig) (answers : Answers)
  | cleanup (slot : ℕ)
  | stop (slot : ℕ)
  /-- `stop` and `getActiveRelayCount` of the daemon ask too. -/
  | isRunning (slot : ℕ) (gone : Bool)
  | setMaxRelays (max : ℕ)
  | task (task : ℕ) (event : TaskEvent)

namespace Daemon

/-- The task that the relay's handle names has been deleted: only of one such does `eTaskGetState` ever
say so, and not always, once its memory has been used again. -/
def handleDeleted (d : Daemon) (relay : NoPortsRelay) : Bool :=
  (relay.task_handle.bind (d.tasks[·]?)).any (·.pc == .deleted)

/-- `noports_relay_is_running` of one slot. -/
def ask (d : Daemon) (slot : ℕ) (gone : Bool) : Option (Daemon × Bool) := do
  let relay ← d.relays[slot]?
  guard (gone = true → d.handleDeleted relay = true)
  return ({ d with relays := d.relays.set slot (noports_relay_is_running relay gone).1 },
    (noports_relay_is_running relay gone).2)

def onProbe (d : Daemon) (gone : Bool) : Option Daemon :=
  match d.handler with
  | .probing slot =>
    if slot < d.max_relays then do
      let (d, running) ← d.ask slot gone
      return { d with handler := if running then .probing (slot + 1) else .comparing slot }
    else some { d with handler := .idle }
  | _ => none

def onCompare (d : Daemon) : Option Daemon :=
  match d.handler with
  | .comparing slot => do
    let relay ← d.relays[slot]?
    return { d with
      handler := if relay.state ≠ .connecting ∧ relay.state ≠ .authenticating then .found slot
        else .probing (slot + 1) }
  | _ => none

def onRefuse (d : Daemon) (config : NoPortsRelayConfig) : Option Daemon :=
  match d.handler with
  | .found _ => some { d with handler := .idle, freed := callerFrees config (-1) ++ d.freed }
  | _ => none

def onStart (d : Daemon) (config : NoPortsRelayConfig) (answers : Answers) : Option Daemon :=
  match d.handler with
  | .found slot => do
    let relay ← d.relays[slot]?
    let started := noports_relay_start relay config answers d.tasks.length
    return { d with
      relays := d.relays.set slot started.relay
      handler := .idle
      tasks := if started.res = 0 then d.tasks ++ [⟨slot, .created⟩] else d.tasks
      freed := callerFrees config started.res ++ started.freed ++ d.freed }
  | _ => none

def onTask (d : Daemon) (j : ℕ) (event : TaskEvent) : Option Daemon := do
  let task ← d.tasks[j]?
  let relay ← d.relays[task.slot]?
  let stepped ← taskStep relay task.pc event
  return { d with
    relays := d.relays.set task.slot stepped.relay
    tasks := d.tasks.set j { task with pc := stepped.pc }
    freed := stepped.freed ++ d.freed }

def step (d : Daemon) : Event → Option Daemon
  | .request => do
    guard (d.handler = .idle)
    return { d with handler := .probing 0 }
  | .probe gone => d.onProbe gone
  | .compare => d.onCompare
  | .refuse config => d.onRefuse config
  | .start config answers => d.onStart config answers
  | .cleanup slot => do
    guard (d.handler = .idle)
    let relay ← d.relays[slot]?
    return { d with relays := d.relays.set slot (cleanupFinished relay) }
  | .stop slot => do
    let relay ← d.relays[slot]?
    return { d with relays := d.relays.set slot (noports_relay_stop relay) }
  | .isRunning slot gone => (d.ask slot gone).map Prod.fst
  | .setMaxRelays max =>
    some { d with max_relays := if 1 ≤ max ∧ max ≤ d.relays.length then max else d.relays.length }
  | .task j event => d.onTask j event

def machine : Machine Daemon Event := ⟨step⟩

/-- The daemon as it is constructed, for `NOPORTS_MAX_RELAYS`. -/
def constructed (NOPORTS_MAX_RELAYS : ℕ) : Daemon :=
  ⟨List.replicate NOPORTS_MAX_RELAYS .unused, 2, .idle, [], []⟩

end Daemon

/-! ### What is to hold -/

/-- The task may still read, write or free what its relay holds. -/
def Pc.Uses (pc : Pc) : Prop := pc ≠ .returned ∧ pc ≠ .deleted

namespace Daemon

/-- No task of an earlier session still uses the slot. -/
def Unused (d : Daemon) (slot : ℕ) : Prop := ∀ task ∈ d.tasks, task.slot = slot → ¬task.pc.Uses

/-- The slot's handle is `NULL`, or names a task that has returned and left it so. -/
def Released (d : Daemon) (slot : ℕ) : Prop :=
  ∀ relay, d.relays[slot]? = some relay → ∀ j, relay.task_handle = some j →
    ∀ task, d.tasks[j]? = some task → ¬task.pc.Uses

/-- A step that gives a slot to a session finds it so. -/
def Gives (P : Daemon → ℕ → Prop) (d : Daemon) (e : Event) : Prop :=
  ∀ config answers, e = .start config answers → ∀ slot, d.handler = .found slot → P d slot

end Daemon

/-! ### What one task does to its slot -/

def taskMachine : Machine (NoPortsRelay × Pc) TaskEvent :=
  ⟨fun s e => (taskStep s.1 s.2 e).map fun stepped => (stepped.relay, stepped.pc)⟩

theorem exec_task_handle (relay : NoPortsRelay) (statement : NoPortsRelay.Statement) :
    (relay.exec statement).1.task_handle = relay.task_handle := by
  cases statement <;> rfl

theorem execAll_task_handle (relay : NoPortsRelay) (statements : List NoPortsRelay.Statement) :
    (relay.execAll statements).1.task_handle = relay.task_handle := by
  induction statements generalizing relay with
  | nil => rfl
  | cons statement rest ih =>
    rw [NoPortsRelay.execAll, ih]
    exact exec_task_handle relay statement

variable {relay : NoPortsRelay} {pc : Pc} {e : TaskEvent} {stepped : Stepped}

theorem authenticate_task_handle (multi : Bool) :
    (authenticate relay multi).relay.task_handle = relay.task_handle := by
  unfold authenticate
  split
  · rfl
  · split <;> rfl

theorem taskStep_task_handle (hpc : pc ≠ .stopped) (h : taskStep relay pc e = some stepped) :
    stepped.relay.task_handle = relay.task_handle := by
  unfold taskStep at h
  split at h
  -- first the branches that do more than write fields: set-up, authentication, a pass, a clean-up statement
  case h_3 multi =>
    obtain rfl := Option.some.inj h
    cases multi <;> rfl
  case h_6 multi =>
    obtain rfl := Option.some.inj h
    exact authenticate_task_handle multi
  case h_15 =>
    obtain ⟨_, -, h⟩ := Option.bind_eq_some_iff.mp h
    obtain rfl := Option.some.inj h
    rfl
  case h_17 statement left =>
    obtain rfl := Option.some.inj h
    exact exec_task_handle relay statement
  case h_19 => exact absurd rfl hpc
  case h_21 => cases h
  all_goals
    obtain rfl := Option.some.inj h
    rfl

/-- The last statement of a clean-up clears the handle, and nothing comes after it. -/
theorem taskStep_stopped (h : taskStep relay .stopped e = some stepped) :
    stepped.relay.task_handle = none ∧ ¬stepped.pc.Uses := by
  cases e with
  | next =>
    obtain rfl := Option.some.inj h
    exact ⟨rfl, fun huses => huses.1 rfl⟩
  | fails => cases h
  | pass => cases h

/-- A task that has returned is only deleted. -/
theorem taskStep_of_not_uses (hpc : ¬pc.Uses) (h : taskStep relay pc e = some stepped) :
    stepped = ⟨relay, .deleted, []⟩ := by
  rcases not_and_or.mp hpc with hpc | hpc
  · obtain rfl := not_not.mp hpc
    cases e with
    | next => exact (Option.some.inj h).symm
    | fails => cases h
    | pass => cases h
  · obtain rfl := not_not.mp hpc
    cases e <;> cases h

theorem taskStep_uses (h : taskStep relay pc e = some stepped) (huses : stepped.pc.Uses) : pc.Uses := by
  by_contra hpc
  rw [taskStep_of_not_uses hpc h] at huses
  exact huses.2 rfl

/-- A clean-up that is left to itself ends with the relay stopped. -/
theorem cleanup_run (left : List NoPortsRelay.Statement) (relay : NoPortsRelay) :
    ∃ es s, taskMachine.run (relay, .cleanup left) es = some s ∧ s.1.state = .stopped := by
  induction left generalizing relay with
  | nil => exact ⟨[.next], _, rfl, rfl⟩
  | cons statement left ih =>
    obtain ⟨es, s, hrun, hstate⟩ := ih (relay.exec statement).1
    exact ⟨.next :: es, s, hrun, hstate⟩

/-- Where a task uses its relay, what it does from there may still change the relay; elsewhere it cannot. -/
theorem Pc.uses_iff : pc.Uses ↔
    ∃ relay es s, taskMachine.run (relay, pc) es = some s ∧ s.1 ≠ relay := by
  constructor
  · intro huses
    -- each way on writes another state than an unused relay's; the last statement only clears a handle
    have hchanged {s : NoPortsRelay × Pc} (state : RelayState) (hne : state ≠ .idle) (hstate : s.1.state = state) :
        s.1 ≠ .unused := by
      intro heq
      apply hne
      rw [← hstate, heq]
      rfl
    have herror : RelayState.error ≠ .idle := by decide
    have hrunning : RelayState.running ≠ .idle := by decide
    have hstopped : RelayState.stopped ≠ .idle := by decide
    cases pc with
    | created => exact ⟨.unused, [.next, .fails], _, rfl, hchanged .error herror rfl⟩
    | setUp multi => exact ⟨.unused, [.fails], _, rfl, hchanged .error herror rfl⟩
    | allocated multi => exact ⟨.unused, [.next, .fails], _, rfl, hchanged .error herror rfl⟩
    | connecting multi => exact ⟨.unused, [.fails], _, rfl, hchanged .error herror rfl⟩
    | authenticating multi => exact ⟨.unused, [.fails], _, rfl, hchanged .error herror rfl⟩
    | authenticated multi => exact ⟨.unused, [.next, .next, .next], _, rfl, hchanged .running hrunning rfl⟩
    | taken multi => exact ⟨.unused, [.next, .next], _, rfl, hchanged .running hrunning rfl⟩
    | ready multi => exact ⟨.unused, [.next], _, rfl, hchanged .running hrunning rfl⟩
    | running multi =>
      obtain ⟨es, s, hrun, hstate⟩ := cleanup_run (ArduinoSlots.cleanup multi) .unused
      exact ⟨.unused, .next :: es, s, hrun, hchanged .stopped hstopped hstate⟩
    | cleanup left =>
      obtain ⟨es, s, hrun, hstate⟩ := cleanup_run left .unused
      exact ⟨.unused, es, s, hrun, hchanged .stopped hstopped hstate⟩
    | stopped =>
      refine ⟨{ NoPortsRelay.unused with task_handle := some 0 }, [.next], _, rfl, fun heq => ?_⟩
      cases congrArg NoPortsRelay.task_handle heq
    | returned => exact absurd rfl huses.1
    | deleted => exact absurd rfl huses.2
  · rintro ⟨relay, es, s, hrun, hs⟩
    by_contra hpc
    apply hs
    apply (Machine.invariant taskMachine (I := fun s => s.1 = relay ∧ ¬s.2.Uses) _ ⟨rfl, hpc⟩ hrun).1
    rintro ⟨relay', pc'⟩ e t ⟨rfl, hpc'⟩ hstep
    obtain ⟨stepped, htask, rfl⟩ := Option.map_eq_some_iff.mp hstep
    rw [taskStep_of_not_uses hpc' htask]
    exact ⟨rfl, fun huses => huses.2 rfl⟩

/-! ### The handle of a slot names the task that uses it -/

def handleAt (relays : List NoPortsRelay) (slot : ℕ) : Option ℕ := relays[slot]?.bind (·.task_handle)

theorem handleAt_set {relays : List NoPortsRelay} {slot : ℕ} (hrelay : relays[slot]? = some relay)
    (relay' : NoPortsRelay) (k : ℕ) :
    handleAt (relays.set slot relay') k = if k = slot then relay'.task_handle else handleAt relays k := by
  obtain ⟨hlt, -⟩ := List.getElem?_eq_some_iff.mp hrelay
  unfold handleAt
  by_cases hk : k = slot
  · rw [hk, if_pos rfl, List.getElem?_set_self hlt]
    rfl
  · rw [if_neg hk, List.getElem?_set_ne (Ne.symm hk)]

theorem handleAt_eq {relays : List NoPortsRelay} {slot : ℕ} (hrelay : relays[slot]? = some relay) :
    handleAt relays slot = relay.task_handle := by
  rw [handleAt, hrelay]
  rfl

theorem handleAt_set_of_eq {relays : List NoPortsRelay} {slot : ℕ} (hrelay : relays[slot]? = some relay)
    {relay' : NoPortsRelay} (hhandle : relay'.task_handle = relay.task_handle) (k : ℕ) :
    handleAt (relays.set slot relay') k = handleAt relays k := by
  rw [handleAt_set hrelay]
  split
  · rename_i hk
    rw [hk, hhandle, handleAt_eq hrelay]
  · rfl

namespace Daemon
variable {d d' : Daemon}

/-- What a step does to the handles and to where the tasks are. -/
inductive Effect (d d' : Daemon) (e : Event) : Prop where
  /-- At most handles of deleted tasks are cleared. -/
  | kept (tasks : d'.tasks = d.tasks)
      (handles : ∀ k, handleAt d'.relays k = handleAt d.relays k ∨ handleAt d'.relays k = none ∧
        ∀ j task, handleAt d.relays k = some j → d.tasks[j]? = some task → ¬task.pc.Uses)
  | created (slot : ℕ) (gives : ∀ P, Gives P d e → P d slot)
      (tasks : d'.tasks = d.tasks ++ [⟨slot, .created⟩])
      (handles : ∀ k, handleAt d'.relays k = if k = slot then some d.tasks.length else handleAt d.relays k)
  | moved (j : ℕ) (task : Task) (pc : Pc) (htask : d.tasks[j]? = some task)
      (tasks : d'.tasks = d.tasks.set j { task with pc })
      (handles : (∀ k, handleAt d'.relays k = handleAt d.relays k) ∧ (pc.Uses → task.pc.Uses) ∨
        (∀ k, handleAt d'.relays k = if k = task.slot then none else handleAt d.relays k) ∧ task.pc.Uses ∧ ¬pc.Uses)

theorem Effect.of_handles {e : Event} (tasks : d'.tasks = d.tasks)
    (handles : ∀ k, handleAt d'.relays k = handleAt d.relays k) : Effect d d' e :=
  .kept tasks fun k => Or.inl (handles k)

theorem noports_relay_is_running_task_handle (relay : NoPortsRelay) (gone : Bool) :
    (noports_relay_is_running relay gone).1.task_handle = relay.task_handle ∨
      gone = true ∧ (noports_relay_is_running relay gone).1.task_handle = none := by
  unfold noports_relay_is_running
  split
  · rename_i hgone
    exact Or.inr ⟨(Bool.and_eq_true_iff.mp hgone).2, rfl⟩
  · exact Or.inl rfl

/-- Only the handle of a deleted task is cleared by asking. -/
theorem effect_ask {slot : ℕ} {gone running : Bool} {e : Event} (h : d.ask slot gone = some (d', running)) :
    Effect d d' e := by
  obtain ⟨relay, hrelay, h⟩ := Option.bind_eq_some_iff.mp h
  obtain ⟨_, hguard, h⟩ := Option.bind_eq_some_iff.mp h
  obtain ⟨rfl, -⟩ := Prod.mk.inj (Option.some.inj h)
  refine .kept rfl fun k => ?_
  rcases noports_relay_is_running_task_handle relay gone with hkept | ⟨hgone, hnone⟩
  · exact Or.inl (handleAt_set_of_eq hrelay hkept k)
  · rw [handleAt_set hrelay]
    by_cases hk : k = slot
    · right
      subst hk
      rw [if_pos rfl, hnone]
      refine ⟨rfl, fun j task hj htask huses => ?_⟩
      have hdeleted := (Option.guard_eq_some' _).mp hguard hgone
      rw [handleAt_eq hrelay] at hj
      rw [handleDeleted, hj, Option.bind_some, htask] at hdeleted
      exact huses.2 (eq_of_beq hdeleted)
    · rw [if_neg hk]
      exact Or.inl rfl

theorem Effect.congr {d₁ : Daemon} {e : Event} (h : Effect d d₁ e) (hrelays : d'.relays = d₁.relays)
    (htasks : d'.tasks = d₁.tasks) : Effect d d' e := by
  cases h with
  | kept tasks handles =>
    refine .kept (htasks.trans tasks) fun k => ?_
    rw [hrelays]
    exact handles k
  | created slot gives tasks handles =>
    refine .created slot gives (htasks.trans tasks) fun k => ?_
    rw [hrelays]
    exact handles k
  | moved j task pc htask tasks handles =>
    refine .moved j task pc htask (htasks.trans tasks) ?_
    rw [hrelays]
    exact handles

/-- A start names its new task in the handle, or leaves the handle when there is none. -/
theorem noports_relay_start_task_handle {config : NoPortsRelayConfig} {answers : Answers} {task : ℕ}
    {started : Started} (h : noports_relay_start relay config answers task = started) :
    started.res = 0 ∧ started.relay.task_handle = some task ∨
      started.res ≠ 0 ∧ started.relay.task_handle = relay.task_handle := by
  dsimp only [noports_relay_start] at h
  split at h
  · subst h
    exact Or.inr ⟨Int.noConfusion, rfl⟩
  · split at h
    · subst h
      exact Or.inl ⟨rfl, rfl⟩
    · subst h
      refine Or.inr ⟨Int.noConfusion, ?_⟩
      rw [execAll_task_handle]
      rfl

theorem effect_onStart {config : NoPortsRelayConfig} {answers : Answers} (h : d.onStart config answers = some d') :
    Effect d d' (.start config answers) := by
  unfold onStart at h
  split at h
  · rename_i slot hfound
    obtain ⟨relay, hrelay, h⟩ := Option.bind_eq_some_iff.mp h
    obtain rfl := Option.some.inj h
    rcases noports_relay_start_task_handle rfl with ⟨hres, hhandle⟩ | ⟨hres, hhandle⟩
    · refine .created slot (fun P hgives => hgives config answers rfl slot hfound) (if_pos hres) fun k => ?_
      rw [← hhandle]
      exact handleAt_set hrelay _ k
    · exact .of_handles (if_neg hres) (handleAt_set_of_eq hrelay hhandle)
  · cases h

theorem effect_onTask {j : ℕ} {event : TaskEvent} (h : d.onTask j event = some d') :
    Effect d d' (.task j event) := by
  obtain ⟨task, htask, h⟩ := Option.bind_eq_some_iff.mp h
  obtain ⟨relay, hrelay, h⟩ := Option.bind_eq_some_iff.mp h
  obtain ⟨stepped, hstepped, h⟩ := Option.bind_eq_some_iff.mp h
  obtain rfl := Option.some.inj h
  refine .moved j task stepped.pc htask rfl ?_
  by_cases hpc : task.pc = .stopped
  · rw [hpc] at hstepped
    obtain ⟨hnone, hend⟩ := taskStep_stopped hstepped
    right
    refine ⟨fun k => ?_, ?_, hend⟩
    · rw [handleAt_set hrelay, hnone]
    · rw [hpc]
      exact ⟨Pc.noConfusion, Pc.noConfusion⟩
  · exact Or.inl ⟨handleAt_set_of_eq hrelay (taskStep_task_handle hpc hstepped), taskStep_uses hstepped⟩

theorem cleanupFinished_task_handle (relay : NoPortsRelay) :
    (cleanupFinished relay).task_handle = relay.task_handle := by
  unfold cleanupFinished
  split <;> rfl

theorem effect_step {e : Event} (h : d.step e = some d') : Effect d d' e := by
  cases e with
  | request =>
    obtain ⟨_, hidle, h⟩ := Option.bind_eq_some_iff.mp h
    obtain rfl := Option.some.inj h
    exact .of_handles rfl fun _ => rfl
  | probe gone =>
    change d.onProbe gone = some d' at h
    unfold onProbe at h
    split at h
    · split at h
      · obtain ⟨⟨asked, running⟩, hask, h⟩ := Option.bind_eq_some_iff.mp h
        obtain rfl := Option.some.inj h
        exact (effect_ask hask).congr rfl rfl
      · obtain rfl := Option.some.inj h
        exact .of_handles rfl fun _ => rfl
    · cases h
  | compare =>
    change d.onCompare = some d' at h
    unfold onCompare at h
    split at h
    · obtain ⟨relay, -, h⟩ := Option.bind_eq_some_iff.mp h
      obtain rfl := Option.some.inj h
      exact .of_handles rfl fun _ => rfl
    · cases h
  | refuse config =>
    change d.onRefuse config = some d' at h
    unfold onRefuse at h
    split at h
    · obtain rfl := Option.some.inj h
      exact .of_handles rfl fun _ => rfl
    · cases h
  | start config answers => exact effect_onStart h
  | cleanup slot =>
    obtain ⟨_, hidle, h⟩ := Option.bind_eq_some_iff.mp h
    obtain ⟨relay, hrelay, h⟩ := Option.bind_eq_some_iff.mp h
    obtain rfl := Option.some.inj h
    exact .of_handles rfl (handleAt_set_of_eq hrelay (cleanupFinished_task_handle relay))
  | stop slot =>
    obtain ⟨relay, hrelay, h⟩ := Option.bind_eq_some_iff.mp h
    obtain rfl := Option.some.inj h
    exact .of_handles rfl (handleAt_set_of_eq hrelay rfl)
  | isRunning slot gone =>
    obtain ⟨⟨asked, running⟩, hask, rfl⟩ := Option.map_eq_some_iff.mp h
    exact effect_ask hask
  | setMaxRelays max =>
    obtain rfl := Option.some.inj h
    exact .of_handles rfl fun _ => rfl
  | task j event => exact effect_onTask h

/-- The slots stay as many as they are. -/
theorem length_relays_step {e : Event} (h : d.step e = some d') : d'.relays.length = d.relays.length := by
  have hask {slot : ℕ} {gone running : Bool} {asked : Daemon} (h : d.ask slot gone = some (asked, running)) :
      asked.relays.length = d.relays.length := by
    obtain ⟨relay, -, h⟩ := Option.bind_eq_some_iff.mp h
    obtain ⟨_, -, h⟩ := Option.bind_eq_some_iff.mp h
    obtain ⟨rfl, -⟩ := Prod.mk.inj (Option.some.inj h)
    exact List.length_set
  cases e with
  | request =>
    obtain ⟨_, -, h⟩ := Option.bind_eq_some_iff.mp h
    obtain rfl := Option.some.inj h
    rfl
  | probe gone =>
    change d.onProbe gone = some d' at h
    unfold onProbe at h
    split at h
    · split at h
      · obtain ⟨⟨asked, running⟩, hasked, h⟩ := Option.bind_eq_some_iff.mp h
        obtain rfl := Option.some.inj h
        change asked.relays.length = d.relays.length
        exact hask hasked
      · obtain rfl := Option.some.inj h
        rfl
    · cases h
  | compare =>
    change d.onCompare = some d' at h
    unfold onCompare at h
    split at h
    · obtain ⟨relay, -, h⟩ := Option.bind_eq_some_iff.mp h
      obtain rfl := Option.some.inj h
      rfl
    · cases h
  | refuse config =>
    change d.onRefuse config = some d' at h
    unfold onRefuse at h
    split at h
    · obtain rfl := Option.some.inj h
      rfl
    · cases h
  | start config answers =>
    change d.onStart config answers = some d' at h
    unfold onStart at h
    split at h
    · obtain ⟨relay, -, h⟩ := Option.bind_eq_some_iff.mp h
      obtain rfl := Option.some.inj h
      exact List.length_set
    · cases h
  | cleanup slot =>
    obtain ⟨_, -, h⟩ := Option.bind_eq_some_iff.mp h
    obtain ⟨relay, -, h⟩ := Option.bind_eq_some_iff.mp h
    obtain rfl := Option.some.inj h
    exact List.length_set
  | stop slot =>
    obtain ⟨relay, -, h⟩ := Option.bind_eq_some_iff.mp h
    obtain rfl := Option.some.inj h
    exact List.length_set
  | isRunning slot gone =>
    obtain ⟨⟨asked, running⟩, hasked, rfl⟩ := Option.map_eq_some_iff.mp h
    exact hask hasked
  | setMaxRelays max =>
    obtain rfl := Option.some.inj h
    rfl
  | task j event =>
    obtain ⟨task, -, h⟩ := Option.bind_eq_some_iff.mp h
    obtain ⟨relay, -, h⟩ := Option.bind_eq_some_iff.mp h
    obtain ⟨stepped, -, h⟩ := Option.bind_eq_some_iff.mp h
    obtain rfl := Option.some.inj h
    exact List.length_set

/-- A task that uses its slot is the one that the slot's handle names, and a handle names a task of its slot. -/
structure Inv (d : Daemon) : Prop where
  user : ∀ j task, d.tasks[j]? = some task → task.pc.Uses → handleAt d.relays task.slot = some j
  named : ∀ k j, handleAt d.relays k = some j → ∃ task, d.tasks[j]? = some task ∧ task.slot = k

theorem inv_constructed (n : ℕ) : Inv (constructed n) := by
  constructor
  · intro j task htask
    cases htask
  · intro k j hj
    obtain ⟨relay, hrelay, hj⟩ := Option.bind_eq_some_iff.mp hj
    obtain rfl := List.eq_of_mem_replicate (List.mem_of_getElem? hrelay)
    cases hj

/-- The invariant is about the tasks and the handles alone. -/
theorem Inv.of_handles (h : Inv d) (tasks : d'.tasks = d.tasks)
    (handles : ∀ k, handleAt d'.relays k = handleAt d.relays k) : Inv d' := by
  constructor
  · intro j task htask huses
    rw [tasks] at htask
    rw [handles]
    exact h.user j task htask huses
  · intro k j hj
    rw [handles] at hj
    rw [tasks]
    exact h.named k j hj

/-- With the invariant, the handle alone says whether a slot is unused. -/
theorem Inv.unused_iff (h : Inv d) (slot : ℕ) : d.Unused slot ↔ d.Released slot := by
  constructor
  · intro hunused relay hrelay j hj task htask
    obtain ⟨task', htask', hslot⟩ := h.named slot j (by rw [handleAt_eq hrelay, hj])
    obtain rfl := Option.some.inj (htask.symm.trans htask')
    exact hunused task (List.mem_of_getElem? htask) hslot
  · intro hreleased task hmem hslot huses
    obtain ⟨j, htask⟩ := List.mem_iff_getElem?.mp hmem
    obtain ⟨relay, hrelay, hj⟩ := Option.bind_eq_some_iff.mp (h.user j task htask huses)
    rw [hslot] at hrelay
    exact hreleased relay hrelay j hj task htask huses

theorem Inv.step (h : Inv d) {e : Event} (hgives : Gives Unused d e) (hstep : d.step e = some d') : Inv d' := by
  cases effect_step hstep with
  | kept tasks handles =>
    constructor
    · intro j task htask huses
      rw [tasks] at htask
      have hj := h.user j task htask huses
      rcases handles task.slot with hkept | ⟨-, hdeleted⟩
      · rw [hkept, hj]
      · exact absurd huses (hdeleted j task hj htask)
    · intro k j hj
      rw [tasks]
      rcases handles k with hkept | ⟨hnone, -⟩
      · exact h.named k j (hkept ▸ hj)
      · rw [hnone] at hj
        cases hj
  | created slot gives tasks handles =>
    have hunused := gives Unused hgives
    constructor
    · intro j task htask huses
      rw [tasks] at htask
      rw [handles]
      rcases getElem?_concat_cases htask with htask | ⟨rfl, rfl⟩
      · have hne : task.slot ≠ slot := fun heq => hunused task (List.mem_of_getElem? htask) heq huses
        rw [if_neg hne]
        exact h.user j task htask huses
      · exact if_pos rfl
    · intro k j hj
      rw [handles] at hj
      rw [tasks]
      by_cases hk : k = slot
      · rw [if_pos hk] at hj
        obtain rfl := Option.some.inj hj
        exact ⟨_, List.getElem?_concat_length, hk.symm⟩
      · rw [if_neg hk] at hj
        obtain ⟨task, htask, hslot⟩ := h.named k j hj
        exact ⟨task, List.getElem?_append_left (List.getElem?_eq_some_iff.mp htask).1 ▸ htask, hslot⟩
  | moved j task pc htask tasks handles =>
    have hlt := (List.getElem?_eq_some_iff.mp htask).1
    constructor
    · intro k other hother huses
      rw [tasks] at hother
      rcases getElem?_set_cases hother with ⟨rfl, rfl⟩ | ⟨hne, hother⟩
      · rcases handles with ⟨hkept, hkeeps⟩ | ⟨-, -, hends⟩
        · rw [hkept]
          exact h.user k task htask (hkeeps huses)
        · exact absurd huses hends
      · have hk := h.user k other hother huses
        rcases handles with ⟨hkept, -⟩ | ⟨hcleared, htaskUses, -⟩
        · rw [hkept, hk]
        · -- two tasks that use one slot would both be the one its handle names
          have hslot : other.slot ≠ task.slot := by
            intro heq
            rw [heq, h.user j task htask htaskUses] at hk
            exact hne (Option.some.inj hk).symm
          rw [hcleared, if_neg hslot, hk]
    · intro k i hi
      have hi : handleAt d.relays k = some i := by
        rcases handles with ⟨hkept, -⟩ | ⟨hcleared, -, -⟩
        · rw [← hkept, hi]
        · rw [hcleared] at hi
          split at hi
          · cases hi
          · exact hi
      obtain ⟨other, hother, hslot⟩ := h.named k i hi
      rw [tasks]
      by_cases hij : j = i
      · subst hij
        obtain rfl := Option.some.inj (htask.symm.trans hother)
        exact ⟨_, List.getElem?_set_self hlt, hslot⟩
      · exact ⟨other, (List.getElem?_set_ne hij).trans hother, hslot⟩

/-! ### Runs -/

theorem gives_congr {P Q : Daemon → ℕ → Prop} (hiff : ∀ slot, P d slot ↔ Q d slot) (e : Event) :
    Gives P d e ↔ Gives Q d e := by
  constructor
  · intro h config answers he slot hfound
    exact (hiff slot).mp (h config answers he slot hfound)
  · intro h config answers he slot hfound
    exact (hiff slot).mpr (h config answers he slot hfound)

/-- On a run, no slot is given away while a task of an earlier session uses it exactly when each slot
that is given away has been released. -/
theorem gives_unused_iff (n : ℕ) (es : List Event) :
    machine.Meets (Gives Unused) (constructed n) es ↔ machine.Meets (Gives Released) (constructed n) es :=
  machine.meets_congr (fun _ _ _ hinv hgives hstep => Inv.step hinv hgives hstep)
    (fun _ e hinv => gives_congr hinv.unused_iff e) (inv_constructed n)

/-! ### A relay that cannot connect, and the request that comes while it cleans up -/

def sampleConfig (p : Ptr) : NoPortsRelayConfig :=
  { NoPortsRelayConfig.zero with
    rvd_host := some p
    local_host := some (p + 1)
    rv_e2ee := true
    session_aes_key := some (p + 2)
    session_iv := some (p + 3)
    multi := true }

def sampleAnswers (p : Ptr) : Answers := ⟨some p, some (p + 1), none, none, some (p + 2), true⟩

/-- A request finds its slot, the blocks of its session being those from `p` on. -/
def finds : List Event := [.request, .probe false, .compare]

def starts (p : Ptr) : Event := .start (sampleConfig p) (sampleAnswers (p + 4))

/-- The first session's relay cannot connect, and writes `RELAY_ERROR`. -/
def connectFails : List Event :=
  finds ++ starts 10 :: [.task 0 .next, .task 0 .next, .task 0 .next, .task 0 .fails] ++ finds

/-- Its clean-up, in a slot that is the second session's by then. -/
def cleansUp : List Event := List.replicate 14 (.task 0 .next)

/-- The clean-up of the first session frees the keys of the second, and marks its relay as stopped. -/
theorem keys_freed : ∃ d, machine.run (constructed 5) (connectFails ++ starts 20 :: cleansUp) = some d ∧
    d.tasks = [⟨0, .returned⟩, ⟨0, .created⟩] ∧ 22 ∈ d.freed ∧ 23 ∈ d.freed ∧
    (d.relays.map (·.state)).head? = some .stopped ∧ handleAt d.relays 0 = none ∧
    ¬machine.Meets (Gives Unused) (constructed 5) (connectFails ++ starts 20 :: cleansUp) := by
  refine ⟨_, rfl, rfl, by decide, by decide, rfl, rfl, fun hmeets => ?_⟩
  have hgives := ((machine.meets_append.mp hmeets).2 _ rfl).1
  exact hgives _ _ rfl 0 rfl ⟨0, .cleanup (cleanup true)⟩ (List.mem_singleton.mpr rfl) rfl
    ⟨Pc.noConfusion, Pc.noConfusion⟩

end Daemon
end NoPorts.ArduinoSlots
