import NoPorts.ArduinoRelaySlots
import NoPorts.Lib.Text
import Mathlib.Data.List.Nodup

/-! The client keys of the Arduino daemon, kept by slot beside its relays: a re-check that finds a key
withdrawn stops the relays in the slots that are watched with it. -/
namespace NoPorts.ArduinoClientKeys
open Lib

structure Config where
  client_key_check_secs : UInt32
  require_enrollment_signature : Bool

structure ClientSigningKey where
  /-- `none` when the session isn't watched. -/
  signing_key : Option String
  /-- Empty until found. -/
  atserver_host : String
  atserver_port : ℕ
  due : Bool
  ending : Bool
  backoff : ℕ
  skip_rounds : ℕ
  deriving DecidableEq, Repr

/-- What `memset` makes of an entry. -/
def ClientSigningKey.zero : ClientSigningKey := ⟨none, "", 0, false, false, 0, 0⟩

/-- `noports_lookup_result` -/
inductive LookupResult where
  | found
  | notFound
  | notServed
  | failed
  deriving DecidableEq, Repr

/-- What `noports_verify_enrollment_signature` returns, with the key and where it was looked up. -/
inductive EnrollmentSignature where
  | absent
  | verified (signing_key atserver_host : String) (atserver_port : ℕ)
  | refused
  | unchecked
  deriving DecidableEq, Repr

/-- What a key check found for one key. -/
inductive KeyCheck where
  | published
  | revoked
  | deleted
  | missing
  | unknown
  deriving DecidableEq, Repr

def KeyCheck.Withdrawn (found : KeyCheck) : Prop := found = .revoked ∨ found = .deleted

instance (found : KeyCheck) : Decidable found.Withdrawn := inferInstanceAs (Decidable (_ ∨ _))

/-- What the outside answers one `_checkKey`. -/
structure CheckAnswers where
  /-- At the address that is kept. -/
  first : LookupResult
  /-- `_findAtServer` -/
  address : Option (String × ℕ)
  /-- Of the budget there is enough left for another lookup, and then for two more. -/
  budgetLeft : Bool
  eachLeft : Bool
  second : LookupResult
  /-- The lookups under `r.__e` and `d.__e`, `none` when there is no memory for them. -/
  revoked : Option LookupResult
  deleted : Option LookupResult
  deriving DecidableEq, Repr

/-- `_withdrawn_to`: where to, or `none` when that can't be told. -/
def withdrawnTo (uri : String) (answers : CheckAnswers) : Option KeyCheck :=
  if (stripPrefix? "public:_apsk.".toList uri.toList).isNone ∨ (indexOf? ".a.__e@".toList uri.toList).isNone then
    some .missing
  else
    match answers.revoked with
    | none => none
    | some .found => some .revoked
    | some revoked =>
      match answers.deleted with
      | none => none
      | some .found => some .deleted
      | some deleted => if revoked = .notFound ∧ deleted = .notFound then some .missing else none

namespace ClientSigningKey
variable (key : ClientSigningKey)

/-- The lookup at the address that is kept, if one is. -/
def firstLookup (answers : CheckAnswers) : LookupResult :=
  if key.atserver_host ≠ "" then answers.first else .notServed

/-- The entry with the address that `_checkKey` finds for it. -/
def located (answers : CheckAnswers) : ClientSigningKey :=
  match key.firstLookup answers, answers.address with
  | .notServed, some (atserver_host, atserver_port) => { key with atserver_host, atserver_port }
  | _, _ => key

/-- What `_checkKey` finds of an entry that holds `uri`. -/
def checkKey (uri : String) (answers : CheckAnswers) : KeyCheck :=
  let first := key.firstLookup answers
  let result :=
    if first = .notServed ∧ answers.address.isSome ∧ answers.budgetLeft then answers.second else first
  match result with
  | .found => .published
  | .notFound => if answers.eachLeft then (withdrawnTo uri answers).getD .unknown else .unknown
  | _ => .unknown

/-- A round begins. -/
def markDue : ClientSigningKey :=
  { key with
    due := key.signing_key.isSome && !key.ending && key.skip_rounds == 0
    skip_rounds := key.skip_rounds - 1 }

end ClientSigningKey

def NOPORTS_KEY_CHECK_MAX_SKIP : ℕ := 30

/-- `_next_backoff` -/
def nextBackoff (backoff : ℕ) : ℕ :=
  if backoff = 0 then 1
  else if backoff * 2 > NOPORTS_KEY_CHECK_MAX_SKIP then NOPORTS_KEY_CHECK_MAX_SKIP
  else backoff * 2

/-- What a check that found `found` makes of an entry with the key it checked. -/
def ClientSigningKey.settle (key : ClientSigningKey) (found : KeyCheck) : ClientSigningKey :=
  let backoff := if found = .unknown then nextBackoff key.backoff else 0
  { key with due := false, backoff, skip_rounds := backoff, ending := key.ending || decide found.Withdrawn }

/-- The daemon's two tables, and what its sessions are: numbered as their tasks, with the key that each
one's request was verified with. -/
structure Daemon where
  slots : ArduinoSlots.Daemon
  /-- `_client_keys` -/
  client_keys : List ClientSigningKey
  last_key_check_ms : UInt32
  /-- The `client_key` of `_continueNptRequest`. -/
  client_key : ClientSigningKey
  sessions : List (Option String)
  /-- The session each slot was given to last, until its clean-up. -/
  occupants : List (Option ℕ)
  /-- The sessions stopped because of a key, in order. -/
  stopped : List ℕ

inductive Event where
  /-- A request that is fit for a session comes to `_checkClientSigningKey`. -/
  | request (session_id : String) (signature : EnrollmentSignature)
  | slots (e : ArduinoSlots.Event)
  | check (now : UInt32) (answers : CheckAnswers)

namespace Daemon
variable (config : Config)

def watched (d : Daemon) (slot : ℕ) : Option String := d.client_keys[slot]?.bind (·.signing_key)

def occupant (d : Daemon) (slot : ℕ) : Option ℕ := d.occupants[slot]?.join

/-- A session with this id is being watched. -/
def isLive (d : Daemon) (session_id : String) : Bool :=
  (d.client_keys.zip d.slots.relays).any fun e =>
    e.1.signing_key.isSome && e.2.config.session_id == session_id

/-- `_checkClientSigningKey`, `none` when it refuses the request. -/
def checkClientSigningKey (d : Daemon) (session_id : String) (signature : EnrollmentSignature) :
    Option ClientSigningKey :=
  if d.isLive session_id then none
  else
    match signature with
    | .verified signing_key atserver_host atserver_port =>
      some { ClientSigningKey.zero with signing_key := some signing_key, atserver_host, atserver_port }
    | .refused => none
    | .unchecked | .absent => if config.require_enrollment_signature then none else some .zero

def onRequest (d : Daemon) (session_id : String) (signature : EnrollmentSignature) : Option Daemon :=
  match d.checkClientSigningKey config session_id signature with
  | none => some d
  | some client_key => (d.slots.step .request).map fun slots => { d with slots, client_key }

/-- `_continueNptRequest` from `noports_relay_start` on, in this slot. -/
def onStart (d : Daemon) (relay_cfg : ArduinoSlots.NoPortsRelayConfig) (answers : ArduinoSlots.Answers)
    (slot : ℕ) : Option Daemon := do
  let relay ← d.slots.relays[slot]?
  let slots ← d.slots.step (.start relay_cfg answers)
  let task := d.slots.tasks.length
  if (ArduinoSlots.noports_relay_start relay relay_cfg answers task).res = 0 then
    return { d with
      slots
      client_keys :=
        if d.client_key.signing_key.isSome then d.client_keys.set slot d.client_key else d.client_keys
      sessions := d.sessions ++ [d.client_key.signing_key]
      occupants := d.occupants.set slot (some task) }
  else return { d with slots, occupants := d.occupants.set slot none }

/-- `_cleanupFinishedRelays` of one slot has something to clean up. -/
def Finished (relay : ArduinoSlots.NoPortsRelay) : Prop :=
  (relay.state = .stopped ∨ relay.state = .error) ∧ relay.task_handle = none

instance (relay : ArduinoSlots.NoPortsRelay) : Decidable (Finished relay) := inferInstanceAs (Decidable (_ ∧ _))

def onCleanup (d : Daemon) (slot : ℕ) : Option Daemon := do
  let relay ← d.slots.relays[slot]?
  let slots ← d.slots.step (.cleanup slot)
  if Finished relay then
    return { d with
      slots
      client_keys := d.client_keys.set slot .zero
      occupants := d.occupants.set slot none }
  else return { d with slots }

def onSlots (d : Daemon) : ArduinoSlots.Event → Option Daemon
  | .request => none
  | .start relay_cfg answers =>
    match d.slots.handler with
    | .found slot => d.onStart relay_cfg answers slot
    | _ => none
  | .cleanup slot => d.onCleanup slot
  | e => (d.slots.step e).map fun slots => { d with slots }

def intervalMs : UInt32 :=
  if config.client_key_check_secs > 86400 then 86400000 else config.client_key_check_secs * 1000

/-- `_checkClientKeys` up to its loop over the keys that are due. -/
def beginRound (d : Daemon) (now : UInt32) : Daemon :=
  if now - d.last_key_check_ms ≥ intervalMs config then
    { d with last_key_check_ms := now, client_keys := d.client_keys.map (·.markDue) }
  else d

/-- The first entry that is due, and its key. -/
def dueKey (d : Daemon) : Option (ℕ × ClientSigningKey × String) := do
  let slot ← d.client_keys.findIdx? (·.due)
  let key ← d.client_keys[slot]?
  let uri ← key.signing_key
  return (slot, key, uri)

/-- The slot is watched with `uri`, and its session is not ending yet. -/
def holds (d : Daemon) (uri : String) (slot : ℕ) : Bool :=
  d.client_keys[slot]?.any fun key => key.signing_key == some uri && !key.ending

/-- `noports_relay_stop` of the slots that hold `uri`. -/
def stopRelays (d : Daemon) (uri : String) : List ArduinoSlots.NoPortsRelay :=
  d.slots.relays.mapIdx fun slot relay =>
    if d.holds uri slot then ArduinoSlots.noports_relay_stop relay else relay

/-- Their sessions. -/
def toStop (d : Daemon) (uri : String) : List ℕ :=
  (List.range d.client_keys.length).filterMap fun slot => if d.holds uri slot then d.occupant slot else none

/-- The loop over the entries with the key that was checked. -/
def settleKey (d : Daemon) (uri : String) (found : KeyCheck) : Daemon :=
  let d' := { d with
    client_keys := d.client_keys.map fun key => if key.signing_key = some uri then key.settle found else key }
  if found.Withdrawn then
    { d' with slots := { d.slots with relays := d.stopRelays uri }, stopped := d.stopped ++ d.toStop uri }
  else d'

/-- What `_checkClientKeys` checks now, and what it finds. -/
def checks (d : Daemon) (now : UInt32) (answers : CheckAnswers) : Option (String × KeyCheck) :=
  if config.client_key_check_secs = 0 then none
  else (d.beginRound config now).dueKey.map fun due => (due.2.2, due.2.1.checkKey due.2.2 answers)

/-- `_checkClientKeys` -/
def checkClientKeys (d : Daemon) (now : UInt32) (answers : CheckAnswers) : Daemon :=
  if config.client_key_check_secs = 0 then d
  else
    let d := d.beginRound config now
    match d.dueKey with
    | none => d
    | some (slot, key, uri) =>
      { d with client_keys := d.client_keys.set slot (key.located answers) }.settleKey uri
        (key.checkKey uri answers)

def step (d : Daemon) : Event → Option Daemon
  | .request session_id signature => d.onRequest config session_id signature
  | .slots e => d.onSlots e
  | .check now answers => do
    guard (d.slots.handler = .idle)
    return d.checkClientKeys config now answers

def machine : Machine Daemon Event := ⟨step config⟩

def constructed (NOPORTS_MAX_RELAYS : ℕ) : Daemon :=
  ⟨.constructed NOPORTS_MAX_RELAYS, List.replicate NOPORTS_MAX_RELAYS .zero, 0, .zero, [],
    List.replicate NOPORTS_MAX_RELAYS none, []⟩

/-! ### What is to hold -/

/-- A check finds the key withdrawn that the request of session `j` was verified with, while the session
is in its slot. -/
def Found (j : ℕ) (d : Daemon) (e : Event) : Prop :=
  ∃ now answers uri found slot, e = .check now answers ∧ d.checks config now answers = some (uri, found) ∧
    found.Withdrawn ∧ d.occupant slot = some j ∧ d.sessions[j]? = some (some uri)

structure Agree (n : ℕ) (es : List Event) (t : Daemon) : Prop where
  watched_iff : ∀ slot key, t.watched slot = some key ↔
    ∃ j, t.occupant slot = some j ∧ t.sessions[j]? = some (some key)
  stopped_iff : ∀ j, j ∈ t.stopped ↔ (machine config).At (constructed n) es (Found config j)
  once : t.stopped.Nodup
  /-- A session that is still live is in its slot. -/
  live : ∀ j task, t.slots.tasks[j]? = some task → task.pc.Uses → t.occupant task.slot = some j

/-- What the allocator and FreeRTOS answer lets the relay start. -/
def Starts (relay_cfg : ArduinoSlots.NoPortsRelayConfig) (answers : ArduinoSlots.Answers) : Prop :=
  (relay_cfg.rv_e2ee && relay_cfg.session_aes_key.isSome && relay_cfg.session_iv.isSome) = true →
    answers.decrypter.isSome = true

/-- A slot that is given away is no longer used, and either watched with no key, or given to a session that is
signed and does start. -/
def StartsClean (d : Daemon) (e : Event) : Prop :=
  ∀ relay_cfg answers, e = .slots (.start relay_cfg answers) → ∀ slot, d.slots.handler = .found slot →
    d.slots.Released slot ∧ (d.watched slot = none ∨
      d.client_key.signing_key.isSome = true ∧ Starts relay_cfg answers ∧ answers.created = true)

/-! ### The tables, entry by entry -/

variable {d d' : Daemon}

theorem watched_eq {slot : ℕ} {key : ClientSigningKey} (h : d.client_keys[slot]? = some key) :
    d.watched slot = key.signing_key := by
  rw [watched, h]
  rfl

theorem join_getElem?_set {α : Type*} {xs : List (Option α)} {slot : ℕ} (hlt : slot < xs.length) (a : Option α)
    (k : ℕ) : (xs.set slot a)[k]?.join = if k = slot then a else xs[k]?.join := by
  by_cases hk : k = slot
  · rw [hk, if_pos rfl, List.getElem?_set_self hlt]
    rfl
  · rw [if_neg hk, List.getElem?_set_ne (Ne.symm hk)]

theorem bind_getElem?_set {xs : List ClientSigningKey} {slot : ℕ} (hlt : slot < xs.length)
    (key : ClientSigningKey) (k : ℕ) :
    (xs.set slot key)[k]?.bind (·.signing_key) = if k = slot then key.signing_key else xs[k]?.bind (·.signing_key) := by
  by_cases hk : k = slot
  · rw [hk, if_pos rfl, List.getElem?_set_self hlt]
    rfl
  · rw [if_neg hk, List.getElem?_set_ne (Ne.symm hk)]

theorem holds_iff {uri : String} {slot : ℕ} : d.holds uri slot = true ↔
    ∃ key, d.client_keys[slot]? = some key ∧ key.signing_key = some uri ∧ key.ending = false := by
  rw [holds, Option.any_eq_true]
  simp only [Bool.and_eq_true, beq_iff_eq, Bool.not_eq_true']

theorem mem_toStop_iff {uri : String} {j : ℕ} :
    j ∈ d.toStop uri ↔ ∃ slot, d.holds uri slot = true ∧ d.occupant slot = some j := by
  rw [toStop, List.mem_filterMap]
  constructor
  · rintro ⟨slot, -, hslot⟩
    split at hslot
    · rename_i hholds
      exact ⟨slot, hholds, hslot⟩
    · cases hslot
  · rintro ⟨slot, hholds, hslot⟩
    obtain ⟨key, hkey, -⟩ := holds_iff.mp hholds
    refine ⟨slot, List.mem_range.mpr (List.getElem?_eq_some_iff.mp hkey).1, ?_⟩
    rw [if_pos hholds]
    exact hslot

/-! ### The invariant -/

structure Inv (d : Daemon) : Prop where
  slots : ArduinoSlots.Daemon.Inv d.slots
  keys_length : d.client_keys.length = d.slots.relays.length
  occupants_length : d.occupants.length = d.slots.relays.length
  sessions_length : d.sessions.length = d.slots.tasks.length
  watched : ∀ slot key, d.watched slot = some key ↔
    ∃ j, d.occupant slot = some j ∧ d.sessions[j]? = some (some key)
  occupies : ∀ slot j, d.occupant slot = some j → ∃ task, d.slots.tasks[j]? = some task ∧ task.slot = slot
  live : ∀ j task, d.slots.tasks[j]? = some task → task.pc.Uses → d.occupant task.slot = some j
  ending : ∀ slot key j, d.client_keys[slot]? = some key → key.signing_key.isSome = true →
    d.occupant slot = some j → (key.ending = true ↔ j ∈ d.stopped)
  stopped_lt : ∀ j ∈ d.stopped, j < d.sessions.length
  once : d.stopped.Nodup
  fresh : d.client_key.ending = false

theorem inv_constructed (n : ℕ) : Inv (constructed n) := by
  have hoccupant (slot : ℕ) : (constructed n).occupant slot = none := by
    rw [occupant, constructed, List.getElem?_replicate]
    split <;> rfl
  have hwatched (slot : ℕ) : (constructed n).watched slot = none := by
    rw [Daemon.watched, constructed, List.getElem?_replicate]
    split <;> rfl
  refine ⟨ArduinoSlots.Daemon.inv_constructed n, ?_, ?_, rfl, ?_, ?_, ?_, ?_, ?_, List.nodup_nil, rfl⟩
  · exact List.length_replicate.trans List.length_replicate.symm
  · exact List.length_replicate.trans List.length_replicate.symm
  · intro slot key
    rw [hwatched]
    refine iff_of_false (fun h => by cases h) ?_
    rintro ⟨j, hj, -⟩
    rw [hoccupant] at hj
    cases hj
  · intro slot j hj
    rw [hoccupant] at hj
    cases hj
  · intro j task htask
    cases htask
  · intro slot key j _ _ hj
    rw [hoccupant] at hj
    cases hj
  · intro j hj
    cases hj

/-- A session is in one slot. -/
theorem Inv.occupant_inj (h : Inv d) {slot slot' j : ℕ} (hslot : d.occupant slot = some j)
    (hslot' : d.occupant slot' = some j) : slot = slot' := by
  obtain ⟨task, htask, rfl⟩ := h.occupies slot j hslot
  obtain ⟨task', htask', rfl⟩ := h.occupies slot' j hslot'
  rw [Option.some.inj (htask.symm.trans htask')]

theorem Inv.nodup_toStop (h : Inv d) (uri : String) : (d.toStop uri).Nodup := by
  apply List.nodup_range.filterMap
  intro slot slot' j hslot hslot'
  split at hslot
  · split at hslot'
    · exact h.occupant_inj hslot hslot'
    · cases hslot'
  · cases hslot

/-! ### Steps of the slots that give none away -/

/-- The tables stay as they are, and so do the sessions. -/
theorem Inv.quiet (h : Inv d) {e : ArduinoSlots.Event} {slots : ArduinoSlots.Daemon}
    (hstep : d.slots.step e = some slots) (hno : ∀ relay_cfg answers, e ≠ .start relay_cfg answers)
    {client_key : ClientSigningKey} (hfresh : client_key.ending = false) :
    Inv { d with slots, client_key } := by
  have hslots : ArduinoSlots.Daemon.Inv slots := by
    apply h.slots.step _ hstep
    intro relay_cfg answers he
    exact absurd he (hno relay_cfg answers)
  have hlength := ArduinoSlots.Daemon.length_relays_step hstep
  -- what the step does to the tasks
  obtain ⟨hcount, hkept, hused⟩ : slots.tasks.length = d.slots.tasks.length ∧
      (∀ (j : ℕ) (task : ArduinoSlots.Task), d.slots.tasks[j]? = some task →
        ∃ task' : ArduinoSlots.Task, slots.tasks[j]? = some task' ∧ task'.slot = task.slot) ∧
      ∀ (j : ℕ) (task : ArduinoSlots.Task), slots.tasks[j]? = some task → task.pc.Uses →
        ∃ task' : ArduinoSlots.Task, d.slots.tasks[j]? = some task' ∧ task'.slot = task.slot ∧ task'.pc.Uses := by
    cases ArduinoSlots.Daemon.effect_step hstep with
    | kept tasks handles =>
      rw [tasks]
      exact ⟨rfl, fun j task htask => ⟨task, htask, rfl⟩, fun j task htask huses => ⟨task, htask, rfl, huses⟩⟩
    | created slot gives tasks handles =>
      exact (gives (fun _ _ => False) fun relay_cfg answers he => absurd he (hno relay_cfg answers)).elim
    | moved i moved pc hmoved tasks handles =>
      have hpc : pc.Uses → moved.pc.Uses := by
        rcases handles with ⟨-, hkeeps⟩ | ⟨-, hmoved, -⟩
        · exact hkeeps
        · exact fun _ => hmoved
      rw [tasks]
      refine ⟨List.length_set, fun j task htask => ?_, fun j task htask huses => ?_⟩
      · by_cases hij : i = j
        · subst hij
          obtain rfl := Option.some.inj (hmoved.symm.trans htask)
          exact ⟨_, List.getElem?_set_self (List.getElem?_eq_some_iff.mp hmoved).1, rfl⟩
        · exact ⟨task, (List.getElem?_set_ne hij).trans htask, rfl⟩
      · rcases getElem?_set_cases htask with ⟨rfl, rfl⟩ | ⟨-, htask⟩
        · exact ⟨moved, hmoved, rfl, hpc huses⟩
        · exact ⟨task, htask, rfl, huses⟩
  refine ⟨hslots, h.keys_length.trans hlength.symm, h.occupants_length.trans hlength.symm,
    h.sessions_length.trans hcount.symm, h.watched, fun slot j hj => ?_, fun j task htask huses => ?_, h.ending,
    h.stopped_lt, h.once, hfresh⟩
  · obtain ⟨task, htask, hslot⟩ := h.occupies slot j hj
    obtain ⟨task', htask', hsame⟩ := hkept j task htask
    exact ⟨task', htask', hsame.trans hslot⟩
  · obtain ⟨task', htask', hsame, huses'⟩ := hused j task htask huses
    rw [← hsame]
    exact h.live j task' htask' huses'

/-! ### A slot is given away, or cleaned up -/

theorem res_eq_zero {relay : ArduinoSlots.NoPortsRelay} {relay_cfg : ArduinoSlots.NoPortsRelayConfig}
    {answers : ArduinoSlots.Answers} {task : ℕ} (hstarts : Starts relay_cfg answers)
    (hcreated : answers.created = true) :
    (ArduinoSlots.noports_relay_start relay relay_cfg answers task).res = 0 := by
  dsimp only [ArduinoSlots.noports_relay_start]
  split
  · rename_i hnone
    obtain ⟨he2ee, hnone⟩ := Bool.and_eq_true_iff.mp hnone
    rw [Option.isNone_iff_eq_none] at hnone
    have hsome := hstarts he2ee
    rw [hnone] at hsome
    cases hsome
  · rfl

/-- What a step of the slots that gives `slot` away does to the tasks. -/
theorem slots_start {slots : ArduinoSlots.Daemon} {relay_cfg : ArduinoSlots.NoPortsRelayConfig}
    {answers : ArduinoSlots.Answers} {slot : ℕ} {relay : ArduinoSlots.NoPortsRelay}
    (hfound : d.slots.handler = .found slot) (hrelay : d.slots.relays[slot]? = some relay)
    (h : d.slots.step (.start relay_cfg answers) = some slots) :
    slots.tasks = if (ArduinoSlots.noports_relay_start relay relay_cfg answers d.slots.tasks.length).res = 0 then
      d.slots.tasks ++ [⟨slot, .created⟩] else d.slots.tasks := by
  change d.slots.onStart relay_cfg answers = some slots at h
  rw [ArduinoSlots.Daemon.onStart, hfound] at h
  obtain ⟨relay', hrelay', h⟩ := Option.bind_eq_some_iff.mp h
  obtain rfl := Option.some.inj (hrelay.symm.trans hrelay')
  obtain rfl := Option.some.inj h
  rfl

theorem Inv.start (h : Inv d) {relay_cfg : ArduinoSlots.NoPortsRelayConfig} {answers : ArduinoSlots.Answers}
    {slot : ℕ} (hfound : d.slots.handler = .found slot) (hclean : StartsClean d (.slots (.start relay_cfg answers)))
    (hstep : d.onStart relay_cfg answers slot = some d') : Inv d' := by
  obtain ⟨hreleased, hkey⟩ := hclean _ _ rfl slot hfound
  obtain ⟨relay, hrelay, hstep⟩ := Option.bind_eq_some_iff.mp hstep
  obtain ⟨slots, hslots, hstep⟩ := Option.bind_eq_some_iff.mp hstep
  have hlt := (List.getElem?_eq_some_iff.mp hrelay).1
  have hkeys : slot < d.client_keys.length := h.keys_length ▸ hlt
  have hoccupants : slot < d.occupants.length := h.occupants_length ▸ hlt
  have hunused := (h.slots.unused_iff slot).mpr hreleased
  have hinv : ArduinoSlots.Daemon.Inv slots := by
    apply h.slots.step _ hslots
    intro _ _ _ slot' hfound'
    obtain rfl : slot = slot' := by
      rw [hfound] at hfound'
      injection hfound'
    exact hunused
  have hlength := ArduinoSlots.Daemon.length_relays_step hslots
  have htasks := slots_start hfound hrelay hslots
  dsimp only at hstep
  split at hstep
  · -- the relay starts: its session is the last one, and new in its slot
    rename_i hres
    rw [if_pos hres] at htasks
    obtain rfl := Option.some.inj hstep
    have hnew : d.sessions.length = d.slots.tasks.length := h.sessions_length
    have hold {s j : ℕ} (hj : d.occupant s = some j) : j < d.sessions.length := by
      obtain ⟨task, htask, -⟩ := h.occupies s j hj
      rw [hnew]
      exact (List.getElem?_eq_some_iff.mp htask).1
    have hkeyAt (k : ℕ) : (if d.client_key.signing_key.isSome then d.client_keys.set slot d.client_key
          else d.client_keys)[k]?.bind (·.signing_key) =
        if k = slot then d.client_key.signing_key else d.watched k := by
      split
      · exact bind_getElem?_set hkeys d.client_key k
      · rename_i hunsigned
        rcases hkey with hnone | ⟨hsigned, -⟩
        · by_cases hk : k = slot
          · rw [hk, if_pos rfl, Option.not_isSome_iff_eq_none.mp hunsigned]
            exact hnone
          · rw [if_neg hk]
            rfl
        · exact absurd hsigned hunsigned
    have hoccupantAt (k : ℕ) : (d.occupants.set slot (some d.slots.tasks.length))[k]?.join =
        if k = slot then some d.slots.tasks.length else d.occupant k := join_getElem?_set hoccupants _ k
    refine ⟨hinv, ?_, ?_, ?_, fun k key => ?_, fun k j hj => ?_, fun j task htask huses => ?_,
      fun k key j hget hsome hj => ?_, fun j hj => ?_, h.once, h.fresh⟩
    · rw [hlength, ← h.keys_length]
      dsimp only
      split
      · exact List.length_set
      · rfl
    · rw [hlength, ← h.occupants_length]
      exact List.length_set
    · rw [htasks, List.length_append, List.length_append, hnew]
      rfl
    · rw [Daemon.watched, hkeyAt, occupant, hoccupantAt]
      by_cases hk : k = slot
      · rw [if_pos hk, if_pos hk]
        constructor
        · intro hkey
          refine ⟨_, rfl, ?_⟩
          rw [← hnew, List.getElem?_concat_length, hkey]
        · rintro ⟨j, hj, hkey⟩
          obtain rfl := Option.some.inj hj
          rw [← hnew, List.getElem?_concat_length] at hkey
          exact Option.some.inj hkey
      · rw [if_neg hk, if_neg hk, h.watched k key]
        apply exists_congr
        intro j
        apply and_congr_right
        intro hj
        rw [List.getElem?_append_left (hold hj)]
    · rw [occupant, hoccupantAt] at hj
      rw [htasks]
      by_cases hk : k = slot
      · rw [if_pos hk] at hj
        obtain rfl := Option.some.inj hj
        exact ⟨_, List.getElem?_concat_length, hk.symm⟩
      · rw [if_neg hk] at hj
        obtain ⟨task, htask, hslot⟩ := h.occupies k j hj
        exact ⟨task, List.getElem?_append_left (List.getElem?_eq_some_iff.mp htask).1 ▸ htask, hslot⟩
    · rw [htasks] at htask
      rw [occupant, hoccupantAt]
      rcases getElem?_concat_cases htask with htask | ⟨rfl, rfl⟩
      · have hne : task.slot ≠ slot := fun heq => hunused task (List.mem_of_getElem? htask) heq huses
        rw [if_neg hne]
        exact h.live j task htask huses
      · rw [if_pos rfl]
    · rw [occupant, hoccupantAt] at hj
      by_cases hk : k = slot
      · rw [if_pos hk] at hj
        obtain rfl := Option.some.inj hj
        refine iff_of_false ?_ fun hmem => absurd (h.stopped_lt _ hmem) (hnew ▸ Nat.lt_irrefl _)
        have hwatched := hkeyAt k
        rw [hget, Option.bind_some, if_pos hk] at hwatched
        rw [hwatched] at hsome
        rw [if_pos hsome, hk, List.getElem?_set_self hkeys] at hget
        rw [← Option.some.inj hget, h.fresh]
        exact Bool.false_ne_true
      · rw [if_neg hk] at hj
        apply h.ending k key j _ hsome hj
        split at hget
        · rw [List.getElem?_set_ne (Ne.symm hk)] at hget
          exact hget
        · exact hget
    · rw [List.length_append]
      exact Nat.lt_add_right _ (h.stopped_lt j hj)
  · -- it does not: no session is in the slot
    rename_i hres
    rw [if_neg hres] at htasks
    obtain rfl := Option.some.inj hstep
    have hnone : d.watched slot = none := by
      rcases hkey with hnone | ⟨-, hstarts, hcreated⟩
      · exact hnone
      · exact absurd (res_eq_zero hstarts hcreated) hres
    have hoccupantAt (k : ℕ) : (d.occupants.set slot none)[k]?.join = if k = slot then none else d.occupant k :=
      join_getElem?_set hoccupants none k
    refine ⟨hinv, h.keys_length.trans hlength.symm, ?_, ?_, fun k key => ?_, fun k j hj => ?_,
      fun j task htask huses => ?_, fun k key j hget hsome hj => ?_, h.stopped_lt, h.once, h.fresh⟩
    · rw [hlength, ← h.occupants_length]
      exact List.length_set
    · rw [htasks, h.sessions_length]
    · rw [occupant, hoccupantAt]
      by_cases hk : k = slot
      · rw [if_pos hk, hk]
        change d.watched slot = some key ↔ _
        rw [hnone]
        refine iff_of_false (fun hkey => by cases hkey) ?_
        rintro ⟨j, hj, -⟩
        cases hj
      · rw [if_neg hk]
        exact h.watched k key
    · rw [occupant, hoccupantAt] at hj
      rw [htasks]
      split at hj
      · cases hj
      · exact h.occupies k j hj
    · rw [htasks] at htask
      rw [occupant, hoccupantAt, if_neg fun heq => hunused task (List.mem_of_getElem? htask) heq huses]
      exact h.live j task htask huses
    · rw [occupant, hoccupantAt] at hj
      split at hj
      · cases hj
      · exact h.ending k key j hget hsome hj

theorem Inv.cleanup (h : Inv d) {slot : ℕ} (hstep : d.onCleanup slot = some d') : Inv d' := by
  obtain ⟨relay, hrelay, hstep⟩ := Option.bind_eq_some_iff.mp hstep
  obtain ⟨slots, hslots, hstep⟩ := Option.bind_eq_some_iff.mp hstep
  have hquiet := h.quiet hslots (fun _ _ he => by cases he) h.fresh
  split at hstep
  · rename_i hfinished
    obtain rfl := Option.some.inj hstep
    have hlt := (List.getElem?_eq_some_iff.mp hrelay).1
    have hkeys : slot < d.client_keys.length := h.keys_length ▸ hlt
    have hoccupants : slot < d.occupants.length := h.occupants_length ▸ hlt
    have hkeyAt (k : ℕ) : (d.client_keys.set slot .zero)[k]?.bind (·.signing_key) =
        if k = slot then none else d.watched k := bind_getElem?_set hkeys .zero k
    have hoccupantAt (k : ℕ) : (d.occupants.set slot none)[k]?.join = if k = slot then none else d.occupant k :=
      join_getElem?_set hoccupants none k
    -- no task uses the slot, or its handle would name it
    have hunused {j : ℕ} {task : ArduinoSlots.Task} (htask : slots.tasks[j]? = some task) (huses : task.pc.Uses) :
        task.slot ≠ slot := by
      intro heq
      have hj := hquiet.slots.user j task htask huses
      have hhandle : ArduinoSlots.handleAt slots.relays slot = none := by
        obtain ⟨_, -, hslots⟩ := Option.bind_eq_some_iff.mp hslots
        obtain ⟨relay', hrelay', hslots⟩ := Option.bind_eq_some_iff.mp hslots
        obtain rfl := Option.some.inj (hrelay.symm.trans hrelay')
        obtain rfl := Option.some.inj hslots
        rw [ArduinoSlots.handleAt_set hrelay, if_pos rfl, ArduinoSlots.Daemon.cleanupFinished_task_handle]
        exact hfinished.2
      rw [heq, hhandle] at hj
      cases hj
    refine ⟨hquiet.slots, ?_, ?_, hquiet.sessions_length, fun k key => ?_, fun k j hj => ?_,
      fun j task htask huses => ?_, fun k key j hget hsome hj => ?_, h.stopped_lt, h.once, h.fresh⟩
    · exact List.length_set.trans hquiet.keys_length
    · exact List.length_set.trans hquiet.occupants_length
    · rw [Daemon.watched, hkeyAt, occupant, hoccupantAt]
      by_cases hk : k = slot
      · rw [if_pos hk, if_pos hk]
        refine iff_of_false (fun hkey => by cases hkey) ?_
        rintro ⟨j, hj, -⟩
        cases hj
      · rw [if_neg hk, if_neg hk]
        exact h.watched k key
    · rw [occupant, hoccupantAt] at hj
      split at hj
      · cases hj
      · exact hquiet.occupies k j hj
    · rw [occupant, hoccupantAt, if_neg (hunused htask huses)]
      exact hquiet.live j task htask huses
    · rw [occupant, hoccupantAt] at hj
      split at hj
      · cases hj
      · rename_i hk
        rw [List.getElem?_set_ne (Ne.symm hk)] at hget
        exact h.ending k key j hget hsome hj
  · obtain rfl := Option.some.inj hstep
    exact hquiet

/-! ### A key check -/

/-- What the invariant says of the entries is about their keys and whether they are ending. -/
theorem Inv.rekey (h : Inv d) {client_keys : List ClientSigningKey} {last_key_check_ms : UInt32}
    (hsame : client_keys.map (fun key => (key.signing_key, key.ending)) =
      d.client_keys.map fun key => (key.signing_key, key.ending)) :
    Inv { d with client_keys, last_key_check_ms } := by
  have hat (slot : ℕ) : client_keys[slot]?.map (fun key => (key.signing_key, key.ending)) =
      d.client_keys[slot]?.map fun key => (key.signing_key, key.ending) := by
    rw [← List.getElem?_map, hsame, List.getElem?_map]
  have hwatched (slot : ℕ) : client_keys[slot]?.bind (·.signing_key) = d.watched slot := by
    have hat := congrArg (·.bind Prod.fst) (hat slot)
    simp only [Option.bind_map] at hat
    exact hat
  refine ⟨h.slots, ?_, h.occupants_length, h.sessions_length, fun slot key => ?_, h.occupies, h.live,
    fun slot key j hget hsome hj => ?_, h.stopped_lt, h.once, h.fresh⟩
  · rw [← h.keys_length]
    have hlength := congrArg List.length hsame
    simpa only [List.length_map] using hlength
  · rw [Daemon.watched, hwatched]
    exact h.watched slot key
  · have hat := hat slot
    rw [hget] at hat
    obtain ⟨old, hold, heq⟩ := Option.map_eq_some_iff.mp hat.symm
    obtain ⟨hkey, hending⟩ := Prod.mk.inj heq
    rw [← hending]
    exact h.ending slot old j hold (hkey ▸ hsome) hj

theorem Inv.beginRound (h : Inv d) (now : UInt32) : Inv (d.beginRound config now) := by
  rw [Daemon.beginRound]
  split
  · apply h.rekey
    rw [List.map_map]
    rfl
  · exact h

theorem handleAt_stopRelays (uri : String) (k : ℕ) :
    ArduinoSlots.handleAt (d.stopRelays uri) k = ArduinoSlots.handleAt d.slots.relays k := by
  rw [ArduinoSlots.handleAt, ArduinoSlots.handleAt, stopRelays, List.getElem?_mapIdx]
  cases d.slots.relays[k]? with
  | none => rfl
  | some relay =>
    rw [Option.map_some, Option.bind_some, Option.bind_some]
    split <;> rfl

/-- A check that finds the key withdrawn stops the sessions in their slots. -/
theorem Inv.settleKey (h : Inv d) (uri : String) (found : KeyCheck) : Inv (d.settleKey uri found) := by
  have hat (slot : ℕ) (key : ClientSigningKey)
      (hget : (d.client_keys.map fun key => if key.signing_key = some uri then key.settle found else key)[slot]? =
        some key) : ∃ old, d.client_keys[slot]? = some old ∧ key.signing_key = old.signing_key ∧
      (key.ending = true ↔ old.ending = true ∨ old.signing_key = some uri ∧ found.Withdrawn) := by
    rw [List.getElem?_map] at hget
    obtain ⟨old, hold, rfl⟩ := Option.map_eq_some_iff.mp hget
    refine ⟨old, hold, ?_⟩
    split
    · rename_i huri
      refine ⟨rfl, ?_⟩
      rw [ClientSigningKey.settle, Bool.or_eq_true, decide_eq_true_iff]
      exact or_congr Iff.rfl (and_iff_right huri).symm
    · rename_i huri
      exact ⟨rfl, (or_iff_left fun hand => huri hand.1).symm⟩
  have hwatched (slot : ℕ) : (d.client_keys.map fun key =>
      if key.signing_key = some uri then key.settle found else key)[slot]?.bind (·.signing_key) = d.watched slot := by
    rw [List.getElem?_map, Option.bind_map, Daemon.watched]
    congr 1
    funext key
    dsimp only [Function.comp]
    split <;> rfl
  rw [Daemon.settleKey]
  dsimp only
  split
  · rename_i hwithdrawn
    have hinv : ArduinoSlots.Daemon.Inv { d.slots with relays := d.stopRelays uri } :=
      h.slots.of_handles rfl (handleAt_stopRelays uri)
    have hlength : (d.stopRelays uri).length = d.slots.relays.length := List.length_mapIdx
    refine ⟨hinv, ?_, ?_, h.sessions_length, fun slot key => ?_, h.occupies, h.live,
      fun slot key j hget hsome hj => ?_, fun j hj => ?_, ?_, h.fresh⟩
    · rw [List.length_map, hlength, h.keys_length]
    · rw [hlength, h.occupants_length]
    · rw [Daemon.watched, hwatched]
      exact h.watched slot key
    · obtain ⟨old, hold, hkey, hending⟩ := hat slot key hget
      have hbefore := h.ending slot old j hold (hkey ▸ hsome) hj
      rw [hending, hbefore, List.mem_append, mem_toStop_iff]
      constructor
      · rintro (hmem | ⟨huri, -⟩)
        · exact Or.inl hmem
        · by_cases hmem : j ∈ d.stopped
          · exact Or.inl hmem
          · refine Or.inr ⟨slot, holds_iff.mpr ⟨old, hold, huri, ?_⟩, hj⟩
            exact Bool.eq_false_iff.mpr fun htrue => hmem (hbefore.mp htrue)
      · rintro (hmem | ⟨slot', hholds, hslot'⟩)
        · exact Or.inl hmem
        · obtain rfl := h.occupant_inj hj hslot'
          obtain ⟨key', hkey', huri, -⟩ := holds_iff.mp hholds
          obtain rfl := Option.some.inj (hold.symm.trans hkey')
          exact Or.inr ⟨huri, hwithdrawn⟩
    · rcases List.mem_append.mp hj with hj | hj
      · exact h.stopped_lt j hj
      · obtain ⟨slot, -, hslot⟩ := mem_toStop_iff.mp hj
        obtain ⟨task, htask, -⟩ := h.occupies slot j hslot
        exact h.sessions_length ▸ (List.getElem?_eq_some_iff.mp htask).1
    · apply List.Nodup.append h.once (h.nodup_toStop uri)
      intro j hj hnow
      obtain ⟨slot, hholds, hslot⟩ := mem_toStop_iff.mp hnow
      obtain ⟨key, hkey, huri, hending⟩ := holds_iff.mp hholds
      have htrue := (h.ending slot key j hkey (by rw [huri]; rfl) hslot).mpr hj
      rw [hending] at htrue
      cases htrue
  · rename_i hwithdrawn
    refine ⟨h.slots, ?_, h.occupants_length, h.sessions_length, fun slot key => ?_, h.occupies, h.live,
      fun slot key j hget hsome hj => ?_, h.stopped_lt, h.once, h.fresh⟩
    · rw [List.length_map, h.keys_length]
    · rw [Daemon.watched, hwatched]
      exact h.watched slot key
    · obtain ⟨old, hold, hkey, hending⟩ := hat slot key hget
      rw [hending, or_iff_left fun hand => hwithdrawn hand.2]
      exact h.ending slot old j hold (hkey ▸ hsome) hj

/-! ### Runs -/

theorem checkClientSigningKey_ending {session_id : String} {signature : EnrollmentSignature}
    {client_key : ClientSigningKey} (h : d.checkClientSigningKey config session_id signature = some client_key) :
    client_key.ending = false := by
  unfold checkClientSigningKey at h
  split at h
  · cases h
  · have hzero (h : (if config.require_enrollment_signature then none else some ClientSigningKey.zero) =
        some client_key) : client_key.ending = false := by
      split at h
      · cases h
      · obtain rfl := Option.some.inj h
        rfl
    split at h
    · obtain rfl := Option.some.inj h
      rfl
    · cases h
    · exact hzero h
    · exact hzero h

theorem located_same (key : ClientSigningKey) (answers : CheckAnswers) :
    ((key.located answers).signing_key, (key.located answers).ending) = (key.signing_key, key.ending) := by
  unfold ClientSigningKey.located
  split <;> rfl

/-- Where the entries are once the check has found an address for the one that is due. -/
theorem Inv.locate (h : Inv d) {slot : ℕ} {key : ClientSigningKey} (hkey : d.client_keys[slot]? = some key)
    (answers : CheckAnswers) : Inv { d with client_keys := d.client_keys.set slot (key.located answers) } := by
  apply h.rekey
  apply List.ext_getElem?
  intro k
  rw [List.getElem?_map, List.getElem?_map]
  by_cases hk : k = slot
  · rw [hk, List.getElem?_set_self (List.getElem?_eq_some_iff.mp hkey).1, hkey]
    exact congrArg some (located_same key answers)
  · rw [List.getElem?_set_ne (Ne.symm hk)]

theorem dueKey_eq_some {due : ℕ × ClientSigningKey × String} (h : d.dueKey = some due) :
    d.client_keys[due.1]? = some due.2.1 ∧ due.2.1.signing_key = some due.2.2 := by
  obtain ⟨slot, -, h⟩ := Option.bind_eq_some_iff.mp h
  obtain ⟨key, hkey, h⟩ := Option.bind_eq_some_iff.mp h
  obtain ⟨uri, huri, h⟩ := Option.bind_eq_some_iff.mp h
  obtain rfl := Option.some.inj h
  exact ⟨hkey, huri⟩

/-- What a key check does. -/
theorem checkClientKeys_cases (d : Daemon) (now : UInt32) (answers : CheckAnswers) :
    d.checks config now answers = none ∧
      (d.checkClientKeys config now answers = d ∨ d.checkClientKeys config now answers = d.beginRound config now) ∨
    ∃ (slot : ℕ) (key : ClientSigningKey) (uri : String) (found : KeyCheck),
      (d.beginRound config now).client_keys[slot]? = some key ∧
      d.checks config now answers = some (uri, found) ∧
      d.checkClientKeys config now answers = { d.beginRound config now with
        client_keys := (d.beginRound config now).client_keys.set slot (key.located answers) }.settleKey uri found := by
  rw [checks, checkClientKeys]
  split
  · exact Or.inl ⟨rfl, Or.inl rfl⟩
  · dsimp only
    cases hdue : (d.beginRound config now).dueKey with
    | none => exact Or.inl ⟨rfl, Or.inr rfl⟩
    | some due => exact Or.inr ⟨due.1, due.2.1, due.2.2, _, (dueKey_eq_some hdue).1, rfl, rfl⟩

theorem Inv.check (h : Inv d) (now : UInt32) (answers : CheckAnswers) :
    Inv (d.checkClientKeys config now answers) := by
  rcases d.checkClientKeys_cases config now answers with ⟨-, heq | heq⟩ | ⟨slot, key, uri, found, hkey, -, heq⟩
  · rw [heq]
    exact h
  · rw [heq]
    exact h.beginRound config now
  · rw [heq]
    exact ((h.beginRound config now).locate hkey answers).settleKey uri found

theorem Inv.step (h : Inv d) {e : Event} (hclean : StartsClean d e) (hstep : d.step config e = some d') : Inv d' := by
  cases e with
  | request session_id signature =>
    change d.onRequest config session_id signature = some d' at hstep
    rw [onRequest] at hstep
    split at hstep
    · obtain rfl := Option.some.inj hstep
      exact h
    · rename_i client_key hclient
      obtain ⟨slots, hslots, rfl⟩ := Option.map_eq_some_iff.mp hstep
      exact h.quiet hslots (fun _ _ he => by cases he) (checkClientSigningKey_ending config hclient)
  | slots e =>
    change d.onSlots e = some d' at hstep
    unfold onSlots at hstep
    split at hstep
    · cases hstep
    · split at hstep
      · rename_i slot hfound
        exact h.start hfound hclean hstep
      · cases hstep
    · exact h.cleanup hstep
    · rename_i hno _
      obtain ⟨slots, hslots, rfl⟩ := Option.map_eq_some_iff.mp hstep
      exact h.quiet hslots (fun relay_cfg answers he => hno relay_cfg answers he) h.fresh
  | check now answers =>
    obtain ⟨_, -, hstep⟩ := Option.bind_eq_some_iff.mp hstep
    obtain rfl := Option.some.inj hstep
    exact h.check config now answers

theorem Inv.mem_settleKey_stopped (h : Inv d) {uri : String} {found : KeyCheck} {j : ℕ} :
    j ∈ (d.settleKey uri found).stopped ↔ j ∈ d.stopped ∨
      found.Withdrawn ∧ (∃ slot, d.occupant slot = some j) ∧ d.sessions[j]? = some (some uri) := by
  rw [Daemon.settleKey]
  dsimp only
  split
  · rename_i hwithdrawn
    rw [List.mem_append, mem_toStop_iff]
    constructor
    · rintro (hj | ⟨slot, hholds, hslot⟩)
      · exact Or.inl hj
      · obtain ⟨key, hkey, huri, -⟩ := holds_iff.mp hholds
        have hwatched := watched_eq hkey
        rw [huri, h.watched] at hwatched
        obtain ⟨j', hj', hsession⟩ := hwatched
        obtain rfl := Option.some.inj (hslot.symm.trans hj')
        exact Or.inr ⟨hwithdrawn, ⟨slot, hslot⟩, hsession⟩
    · rintro (hj | ⟨-, ⟨slot, hslot⟩, hsession⟩)
      · exact Or.inl hj
      · have hwatched := (h.watched slot uri).mpr ⟨j, hslot, hsession⟩
        obtain ⟨key, hkey, huri⟩ := Option.bind_eq_some_iff.mp hwatched
        cases hending : key.ending with
        | true => exact Or.inl ((h.ending slot key j hkey (by rw [huri]; rfl) hslot).mp hending)
        | false => exact Or.inr ⟨slot, holds_iff.mpr ⟨key, hkey, huri, hending⟩, hslot⟩
  · rename_i hwithdrawn
    rw [or_iff_left fun hand => hwithdrawn hand.1]

theorem beginRound_same (d : Daemon) (now : UInt32) : (d.beginRound config now).stopped = d.stopped ∧
    (d.beginRound config now).occupants = d.occupants ∧ (d.beginRound config now).sessions = d.sessions := by
  rw [Daemon.beginRound]
  split
  · exact ⟨rfl, rfl, rfl⟩
  · exact ⟨rfl, rfl, rfl⟩

theorem onSlots_stopped {e : ArduinoSlots.Event} (h : d.onSlots e = some d') : d'.stopped = d.stopped := by
  unfold onSlots at h
  split at h
  · cases h
  · split at h
    · obtain ⟨relay, -, h⟩ := Option.bind_eq_some_iff.mp h
      obtain ⟨slots, -, h⟩ := Option.bind_eq_some_iff.mp h
      dsimp only at h
      split at h
      · obtain rfl := Option.some.inj h
        rfl
      · obtain rfl := Option.some.inj h
        rfl
    · cases h
  · obtain ⟨relay, -, h⟩ := Option.bind_eq_some_iff.mp h
    obtain ⟨slots, -, h⟩ := Option.bind_eq_some_iff.mp h
    split at h
    · obtain rfl := Option.some.inj h
      rfl
    · obtain rfl := Option.some.inj h
      rfl
  · obtain ⟨slots, -, rfl⟩ := Option.map_eq_some_iff.mp h
    rfl

/-- A session is stopped by the check that finds its key withdrawn, and by no other step. -/
theorem Inv.mem_stopped_step (h : Inv d) {e : Event} (hstep : d.step config e = some d') (j : ℕ) :
    j ∈ d'.stopped ↔ j ∈ d.stopped ∨ Found config j d e := by
  have hquiet (hno : ∀ now answers, e ≠ .check now answers) (hsame : d'.stopped = d.stopped) :
      j ∈ d'.stopped ↔ j ∈ d.stopped ∨ Found config j d e := by
    rw [hsame, or_iff_left]
    rintro ⟨now, answers, _, _, _, he, -⟩
    exact hno now answers he
  cases e with
  | request session_id signature =>
    apply hquiet fun _ _ he => by cases he
    change d.onRequest config session_id signature = some d' at hstep
    rw [onRequest] at hstep
    split at hstep
    · obtain rfl := Option.some.inj hstep
      rfl
    · obtain ⟨slots, -, rfl⟩ := Option.map_eq_some_iff.mp hstep
      rfl
  | slots e => exact hquiet (fun _ _ he => by cases he) (onSlots_stopped hstep)
  | check now answers =>
    obtain ⟨_, -, hstep⟩ := Option.bind_eq_some_iff.mp hstep
    obtain rfl := Option.some.inj hstep
    obtain ⟨hstopped, hoccupants, hsessions⟩ := beginRound_same config d now
    rcases d.checkClientKeys_cases config now answers with ⟨hnone, heq⟩ | ⟨slot, key, uri, found, hkey, hchecks, heq⟩
    · have hsame : (d.checkClientKeys config now answers).stopped = d.stopped := by
        rcases heq with heq | heq
        · rw [heq]
        · rw [heq, hstopped]
      rw [hsame, or_iff_left]
      rintro ⟨_, _, uri, found, slot, he, hchecks, -⟩
      cases he
      rw [hnone] at hchecks
      cases hchecks
    · have hinv := (h.beginRound config now).locate hkey answers
      have hoccupant (slot : ℕ) : occupant { d.beginRound config now with
          client_keys := (d.beginRound config now).client_keys.set slot (key.located answers) } slot =
          d.occupant slot := congrArg (fun xs => xs[slot]?.join) hoccupants
      rw [heq, hinv.mem_settleKey_stopped, hstopped, hsessions]
      apply or_congr Iff.rfl
      constructor
      · rintro ⟨hwithdrawn, ⟨slot, hslot⟩, hsession⟩
        exact ⟨now, answers, uri, found, slot, rfl, hchecks, hwithdrawn, hoccupant slot ▸ hslot, hsession⟩
      · rintro ⟨_, _, uri', found', slot, he, hchecks', hwithdrawn, hslot, hsession⟩
        cases he
        rw [hchecks] at hchecks'
        obtain ⟨rfl, rfl⟩ := Prod.mk.inj (Option.some.inj hchecks')
        exact ⟨hwithdrawn, ⟨slot, (hoccupant slot).trans hslot⟩, hsession⟩

variable {config}

theorem inv_run {n : ℕ} {es : List Event} {t : Daemon}
    (hclean : (machine config).Meets StartsClean (constructed n) es)
    (hr : (machine config).run (constructed n) es = some t) : Inv t :=
  (machine config).invariant_of_meets (fun _ _ _ h hclean hstep => Inv.step config h hclean hstep)
    (inv_constructed n) hclean hr

theorem agree_of_startsClean {n : ℕ} {es : List Event} {t : Daemon}
    (hclean : (machine config).Meets StartsClean (constructed n) es)
    (hr : (machine config).run (constructed n) es = some t) : Agree config n es t := by
  have h := inv_run hclean hr
  refine ⟨h.watched, ?_, h.once, h.live⟩
  have hmem : Inv t ∧ ∀ j, j ∈ t.stopped ↔ (machine config).At (constructed n) es (Found config j) := by
    apply (machine config).run_induction_of_meets (I := fun es t => Inv t ∧ ∀ j, j ∈ t.stopped ↔
      (machine config).At (constructed n) es (Found config j)) _ _ hclean hr
    · refine ⟨inv_constructed n, fun j => iff_of_false List.not_mem_nil ?_⟩
      rintro ⟨pre, e, post, u, hes, -⟩
      cases pre with
      | nil => cases hes
      | cons d pre => cases hes
    · rintro es e u v hu ⟨hinv, ih⟩ hg hstep
      refine ⟨hinv.step config hg hstep, fun j => ?_⟩
      rw [hinv.mem_stopped_step config hstep, ih j]
      constructor
      · rintro (hat | hnow)
        · exact hat.later e
        · exact Machine.At.now hu hnow
      · intro hat
        exact hat.of_concat hu
  exact hmem.2

/-! ### A signed session, and an unsigned one that takes its slot before the clean-up -/

def sampleConfig : Config := ⟨10, false⟩

def sampleKey : String := "public:_apsk.e1.a.__e@alice"

/-- A request is given its slot; the blocks of its session are those from `p` on. -/
def begins (session_id : String) (signature : EnrollmentSignature) (p : ArduinoSlots.Ptr) : List Event :=
  [.request session_id signature, .slots (.probe false), .slots .compare,
    .slots (.start (ArduinoSlots.Daemon.sampleConfig p) (ArduinoSlots.Daemon.sampleAnswers (p + 4)))]

def signed : List Event := begins "s1" (.verified sampleKey "host" 64) 10

/-- The key is found revoked, ten seconds after the start. -/
def foundRevoked : Event :=
  .check 10000 ⟨.notFound, none, true, true, .failed, some .found, none⟩

theorem agree_of_startsClean_sample : ∃ t, (machine sampleConfig).run (constructed 5) (signed ++ [foundRevoked]) = some t ∧
    t.watched 0 = some sampleKey ∧ t.stopped = [0] ∧ Agree sampleConfig 5 (signed ++ [foundRevoked]) t := by
  have hrun : (machine sampleConfig).run (constructed 5) (signed ++ [foundRevoked]) = some _ := rfl
  refine ⟨_, hrun, rfl, rfl, agree_of_startsClean ?_ hrun⟩
  refine Machine.meets_cons _ (fun _ _ he => by cases he) rfl ?_
  refine Machine.meets_cons _ (fun _ _ he => by cases he) rfl ?_
  refine Machine.meets_cons _ (fun _ _ he => by cases he) rfl ?_
  refine Machine.meets_cons _ ?_ rfl ?_
  · intro relay_cfg answers he slot hfound
    cases hfound
    refine ⟨fun relay hrelay j hj => ?_, Or.inl rfl⟩
    obtain rfl := Option.some.inj hrelay
    cases hj
  · exact Machine.meets_cons _ (fun _ _ he => by cases he) rfl trivial

/-- The relay of the first session cannot connect, and cleans up. -/
def ends : List Event :=
  [.slots (.task 0 .next), .slots (.task 0 .next), .slots (.task 0 .next), .slots (.task 0 .fails)] ++
    List.replicate 14 (.slots (.task 0 .next))

def unsignedAfterSigned : List Event := signed ++ ends ++ begins "s2" .absent 20 ++ [foundRevoked]

/-- The unsigned session is watched with the key of the one before it, and is stopped because of it. -/
theorem unsigned_stopped : ∃ t, (machine sampleConfig).run (constructed 5) unsignedAfterSigned = some t ∧
    t.watched 0 = some sampleKey ∧ t.occupant 0 = some 1 ∧ t.sessions = [some sampleKey, none] ∧
    t.slots.tasks = [⟨0, .returned⟩, ⟨0, .created⟩] ∧ t.stopped = [1] ∧
    ¬Agree sampleConfig 5 unsignedAfterSigned t := by
  refine ⟨_, rfl, rfl, rfl, rfl, rfl, rfl, fun hagree => ?_⟩
  obtain ⟨j, hj, hsession⟩ := (hagree.watched_iff 0 sampleKey).mp rfl
  obtain rfl := Option.some.inj hj
  cases hsession

end Daemon
end NoPorts.ArduinoClientKeys
