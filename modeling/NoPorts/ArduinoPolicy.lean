import Mathlib.Data.List.ReduceOption
import NoPorts.CDaemonRequests
import NoPorts.Lib.Machine

/-! The policy mode of the Arduino daemon: one check at a time is asked of the policy atSign, for a ping or
for an npt request whose envelope waits for the answer, beside the cache of decisions and the cooldown. -/
namespace NoPorts.ArduinoPolicy
open Lib CDaemon

/-- The bytes of a string before its null. -/
abbrev Text := List UInt8

/-! ### noports_policy_limits.c -/

def NOPORTS_POLICY_CACHE_TTL_MS : ℤ := 15000
def NOPORTS_POLICY_CACHE_MAX_SIZE : ℕ := 64
def NOPORTS_POLICY_COOLDOWN_SLOTS : ℕ := 8
def NOPORTS_POLICY_COOLDOWN_MS : ℤ := 2000
def NOPORTS_POLICY_WAIT_MS : ℤ := 10000
def NOPORTS_POLICY_WAIT_CAP_MS : ℤ := 30000
def NOPORTS_DECRYPT_RECONNECT_MS : ℤ := 30000
def NOPORTS_ATSIGN_BUFFER_LEN : ℕ := 57

/-- `'@'` and `'.'` -/
def atByte : UInt8 := 64
def dotByte : UInt8 := 46

def reserved_characters : Text := "!*'\x60();:&=+$,/?#[]\x7b\x7d".toList.map fun c => c.toNat.toUInt8

def refusedByte (c : UInt8) : Bool :=
  c == atByte || c ≤ 0x1F || c == 0x7F || c == 0x20 || reserved_characters.contains c

def lowerByte (c : UInt8) : UInt8 := if 65 ≤ c ∧ c ≤ 90 then c + 32 else c

/-- What follows a leading `@`. -/
def dropAt : Text → Text
  | [] => []
  | c :: cs => if c = atByte then cs else c :: cs

/-- The loop, with `o` bytes written. -/
def normalizeLoop : ℕ → Text → Option Text
  | _, [] => some []
  | o, c :: cs =>
    if refusedByte c then none
    else if c = dotByte then normalizeLoop o cs
    else if NOPORTS_ATSIGN_BUFFER_LEN ≤ o + 1 then none
    else (normalizeLoop (o + 1) cs).map (lowerByte c :: ·)

def noports_normalize_atsign (atsign : Text) : Option Text :=
  if atsign = [] then none
  else
    match normalizeLoop 1 (dropAt atsign) with
    | none => none
    | some [] => none
    | some out => some (atByte :: out)

/-- The two name one atSign. -/
def noports_atsign_equals (a b : Option Text) : Bool :=
  match a.bind noports_normalize_atsign, b.bind noports_normalize_atsign with
  | some na, some nb => na == nb
  | _, _ => false

structure Decision where
  authorized : Bool
  permit_open : List String
  deriving DecidableEq, Repr

structure CacheEntry where
  atsign : Text
  checked_at_ms : ℤ
  decision : Decision
  deriving DecidableEq, Repr

/-- `copy_decision`, which can fail only where it allocates. -/
def copyDecision (src : Decision) (allocated : Bool) : Option Decision :=
  if src.permit_open = [] ∨ allocated then some src else none

/-- The entries of the cache, `none` for one that isn't used. -/
abbrev Cache := List (Option CacheEntry)

def noports_policy_cache_lookup (cache : Cache) (atsign : Text) (now_ms : ℤ) (allocated : Bool) :
    Option Decision := do
  let normalized ← noports_normalize_atsign atsign
  let entry ← cache.reduceOption.find? (·.atsign == normalized)
  if now_ms - entry.checked_at_ms ≥ NOPORTS_POLICY_CACHE_TTL_MS then none
  else copyDecision entry.decision allocated

def noports_policy_cache_store (cache : Cache) (atsign : Text) (decision : Decision) (now_ms : ℤ)
    (allocated : Bool) : Cache :=
  if cache = [] then cache
  else
    match noports_normalize_atsign atsign with
    | none => cache
    | some normalized =>
      cache.set (chooseSlot (·.atsign == normalized) (·.checked_at_ms) cache)
        ((copyDecision decision allocated).map fun copy => ⟨normalized, now_ms, copy⟩)

inductive CheckKind where
  | ping
  | npt
  deriving DecidableEq, Repr

structure CooldownSlot where
  atsign : Text
  /-- When each kind was checked last, `none` if it was not. -/
  checked_at_ms : CheckKind → Option ℤ

def INT64_MIN : ℤ := -9223372036854775808

def last_active_ms (slot : CooldownSlot) : ℤ :=
  max ((slot.checked_at_ms .ping).getD INT64_MIN) ((slot.checked_at_ms .npt).getD INT64_MIN)

abbrev Cooldown := List (Option CooldownSlot)

/-- The cooldown afterwards, `none` when it doesn't allow the check. -/
def noports_policy_cooldown_allows (cooldown : Cooldown) (atsign : Text) (kind : CheckKind) (now_ms : ℤ) :
    Option Cooldown := do
  let normalized ← noports_normalize_atsign atsign
  let slot := (cooldown.reduceOption.find? (·.atsign == normalized)).getD ⟨normalized, fun _ => none⟩
  if (slot.checked_at_ms kind).any fun last => now_ms - last < NOPORTS_POLICY_COOLDOWN_MS then none
  else
    return cooldown.set (chooseSlot (·.atsign == normalized) last_active_ms cooldown)
      (some { slot with checked_at_ms := fun k => if k = kind then some now_ms else slot.checked_at_ms k })

def noports_policy_wait_over (started_ms progress_ms now_ms : ℤ) : Bool :=
  now_ms - progress_ms > NOPORTS_POLICY_WAIT_MS || now_ms - started_ms > NOPORTS_POLICY_WAIT_CAP_MS

def noports_policy_resend_after_decrypt_failure (pending : Bool) (sender policy_atsign : Option Text) : Bool :=
  pending && noports_atsign_equals sender policy_atsign

def noports_reconnect_after_decrypt_failure (last_ms now_ms : ℤ) : Bool :=
  last_ms < 0 || now_ms - last_ms ≥ NOPORTS_DECRYPT_RECONNECT_MS

/-! ### noports_daemon.cpp -/

/-- `_atsign_equals`: equal but for a leading `@` on either. -/
def atsignEquals (a b : Option Text) : Bool :=
  match a, b with
  | some a, some b => dropAt a == dropAt b
  | _, _ => false

/-- `_next_policy_req_id` -/
def nextPolicyReqId (counter : UInt32) : UInt32 := if counter + 1 = 0 then 1 else counter + 1

/-- What is pending, with the envelope that an npt check owns. -/
inductive PendingType where
  | ping
  | npt (envelope : ℕ)
  deriving DecidableEq, Repr

structure PolicyPending where
  type : PendingType
  req_id : UInt32
  started_at_ms : ℤ
  progress_at_ms : ℤ
  /-- What a buffer of 64 bytes holds. -/
  requesting_atsign : Text
  /-- Who sent the request, in full. -/
  sender : Text
  deriving DecidableEq, Repr

def PendingType.envelope : PendingType → Option ℕ
  | .ping => none
  | .npt envelope => some envelope

inductive ResponseType where
  | ack
  | success
  | error
  | nack
  deriving DecidableEq, Repr

/-- A JSON string as a C one. -/
def cText (s : String) : String := String.ofList (s.toList.takeWhile (· ≠ '\x00'))

/-- The first 16 entries of `permitOpen` that are strings of less than 64 bytes. -/
def permitOpenEntries (po_arr : Option Json) : List String :=
  match po_arr with
  | some (.arr items) =>
    ((items.filterMap fun item => item.str?.map cText).filter (·.utf8ByteSize < 64)).take 16
  | _ => []

/-- What the value of a success response decides, `none` for one that can't be read. -/
def readDecision (value : Option Json) : Decision :=
  let pl := getObjectItem value "payload"
  ⟨isTrue (getObjectItem pl "authorized"), permitOpenEntries (getObjectItem pl "permitOpen")⟩

inductive Output where
  | authCheck (req_id : UInt32) (client_atsign : Text)
  /-- `_handlePingAuthorized` -/
  | heartbeat (from_atsign : Text)
  /-- `_continueNptRequest`, which owns the envelope from then on. -/
  | continueNpt (envelope : ℕ) (requesting_atsign : Text) (policy_po : List String)
  /-- `_sendNptError` for the session that the envelope names. -/
  | nptError (to_atsign : Text) (envelope : ℕ) (error_msg : String)
  | reconnectWorker
  deriving DecidableEq, Repr

structure Config where
  policy_atsign : Text
  /-- Built when the daemon begins, `none` when there was no memory for it. -/
  ping_response : Option String

structure Daemon where
  policy_req_counter : UInt32
  policy_decisions : Cache
  policy_cooldown : Cooldown
  policy_pending : Option PolicyPending
  decrypt_reconnect_at_ms : ℤ
  /-- Who sent each envelope that has been parsed, by its number. -/
  envelopes : List Text
  freed : List ℕ
  outputs : List Output

/-- What `_handleNptRequest` makes of a request's value before it asks who may connect. -/
inductive Parsed where
  | unreadable
  /-- It has no session id that is a UUID, or no signature of its sender. -/
  | refused
  | verified
  deriving DecidableEq, Repr

/-- `clock` is what `_now_ms` answers, in order. -/
inductive Event where
  | ping (sender : Text) (clock : ℕ → ℤ) (allocated sent : Bool)
  | npt (sender : Text) (parsed : Parsed) (clock : ℕ → ℤ) (allocated sent : Bool)
  /-- A response key, what it holds, and the value once it is parsed. -/
  | response (sender : Option Text) (rpc_resp : Option (ResponseType × UInt32)) (value : Option Json)
      (clock : ℕ → ℤ) (allocated : Bool)
  | decryptFailure (sender : Option Text) (clock : ℕ → ℤ) (sent : Bool)
  /-- `loop` looks at the time. -/
  | tick (clock : ℕ → ℤ)

/-- A ping or an npt request. -/
def Event.IsRequest : Event → Prop
  | .ping .. | .npt .. => True
  | _ => False

namespace Daemon
variable (config : Config)

def emit (d : Daemon) (output : Output) : Daemon := { d with outputs := d.outputs ++ [output] }

/-- `cJSON_Delete` -/
def delete (d : Daemon) (envelope : ℕ) : Daemon := { d with freed := d.freed ++ [envelope] }

def cleanupPolicyPending (d : Daemon) : Daemon :=
  { d with
    policy_pending := none
    freed := d.freed ++ (d.policy_pending.bind (·.type.envelope)).toList }

/-- `_sendPolicyRpcRequest` for the check that is now pending. -/
def sendPolicyRpcRequest (d : Daemon) (pending : PolicyPending) (client_atsign : Text) (sent : Bool) : Daemon :=
  let d := { d with policy_pending := some pending }
  if sent then d.emit (.authCheck pending.req_id client_atsign) else d.cleanupPolicyPending

/-- The slot is filled, and the check is sent. -/
def openCheck (d : Daemon) (type : PendingType) (sender : Text) (now_ms : ℤ) (sent : Bool) : Daemon :=
  let req_id := nextPolicyReqId d.policy_req_counter
  { d with policy_req_counter := req_id }.sendPolicyRpcRequest
    ⟨type, req_id, now_ms, now_ms, sender.take 63, sender⟩ sender sent

def cachePolicyDecision (d : Daemon) (atsign : Text) (decision : Decision) (now_ms : ℤ) (allocated : Bool) :
    Daemon :=
  { d with policy_decisions := noports_policy_cache_store d.policy_decisions atsign decision now_ms allocated }

def handlePing (d : Daemon) (sender : Text) (clock : ℕ → ℤ) (allocated sent : Bool) : Daemon :=
  if config.ping_response.isNone then d
  else
    match noports_policy_cooldown_allows d.policy_cooldown sender .ping (clock 0) with
    | none => d
    | some policy_cooldown =>
      let d := { d with policy_cooldown }
      match noports_policy_cache_lookup d.policy_decisions sender (clock 1) allocated with
      | some cached => if cached.authorized then d.emit (.heartbeat sender) else d
      | none => if d.policy_pending.isSome then d else d.openCheck .ping sender (clock 2) sent

/-- `_handleNptRequest` once the envelope's signature is verified. -/
def authoriseNpt (d : Daemon) (envelope : ℕ) (sender : Text) (clock : ℕ → ℤ) (allocated sent : Bool) : Daemon :=
  match noports_policy_cache_lookup d.policy_decisions sender (clock 1) allocated with
  | some cached =>
    if cached.authorized then d.emit (.continueNpt envelope sender (cached.permit_open.take 16))
    else (d.emit (.nptError sender envelope "Access denied by policy server")).delete envelope
  | none =>
    match d.policy_pending with
    | none => d.openCheck (.npt envelope) sender (clock 2) sent
    | some pending =>
      if pending.type = .ping then d.cleanupPolicyPending.openCheck (.npt envelope) sender (clock 2) sent
      else d.delete envelope

def handleNptRequest (d : Daemon) (sender : Text) (parsed : Parsed) (clock : ℕ → ℤ) (allocated sent : Bool) :
    Daemon :=
  match noports_policy_cooldown_allows d.policy_cooldown sender .npt (clock 0) with
  | none => d
  | some policy_cooldown =>
    let d := { d with policy_cooldown }
    let envelope := d.envelopes.length
    match parsed with
    | .unreadable => d
    | .refused => { d with envelopes := d.envelopes ++ [sender] }.delete envelope
    | .verified =>
      { d with envelopes := d.envelopes ++ [sender] }.authoriseNpt envelope sender clock allocated sent

/-- The client of a check that ends without a permission is told so. -/
def tellDenied (d : Daemon) (pending : PolicyPending) (error_msg : String) : Daemon :=
  match pending.type with
  | .ping => d
  | .npt envelope => d.emit (.nptError pending.requesting_atsign envelope error_msg)

/-- The check that is pending has its decision. -/
def finishCheck (d : Daemon) (pending : PolicyPending) (decision : Decision) (now_ms : ℤ) (allocated : Bool) :
    Daemon :=
  let d := d.cachePolicyDecision pending.requesting_atsign decision now_ms allocated
  if !decision.authorized then
    (d.tellDenied pending "Access denied by policy server").cleanupPolicyPending
  else
    match pending.type with
    | .ping => (d.emit (.heartbeat pending.requesting_atsign)).cleanupPolicyPending
    | .npt envelope =>
      { d with policy_pending := none }.emit
        (.continueNpt envelope (pending.requesting_atsign.take 63) decision.permit_open)

def handlePolicyResponse (d : Daemon) (sender : Option Text) (rpc_resp : Option (ResponseType × UInt32))
    (value : Option Json) (clock : ℕ → ℤ) (allocated : Bool) : Daemon :=
  if !atsignEquals sender (some config.policy_atsign) then d
  else
    match rpc_resp, d.policy_pending with
    | none, _ | _, none => d
    | some (resp_type, req_id), some pending =>
      if pending.req_id ≠ req_id then d
      else
        match resp_type with
        | .ack => { d with policy_pending := some { pending with progress_at_ms := clock 0 } }
        | .success => d.finishCheck pending (readDecision value) (clock 0) allocated
        | .error | .nack => d.finishCheck pending ⟨false, []⟩ (clock 0) allocated

/-- The worker is reconnected, unless it was a short while ago. -/
def reconnectAfter (d : Daemon) (clock : ℕ → ℤ) : Daemon :=
  if noports_reconnect_after_decrypt_failure d.decrypt_reconnect_at_ms (clock 0) then
    { d with decrypt_reconnect_at_ms := clock 1 }.emit .reconnectWorker
  else d

def handleDecryptFailure (d : Daemon) (sender : Option Text) (clock : ℕ → ℤ) (sent : Bool) : Daemon :=
  match (d.reconnectAfter clock).policy_pending with
  | none => d.reconnectAfter clock
  | some pending =>
    if noports_policy_resend_after_decrypt_failure true sender (some config.policy_atsign) then
      let req_id := nextPolicyReqId (d.reconnectAfter clock).policy_req_counter
      { d.reconnectAfter clock with policy_req_counter := req_id }.sendPolicyRpcRequest
        { pending with req_id, progress_at_ms := clock 2 } pending.requesting_atsign sent
    else d.reconnectAfter clock

/-- `loop` before it reads a message. -/
def checkTimeout (d : Daemon) (clock : ℕ → ℤ) : Daemon :=
  match d.policy_pending with
  | none => d
  | some pending =>
    if noports_policy_wait_over pending.started_at_ms pending.progress_at_ms (clock 0) then
      ((d.cachePolicyDecision pending.requesting_atsign ⟨false, []⟩ (clock 1) true).tellDenied pending
        "Policy server did not respond in time").cleanupPolicyPending
    else d

def step (d : Daemon) : Event → Daemon
  | .ping sender clock allocated sent => d.handlePing config sender clock allocated sent
  | .npt sender parsed clock allocated sent => d.handleNptRequest sender parsed clock allocated sent
  | .response sender rpc_resp value clock allocated =>
    d.handlePolicyResponse config sender rpc_resp value clock allocated
  | .decryptFailure sender clock sent => d.handleDecryptFailure config sender clock sent
  | .tick clock => d.checkTimeout clock

def machine : Machine Daemon Event := ⟨fun d e => some (d.step config e)⟩

/-- The daemon as it begins, with a cache of `size` decisions and a counter seeded at random. -/
def begun (size : ℕ) (seed : UInt32) : Option Daemon :=
  if size > NOPORTS_POLICY_CACHE_MAX_SIZE then none
  else
    some ⟨seed, List.replicate size none, List.replicate NOPORTS_POLICY_COOLDOWN_SLOTS none, none, -1, [], [], []⟩

/-! ### What an answer rests on -/

/-- The two are spellings of one atSign. -/
def SameAtsign (a b : Text) : Prop :=
  ∃ normalized, noports_normalize_atsign a = some normalized ∧ noports_normalize_atsign b = some normalized

/-- An entry of the cache authorises the sender, and was made less than the time to live before. -/
def Cached (d : Daemon) (sender : Text) (now_ms : ℤ) (policy_po : List String) : Prop :=
  ∃ entry, some entry ∈ d.policy_decisions ∧ noports_normalize_atsign sender = some entry.atsign ∧
    entry.decision.authorized = true ∧ now_ms - entry.checked_at_ms < NOPORTS_POLICY_CACHE_TTL_MS ∧
      policy_po = entry.decision.permit_open.take 16

/-- The policy atSign answers the check that is pending, and authorises its client. -/
def Answered (d : Daemon) (e : Event) (pending : PolicyPending) (decision : Decision) (now_ms : ℤ) : Prop :=
  ∃ sender value clock allocated,
    e = .response sender (some (.success, pending.req_id)) value clock allocated ∧
      atsignEquals sender (some config.policy_atsign) = true ∧ d.policy_pending = some pending ∧
        decision = readDecision value ∧ decision.authorized = true ∧ now_ms = clock 0

/-- What the event, which comes in `d`, lets the daemon do. -/
def Rightly (d : Daemon) (e : Event) : Output → Prop
  | .heartbeat from_atsign =>
    (∃ clock allocated sent policy_po,
      e = .ping from_atsign clock allocated sent ∧ d.Cached from_atsign (clock 1) policy_po) ∨
    ∃ pending decision now_ms, d.Answered config e pending decision now_ms ∧ pending.type = .ping ∧
      SameAtsign from_atsign pending.sender
  | .continueNpt envelope requesting_atsign policy_po =>
    (∃ clock allocated sent, e = .npt requesting_atsign .verified clock allocated sent ∧
      envelope = d.envelopes.length ∧ d.Cached requesting_atsign (clock 1) policy_po) ∨
    ∃ pending decision now_ms, d.Answered config e pending decision now_ms ∧ pending.type = .npt envelope ∧
      d.envelopes[envelope]? = some pending.sender ∧ SameAtsign requesting_atsign pending.sender ∧
        policy_po = decision.permit_open
  | _ => True

/-- The event fills the slot with a check for this sender. -/
def Opens (d : Daemon) (sender : Text) : Event → Prop
  | .ping sender' clock allocated _ =>
    sender' = sender ∧ config.ping_response.isSome ∧
      (noports_policy_cooldown_allows d.policy_cooldown sender .ping (clock 0)).isSome ∧
        noports_policy_cache_lookup d.policy_decisions sender (clock 1) allocated = none ∧
          d.policy_pending = none
  | .npt sender' parsed clock allocated _ =>
    sender' = sender ∧ parsed = .verified ∧
      (noports_policy_cooldown_allows d.policy_cooldown sender .npt (clock 0)).isSome ∧
        noports_policy_cache_lookup d.policy_decisions sender (clock 1) allocated = none ∧
          ∀ pending, d.policy_pending = some pending → pending.type = .ping
  | _ => False

/-- A check is opened only for a sender whose name the buffer of the slot can hold. -/
def Fits (d : Daemon) (e : Event) : Prop :=
  ∀ sender, d.Opens config sender e →
    noports_normalize_atsign (sender.take 63) = noports_normalize_atsign sender

/-- The envelopes handed on, and the one that waits for a decision. -/
def handed (d : Daemon) : List ℕ :=
  d.outputs.filterMap fun
    | .continueNpt envelope _ _ => some envelope
    | _ => none

def waiting (d : Daemon) : List ℕ := (d.policy_pending.bind (·.type.envelope)).toList

/-- A check was sent under its request id, for its client. -/
def Asked (d : Daemon) (pending : PolicyPending) : Prop :=
  ∃ client_atsign, .authCheck pending.req_id client_atsign ∈ d.outputs ∧ SameAtsign client_atsign pending.sender

/-- A run's checks are bound to their clients: `es` leads from `start` to `t`. -/
structure BoundToClient (start : Daemon) (es : List Event) (t : Daemon) : Prop where
  answers : ∀ (pre : List Event) (e : Event) (post : List Event) (u : Daemon), es = pre ++ e :: post →
    (machine config).run start pre = some u →
      ∃ new, (u.step config e).outputs = u.outputs ++ new ∧ ∀ o ∈ new, u.Rightly config e o
  cached : ∀ entry, some entry ∈ t.policy_decisions → entry.decision.authorized = true →
    (machine config).At start es fun u e => ∃ pending, u.Answered config e pending entry.decision entry.checked_at_ms ∧
      noports_normalize_atsign pending.sender = some entry.atsign
  asked : ∀ pending, t.policy_pending = some pending → t.Asked pending
  kept : ∀ (pre : List Event) (e : Event) (post : List Event) (u : Daemon) (pending : PolicyPending) (envelope : ℕ),
    es = pre ++ e :: post → (machine config).run start pre = some u → e.IsRequest →
      u.policy_pending = some pending → pending.type = .npt envelope →
        (u.step config e).policy_pending = some pending
  envelopes : (t.freed ++ t.handed ++ t.waiting).Perm (List.range t.envelopes.length)

variable {config} {start u d : Daemon} {es : List Event} {e : Event} {held : List ℕ}

/-- What the slot holds about the check that is pending. -/
structure PendingOk (d : Daemon) (pending : PolicyPending) : Prop where
  same : SameAtsign pending.requesting_atsign pending.sender
  short : pending.requesting_atsign.length ≤ 63
  owner : ∀ envelope, pending.type = .npt envelope → d.envelopes[envelope]? = some pending.sender
  asked : d.Asked pending

def CachedRightly (config : Config) (start : Daemon) (es : List Event) (d : Daemon) : Prop :=
  ∀ entry, some entry ∈ d.policy_decisions → entry.decision.authorized = true →
    (machine config).At start es fun u e => ∃ pending, u.Answered config e pending entry.decision entry.checked_at_ms ∧
      noports_normalize_atsign pending.sender = some entry.atsign

/-- Within the event `e` that comes in `u`: what has been done so far is right, and of the envelopes the
handler still holds `held`. -/
structure Good (config : Config) (start : Daemon) (es : List Event) (u : Daemon) (e : Event) (held : List ℕ)
    (d : Daemon) : Prop where
  outputs : ∃ new, d.outputs = u.outputs ++ new ∧ ∀ o ∈ new, u.Rightly config e o
  pending : ∀ pending, d.policy_pending = some pending → d.PendingOk pending
  cached : CachedRightly config start es d
  envelopes : (d.freed ++ d.handed ++ d.waiting ++ held).Perm (List.range d.envelopes.length)

/-- An entry that a store leaves in use was there before, or is the one stored. -/
theorem mem_store {cache : Cache} {atsign : Text} {decision : Decision} {now_ms : ℤ} {allocated : Bool}
    {entry : CacheEntry} (h : some entry ∈ noports_policy_cache_store cache atsign decision now_ms allocated) :
    some entry ∈ cache ∨ noports_normalize_atsign atsign = some entry.atsign ∧ entry.checked_at_ms = now_ms ∧
      entry.decision = decision := by
  rw [noports_policy_cache_store] at h
  split at h
  · exact Or.inl h
  · split at h
    · exact Or.inl h
    · rename_i normalized hnorm
      rcases List.mem_or_eq_of_mem_set h with hold | hnew
      · exact Or.inl hold
      · obtain ⟨copy, hcopy, hentry⟩ := Option.map_eq_some_iff.mp hnew.symm
        rw [copyDecision] at hcopy
        split at hcopy
        · obtain rfl := Option.some.inj hcopy
          rw [← hentry]
          exact Or.inr ⟨hnorm, rfl, rfl⟩
        · cases hcopy

/-- A decision that the cache hands out is one of its entries. -/
theorem cached_of_lookup {sender : Text} {now_ms : ℤ} {allocated : Bool} {cached : Decision}
    (h : noports_policy_cache_lookup d.policy_decisions sender now_ms allocated = some cached)
    (hauth : cached.authorized = true) : d.Cached sender now_ms (cached.permit_open.take 16) := by
  obtain ⟨normalized, hnorm, h⟩ := Option.bind_eq_some_iff.mp h
  obtain ⟨entry, hentry, h⟩ := Option.bind_eq_some_iff.mp h
  split at h
  · cases h
  · rename_i hfresh
    rw [copyDecision] at h
    split at h
    · obtain rfl := Option.some.inj h
      have hmem := List.mem_of_find?_eq_some hentry
      have hsame : entry.atsign = normalized := by simpa using List.find?_some hentry
      refine ⟨entry, List.reduceOption_mem_iff.mp hmem, by rw [hnorm, hsame], hauth, not_le.mp hfresh, rfl⟩
    · cases h

theorem sameAtsign_of_allows {cooldown cooldown' : Cooldown} {sender : Text} {kind : CheckKind} {now_ms : ℤ}
    (h : noports_policy_cooldown_allows cooldown sender kind now_ms = some cooldown') : SameAtsign sender sender := by
  obtain ⟨normalized, hnorm, -⟩ := Option.bind_eq_some_iff.mp h
  exact ⟨normalized, hnorm, hnorm⟩

theorem waiting_none (h : d.policy_pending = none) : d.waiting = [] := by
  rw [waiting, h]
  rfl

theorem waiting_some {pending : PolicyPending} (h : d.policy_pending = some pending) :
    d.waiting = pending.type.envelope.toList := by
  rw [waiting, h]
  rfl

theorem handed_emit {output : Output} (h : ∀ envelope client po, output ≠ .continueNpt envelope client po) :
    (d.emit output).handed = d.handed := by
  rw [handed, emit, List.filterMap_append]
  cases output with
  | continueNpt envelope client po => exact absurd rfl (h envelope client po)
  | _ => exact List.append_nil _

theorem handed_continueNpt (envelope : ℕ) (client : Text) (po : List String) :
    (d.emit (.continueNpt envelope client po)).handed = d.handed ++ [envelope] := by
  rw [handed, emit, List.filterMap_append]
  rfl

theorem Asked.mono {d' : Daemon} {pending : PolicyPending} (h : d.Asked pending)
    (hsub : ∀ o ∈ d.outputs, o ∈ d'.outputs) : d'.Asked pending := by
  obtain ⟨client_atsign, hmem, hsame⟩ := h
  exact ⟨client_atsign, hsub _ hmem, hsame⟩

theorem PendingOk.mono {d' : Daemon} {pending : PolicyPending} (h : d.PendingOk pending)
    (henvelopes : d'.envelopes = d.envelopes) (hsub : ∀ o ∈ d.outputs, o ∈ d'.outputs) : d'.PendingOk pending := by
  refine ⟨h.same, h.short, fun envelope htype => ?_, h.asked.mono hsub⟩
  rw [henvelopes]
  exact h.owner envelope htype

namespace Good

/-- Fields that no answer rests on may change. -/
theorem frame {d' : Daemon} (h : Good config start es u e held d) (houtputs : d'.outputs = d.outputs)
    (hpending : d'.policy_pending = d.policy_pending) (hdecisions : d'.policy_decisions = d.policy_decisions)
    (henvelopes : d'.envelopes = d.envelopes) (hfreed : d'.freed = d.freed) : Good config start es u e held d' := by
  refine ⟨by rw [houtputs]; exact h.outputs, fun pending hp => ?_, ?_, ?_⟩
  · refine (h.pending pending (hpending ▸ hp)).mono henvelopes fun o ho => ?_
    rwa [houtputs]
  · rw [CachedRightly, hdecisions]
    exact h.cached
  · rw [handed, waiting, houtputs, hpending, henvelopes, hfreed]
    exact h.envelopes

theorem emit (h : Good config start es u e held d) {o : Output} (hright : u.Rightly config e o)
    (hno : ∀ envelope client po, o ≠ .continueNpt envelope client po) : Good config start es u e held (d.emit o) := by
  obtain ⟨new, hnew, hall⟩ := h.outputs
  refine ⟨⟨new ++ [o], ?_, ?_⟩, fun pending hp => ?_, h.cached, ?_⟩
  · rw [Daemon.emit, hnew, List.append_assoc]
  · intro o' ho
    rcases List.mem_append.mp ho with ho | ho
    · exact hall o' ho
    · obtain rfl := List.mem_singleton.mp ho
      exact hright
  · exact (h.pending pending hp).mono rfl fun o' ho => List.mem_append_left _ ho
  · rw [handed_emit hno]
    exact h.envelopes

/-- An envelope that the handler holds is handed on. -/
theorem continueNpt {envelope : ℕ} {client : Text} {po : List String} (h : Good config start es u e [envelope] d)
    (hright : u.Rightly config e (.continueNpt envelope client po)) :
    Good config start es u e [] (d.emit (.continueNpt envelope client po)) := by
  obtain ⟨new, hnew, hall⟩ := h.outputs
  refine ⟨⟨new ++ [.continueNpt envelope client po], ?_, ?_⟩, fun pending hp => ?_, h.cached, ?_⟩
  · rw [Daemon.emit, hnew, List.append_assoc]
  · intro o ho
    rcases List.mem_append.mp ho with ho | ho
    · exact hall o ho
    · obtain rfl := List.mem_singleton.mp ho
      exact hright
  · exact (h.pending pending hp).mono rfl fun o ho => List.mem_append_left _ ho
  · refine List.Perm.trans ?_ h.envelopes
    rw [handed_continueNpt, List.append_nil, ← List.append_assoc, List.append_assoc _ [envelope],
      List.append_assoc _ d.waiting]
    exact List.Perm.append_left _ List.perm_append_comm

/-- An envelope that the handler holds is deleted. -/
theorem delete {envelope : ℕ} (h : Good config start es u e [envelope] d) :
    Good config start es u e [] (d.delete envelope) := by
  refine ⟨h.outputs, fun pending hp => (h.pending pending hp).mono rfl fun o ho => ho, h.cached, ?_⟩
  refine List.Perm.trans ?_ h.envelopes
  change (d.freed ++ [envelope] ++ d.handed ++ d.waiting ++ []).Perm _
  rw [List.append_nil, List.append_assoc, List.append_assoc, List.append_assoc, List.append_assoc d.freed]
  rw [← List.append_assoc d.handed]
  exact List.Perm.append_left _ List.perm_append_comm

theorem cleanupPolicyPending (h : Good config start es u e held d) :
    Good config start es u e held d.cleanupPolicyPending := by
  refine ⟨h.outputs, fun pending hp => (by cases hp), h.cached, ?_⟩
  refine List.Perm.trans ?_ h.envelopes
  change (d.freed ++ d.waiting ++ d.handed ++ [] ++ held).Perm _
  rw [List.append_nil, List.append_assoc d.freed, List.append_assoc d.freed d.handed]
  exact List.Perm.append_right _ (List.Perm.append_left _ List.perm_append_comm)

/-- The envelope of the check that is pending comes into the handler's hands. -/
theorem release (h : Good config start es u e [] d) :
    Good config start es u e d.waiting { d with policy_pending := none } := by
  refine ⟨h.outputs, fun pending hp => (by cases hp), h.cached, ?_⟩
  have henvelopes := h.envelopes
  rw [List.append_nil] at henvelopes
  change (d.freed ++ d.handed ++ [] ++ d.waiting).Perm _
  rwa [List.append_nil]

/-- The slot takes over the envelope that the handler holds. -/
theorem fill {p : PolicyPending} (h : Good config start es u e p.type.envelope.toList d)
    (hnone : d.policy_pending = none) (hok : d.PendingOk p) :
    Good config start es u e [] { d with policy_pending := some p } := by
  refine ⟨h.outputs, fun q hq => ?_, h.cached, ?_⟩
  · obtain rfl := Option.some.inj hq
    exact hok.mono rfl fun o ho => ho
  · have henvelopes := h.envelopes
    rw [waiting_none hnone, List.append_nil] at henvelopes
    change (d.freed ++ d.handed ++ p.type.envelope.toList ++ []).Perm _
    rwa [List.append_nil]

/-- A check is sent for the client, or its envelope is freed. -/
theorem sendPolicyRpcRequest {p : PolicyPending} {client_atsign : Text}
    (h : Good config start es u e p.type.envelope.toList d) (hnone : d.policy_pending = none)
    (hsame : SameAtsign p.requesting_atsign p.sender) (hshort : p.requesting_atsign.length ≤ 63)
    (howner : ∀ envelope, p.type = .npt envelope → d.envelopes[envelope]? = some p.sender)
    (hclient : SameAtsign client_atsign p.sender) (sent : Bool) :
    Good config start es u e [] (d.sendPolicyRpcRequest p client_atsign sent) := by
  rw [Daemon.sendPolicyRpcRequest]
  split
  · have hemit := h.emit (o := .authCheck p.req_id client_atsign) trivial fun _ _ _ hc => by cases hc
    apply hemit.fill hnone
    refine ⟨hsame, hshort, howner, client_atsign, ?_, hclient⟩
    exact List.mem_append_right _ (List.mem_singleton_self _)
  · refine ⟨h.outputs, fun pending hp => (by cases hp), h.cached, ?_⟩
    refine List.Perm.trans ?_ h.envelopes
    rw [waiting_none hnone]
    change (d.freed ++ p.type.envelope.toList ++ d.handed ++ [] ++ []).Perm _
    rw [List.append_nil, List.append_nil, List.append_nil, List.append_assoc, List.append_assoc]
    exact List.Perm.append_left _ List.perm_append_comm

/-- A request is parsed, and the handler holds its envelope. -/
theorem parse (h : Good config start es u e [] d) (sender : Text) :
    Good config start es u e [d.envelopes.length] { d with envelopes := d.envelopes ++ [sender] } := by
  refine ⟨h.outputs, fun pending hp => ?_, h.cached, ?_⟩
  · have hok := h.pending pending hp
    refine ⟨hok.same, hok.short, fun envelope htype => ?_, hok.asked⟩
    have howner := hok.owner envelope htype
    rwa [List.getElem?_append_left (List.getElem?_eq_some_iff.mp howner).1]
  · rw [List.length_append, List.length_singleton, List.range_succ]
    have henvelopes := h.envelopes
    rw [List.append_nil] at henvelopes
    exact henvelopes.append_right _

/-- A decision is remembered for the client of the check that was pending. -/
theorem cachePolicyDecision {p : PolicyPending} {decision : Decision} {now_ms : ℤ}
    (h : Good config start (es ++ [e]) u e held d) (hu : (machine config).run start es = some u)
    (hsame : SameAtsign p.requesting_atsign p.sender)
    (hanswered : decision.authorized = true → u.Answered config e p decision now_ms) (allocated : Bool) :
    Good config start (es ++ [e]) u e held
      (d.cachePolicyDecision p.requesting_atsign decision now_ms allocated) := by
  refine ⟨h.outputs, fun pending hp => (h.pending pending hp).mono rfl fun o ho => ho, fun entry hentry hauth => ?_,
    h.envelopes⟩
  rcases mem_store hentry with hold | ⟨hnorm, hms, hdecision⟩
  · exact h.cached entry hold hauth
  · rw [hdecision] at hauth
    obtain ⟨normalized, hrequesting, hsender⟩ := hsame
    obtain rfl := Option.some.inj (hnorm.symm.trans hrequesting)
    refine Machine.At.now hu ⟨p, ?_, hsender⟩
    rw [hdecision, hms]
    exact hanswered hauth

theorem openCheck {type : PendingType} {sender : Text} {now_ms : ℤ} {sent : Bool}
    (h : Good config start es u e held d) (hheld : held = type.envelope.toList)
    (hnone : d.policy_pending = none) (hself : SameAtsign sender sender)
    (hfits : noports_normalize_atsign (sender.take 63) = noports_normalize_atsign sender)
    (howner : ∀ envelope, type = .npt envelope → d.envelopes[envelope]? = some sender) :
    Good config start es u e [] (d.openCheck type sender now_ms sent) := by
  subst hheld
  have hframe : Good config start es u e type.envelope.toList
      { d with policy_req_counter := nextPolicyReqId d.policy_req_counter } := h.frame rfl rfl rfl rfl rfl
  refine Good.sendPolicyRpcRequest (p := ⟨type, nextPolicyReqId d.policy_req_counter, now_ms, now_ms,
    sender.take 63, sender⟩) hframe hnone ?_ ?_ howner hself sent
  · obtain ⟨normalized, hnorm, -⟩ := hself
    exact ⟨normalized, hfits.trans hnorm, hnorm⟩
  · exact List.length_take_le 63 sender

end Good

/-- Of a state that a run has reached. -/
structure Inv (config : Config) (start : Daemon) (es : List Event) (t : Daemon) : Prop where
  pending : ∀ pending, t.policy_pending = some pending → t.PendingOk pending
  cached : CachedRightly config start es t
  envelopes : (t.freed ++ t.handed ++ t.waiting).Perm (List.range t.envelopes.length)

theorem Inv.good (h : Inv config start es u) (e : Event) : Good config start (es ++ [e]) u e [] u := by
  refine ⟨⟨[], (List.append_nil _).symm, fun o ho => absurd ho List.not_mem_nil⟩, h.pending, fun entry hentry hauth => ?_, ?_⟩
  · exact (h.cached entry hentry hauth).later e
  · rw [List.append_nil]
    exact h.envelopes

theorem Good.inv (h : Good config start es u e [] d) : Inv config start es d := by
  refine ⟨h.pending, h.cached, ?_⟩
  have henvelopes := h.envelopes
  rwa [List.append_nil] at henvelopes

theorem handlePing_good (h : Inv config start es u) {sender : Text} {clock : ℕ → ℤ} {allocated sent : Bool}
    (hfits : u.Fits config (.ping sender clock allocated sent)) :
    Good config start (es ++ [.ping sender clock allocated sent]) u (.ping sender clock allocated sent) []
      (u.handlePing config sender clock allocated sent) := by
  have hgood := h.good (.ping sender clock allocated sent)
  unfold handlePing
  split
  · exact hgood
  · rename_i hresponse
    split
    · exact hgood
    · rename_i policy_cooldown hallows
      have hcooled : Good config start (es ++ [.ping sender clock allocated sent]) u
          (.ping sender clock allocated sent) [] { u with policy_cooldown } := hgood.frame rfl rfl rfl rfl rfl
      dsimp only
      split
      · rename_i cached hcached
        split
        · rename_i hauth
          apply hcooled.emit _ fun _ _ _ hc => by cases hc
          exact Or.inl ⟨clock, allocated, sent, _, rfl, cached_of_lookup hcached hauth⟩
        · exact hcooled
      · rename_i hlookup
        split
        · exact hcooled
        · rename_i hfree
          have hnone : u.policy_pending = none := by simpa using hfree
          apply hcooled.openCheck rfl hnone (sameAtsign_of_allows hallows) _ fun _ htype => by cases htype
          apply hfits
          refine ⟨rfl, ?_, ?_, hlookup, hnone⟩
          · exact Option.isSome_iff_ne_none.mpr fun hnone => hresponse (by rw [hnone]; rfl)
          · rw [hallows]
            rfl

theorem handleNptRequest_good (h : Inv config start es u) {sender : Text} {parsed : Parsed} {clock : ℕ → ℤ}
    {allocated sent : Bool} (hfits : u.Fits config (.npt sender parsed clock allocated sent)) :
    Good config start (es ++ [.npt sender parsed clock allocated sent]) u (.npt sender parsed clock allocated sent) []
      (u.handleNptRequest sender parsed clock allocated sent) := by
  have hgood := h.good (.npt sender parsed clock allocated sent)
  unfold handleNptRequest
  split
  · exact hgood
  · rename_i policy_cooldown hallows
    have hcooled : Good config start (es ++ [.npt sender parsed clock allocated sent]) u
        (.npt sender parsed clock allocated sent) [] { u with policy_cooldown } := hgood.frame rfl rfl rfl rfl rfl
    dsimp only
    split
    · exact hcooled
    · exact (hcooled.parse sender).delete
    · have hparsed := hcooled.parse sender
      have hopened (hlookup : noports_policy_cache_lookup u.policy_decisions sender (clock 1) allocated = none)
          (hping : ∀ pending, u.policy_pending = some pending → pending.type = .ping) :
          noports_normalize_atsign (sender.take 63) = noports_normalize_atsign sender := by
        apply hfits
        refine ⟨rfl, rfl, ?_, hlookup, hping⟩
        rw [hallows]
        rfl
      have howner (envelope : ℕ) (htype : PendingType.npt u.envelopes.length = .npt envelope) :
          (u.envelopes ++ [sender])[envelope]? = some sender := by
        cases htype
        exact List.getElem?_concat_length
      rw [authoriseNpt]
      split
      · rename_i cached hcached
        split
        · rename_i hauth
          apply hparsed.continueNpt
          exact Or.inl ⟨clock, allocated, sent, rfl, rfl, cached_of_lookup hcached hauth⟩
        · apply Good.delete
          exact hparsed.emit trivial fun _ _ _ hc => by cases hc
      · rename_i hlookup
        split
        · rename_i hnone
          apply hparsed.openCheck rfl hnone (sameAtsign_of_allows hallows) _ howner
          exact hopened hlookup fun pending hp => by cases hnone.symm.trans hp
        · rename_i pending hpending
          split
          · rename_i hping
            apply hparsed.cleanupPolicyPending.openCheck rfl rfl (sameAtsign_of_allows hallows) _ howner
            apply hopened hlookup
            intro p hp
            obtain rfl := Option.some.inj (hpending.symm.trans hp)
            exact hping
          · exact hparsed.delete

theorem tellDenied_good (h : Good config start es u e held d) (pending : PolicyPending) (error_msg : String) :
    Good config start es u e held (d.tellDenied pending error_msg) := by
  rw [tellDenied]
  split
  · exact h
  · exact h.emit trivial fun _ _ _ hc => by cases hc

/-- A decision is right for the check that is pending: one that authorises comes from the policy atSign. -/
theorem finishCheck_good (h : Inv config start es u) (hu : (machine config).run start es = some u)
    {pending : PolicyPending} (hpending : u.policy_pending = some pending) {decision : Decision} {now_ms : ℤ}
    {allocated : Bool} (hanswered : decision.authorized = true → u.Answered config e pending decision now_ms) :
    Good config start (es ++ [e]) u e [] (u.finishCheck pending decision now_ms allocated) := by
  have hok := h.pending pending hpending
  have hstored := (h.good e).cachePolicyDecision hu hok.same hanswered allocated
  unfold finishCheck
  dsimp only
  split
  · exact (tellDenied_good hstored _ _).cleanupPolicyPending
  · rename_i hauth
    have hanswer := hanswered (by simpa using hauth)
    split
    · rename_i htype
      apply Good.cleanupPolicyPending
      apply hstored.emit _ fun _ _ _ hc => by cases hc
      exact Or.inr ⟨pending, decision, now_ms, hanswer, htype, hok.same⟩
    · rename_i envelope htype
      have hheld := hstored.release
      have hwaiting : (u.cachePolicyDecision pending.requesting_atsign decision now_ms allocated).waiting = [envelope] := by
        rw [waiting_some (d := u.cachePolicyDecision _ _ _ _) hpending, htype]
        rfl
      rw [hwaiting] at hheld
      rw [List.take_of_length_le hok.short]
      apply hheld.continueNpt
      exact Or.inr ⟨pending, decision, now_ms, hanswer, htype, hok.owner envelope htype, hok.same, rfl⟩

theorem handlePolicyResponse_good (h : Inv config start es u) (hu : (machine config).run start es = some u)
    (sender : Option Text) (rpc_resp : Option (ResponseType × UInt32)) (value : Option Json) (clock : ℕ → ℤ)
    (allocated : Bool) :
    Good config start (es ++ [.response sender rpc_resp value clock allocated]) u
      (.response sender rpc_resp value clock allocated) []
      (u.handlePolicyResponse config sender rpc_resp value clock allocated) := by
  have hgood := h.good (.response sender rpc_resp value clock allocated)
  unfold handlePolicyResponse
  split
  · exact hgood
  · rename_i hpolicy
    have hpolicy : atsignEquals sender (some config.policy_atsign) = true := by simpa using hpolicy
    split
    · exact hgood
    · exact hgood
    · rename_i resp_type req_id pending hpending
      split
      · exact hgood
      · rename_i hid
        obtain rfl := not_ne_iff.mp hid
        split
        · have hwaiting := hgood.release
          rw [waiting_some hpending] at hwaiting
          have hok := h.pending pending hpending
          exact hwaiting.fill (p := { pending with progress_at_ms := clock 0 }) rfl
            ⟨hok.same, hok.short, hok.owner, hok.asked⟩
        · apply finishCheck_good h hu hpending
          intro hauth
          exact ⟨sender, value, clock, allocated, rfl, hpolicy, hpending, rfl, hauth, rfl⟩
        · exact finishCheck_good h hu hpending fun hauth => by cases hauth
        · exact finishCheck_good h hu hpending fun hauth => by cases hauth

theorem handleDecryptFailure_good (h : Inv config start es u) (sender : Option Text) (clock : ℕ → ℤ) (sent : Bool) :
    Good config start (es ++ [.decryptFailure sender clock sent]) u (.decryptFailure sender clock sent) []
      (u.handleDecryptFailure config sender clock sent) := by
  have hgood := h.good (.decryptFailure sender clock sent)
  have hreconnected : Good config start (es ++ [.decryptFailure sender clock sent]) u
      (.decryptFailure sender clock sent) [] (u.reconnectAfter clock) := by
    rw [reconnectAfter]
    split
    · have hframe : Good config start (es ++ [.decryptFailure sender clock sent]) u
          (.decryptFailure sender clock sent) [] { u with decrypt_reconnect_at_ms := clock 1 } :=
        hgood.frame rfl rfl rfl rfl rfl
      exact hframe.emit (o := .reconnectWorker) trivial fun _ _ _ hc => by cases hc
    · exact hgood
  rw [handleDecryptFailure]
  split
  · exact hreconnected
  · rename_i pending hpending
    split
    · have hok := hreconnected.pending pending hpending
      have hwaiting := hreconnected.release
      rw [waiting_some hpending] at hwaiting
      have hframe : Good config start (es ++ [.decryptFailure sender clock sent]) u
          (.decryptFailure sender clock sent) pending.type.envelope.toList
          { u.reconnectAfter clock with
            policy_pending := none
            policy_req_counter := nextPolicyReqId (u.reconnectAfter clock).policy_req_counter } :=
        hwaiting.frame rfl rfl rfl rfl rfl
      exact hframe.sendPolicyRpcRequest (p := { pending with
        req_id := nextPolicyReqId (u.reconnectAfter clock).policy_req_counter
        progress_at_ms := clock 2 }) rfl hok.same hok.short hok.owner hok.same sent
    · exact hreconnected

theorem checkTimeout_good (h : Inv config start es u) (hu : (machine config).run start es = some u) (clock : ℕ → ℤ) :
    Good config start (es ++ [.tick clock]) u (.tick clock) [] (u.checkTimeout clock) := by
  have hgood := h.good (.tick clock)
  rw [checkTimeout]
  split
  · exact hgood
  · rename_i pending hpending
    split
    · apply Good.cleanupPolicyPending
      apply tellDenied_good
      exact hgood.cachePolicyDecision hu (h.pending pending hpending).same (fun hauth => by cases hauth) true
    · exact hgood

/-- What one event does is right, whatever the state it comes in. -/
theorem step_good (h : Inv config start es u) (hu : (machine config).run start es = some u) (hfits : u.Fits config e) :
    Good config start (es ++ [e]) u e [] (u.step config e) := by
  cases e with
  | ping sender clock allocated sent => exact handlePing_good h hfits
  | npt sender parsed clock allocated sent => exact handleNptRequest_good h hfits
  | response sender rpc_resp value clock allocated => exact handlePolicyResponse_good h hu _ _ _ _ _
  | decryptFailure sender clock sent => exact handleDecryptFailure_good h _ _ _
  | tick clock => exact checkTimeout_good h hu clock

theorem inv_begun {size : ℕ} {seed : UInt32} (hbegun : begun size seed = some start) : Inv config start [] start := by
  unfold begun at hbegun
  split at hbegun
  · cases hbegun
  · obtain rfl := Option.some.inj hbegun
    refine ⟨fun pending hp => (by cases hp), fun entry hentry => ?_, List.Perm.refl []⟩
    cases (List.mem_replicate.mp hentry).2

theorem inv_run {size : ℕ} {seed : UInt32} {t : Daemon} (hbegun : begun size seed = some start)
    (hfits : (machine config).Meets (Fits config) start es) (hr : (machine config).run start es = some t) :
    Inv config start es t := by
  apply (machine config).run_induction_of_meets (I := Inv config start) (inv_begun hbegun) _ hfits hr
  intro es e u v hu h hg hstep
  rw [← Option.some.inj hstep]
  exact (step_good h hu hg).inv

/-- No request touches the npt check that is pending. -/
theorem kept_of_request {pending : PolicyPending} {envelope : ℕ} (hrequest : e.IsRequest)
    (hpending : u.policy_pending = some pending) (htype : pending.type = .npt envelope) :
    (u.step config e).policy_pending = some pending := by
  cases e with
  | ping sender clock allocated sent =>
    change (u.handlePing config sender clock allocated sent).policy_pending = _
    unfold handlePing
    split
    · exact hpending
    · split
      · exact hpending
      · dsimp only
        split
        · split
          · exact hpending
          · exact hpending
        · rw [hpending]
          exact congrArg policy_pending (if_pos rfl)
  | npt sender parsed clock allocated sent =>
    change (u.handleNptRequest sender parsed clock allocated sent).policy_pending = _
    unfold handleNptRequest
    split
    · exact hpending
    · dsimp only
      split
      · exact hpending
      · exact hpending
      · rw [authoriseNpt]
        split
        · split
          · exact hpending
          · exact hpending
        · rw [hpending]
          dsimp only
          rw [htype, if_neg (by rintro ⟨⟩)]
          rfl
  | _ => cases hrequest

/-- In every run in which a check is opened only for a sender whose name the slot's buffer can hold, every
answer rests on a permission of its own client, and no envelope is lost or used twice. -/
theorem bound_of_fits {size : ℕ} {seed : UInt32} {t : Daemon} (hbegun : begun size seed = some start)
    (hfits : (machine config).Meets (Fits config) start es) (hr : (machine config).run start es = some t) :
    BoundToClient config start es t := by
  have hinv := inv_run hbegun hfits hr
  refine ⟨?_, hinv.cached, fun pending hp => (hinv.pending pending hp).asked, ?_, hinv.envelopes⟩
  · rintro pre e post u rfl hu
    obtain ⟨hpre, hpost⟩ := (machine config).meets_append.mp hfits
    exact (step_good (inv_run hbegun hpre hu) hu (hpost u hu).1).outputs
  · rintro pre e post u pending envelope rfl - hrequest hpending htype
    exact kept_of_request hrequest hpending htype

/-! ### A client whose name fits the slot, and one whose name is cut to that of another -/

def bytes (s : String) : Text := s.toList.map fun c => c.toNat.toUInt8

def sampleConfig : Config := ⟨bytes "@policy", some "\x7b\x7d"⟩

def sampleStart : Daemon := ⟨0, [none], [none, none, none, none, none, none, none, none], none, -1, [], [], []⟩

theorem begun_sample : begun 1 0 = some sampleStart := rfl

def alice : Text := bytes "@alice"

/-- An atSign in a spelling of 69 bytes. -/
def aliceBob : Text := alice ++ List.replicate 60 dotByte ++ bytes "bob"

def npt (sender : Text) : Event := .npt sender .verified (fun _ => 0) true true

/-- The policy atSign lets the client of the first check connect to anything. -/
def permits : Event :=
  .response (some (bytes "@policy")) (some (.success, 1))
    (some (.obj [("payload", .obj [("authorized", .bool true), ("permitOpen", .arr [.str "*:*"])])])) (fun _ => 1) true

theorem bound_of_fits_sample : ∃ t, (machine sampleConfig).run sampleStart [npt alice, permits] = some t ∧
    t.outputs = [.authCheck 1 alice, .continueNpt 0 alice ["*:*"]] ∧
      BoundToClient sampleConfig sampleStart [npt alice, permits] t := by
  have hrun : (machine sampleConfig).run sampleStart [npt alice, permits] = some _ := rfl
  refine ⟨_, hrun, rfl, bound_of_fits begun_sample ?_ hrun⟩
  refine Machine.meets_cons _ ?_ rfl (Machine.meets_cons _ (fun _ hopens => hopens.elim) rfl trivial)
  rintro sender ⟨rfl, -⟩
  rfl

theorem cut_differs : ¬SameAtsign (aliceBob.take 63) aliceBob := by
  rintro ⟨normalized, hcut, hfull⟩
  have hcut' : noports_normalize_atsign (aliceBob.take 63) = some alice := rfl
  have hfull' : noports_normalize_atsign aliceBob = some (alice ++ bytes "bob") := rfl
  have hsame : alice = alice ++ bytes "bob" :=
    (Option.some.inj (hcut'.symm.trans hcut)).trans (Option.some.inj (hfull.symm.trans hfull'))
  exact absurd (congrArg List.length hsame) (by decide)

/-- The request of one client is continued under the name of another, who is let in by the cache from
then on without any check. -/
theorem long_name_cut : ∃ t,
    (machine sampleConfig).run sampleStart
      [npt aliceBob, permits, .ping alice (fun _ => 2) true true] = some t ∧
    t.outputs = [.authCheck 1 aliceBob, .continueNpt 0 (aliceBob.take 63) ["*:*"], .heartbeat alice] ∧
    t.envelopes = [aliceBob] ∧ noports_normalize_atsign (aliceBob.take 63) = some alice ∧
    noports_normalize_atsign aliceBob = some (alice ++ bytes "bob") ∧
      ¬BoundToClient sampleConfig sampleStart [npt aliceBob, permits, .ping alice (fun _ => 2) true true] t := by
  refine ⟨_, rfl, rfl, rfl, rfl, rfl, fun hbound => ?_⟩
  obtain ⟨new, hnew, hright⟩ := hbound.answers [npt aliceBob] permits [.ping alice (fun _ => 2) true true] _ rfl rfl
  have hmem : Output.continueNpt 0 (aliceBob.take 63) ["*:*"] ∈ new := by
    have hnew' : [Output.authCheck 1 aliceBob, .continueNpt 0 (aliceBob.take 63) ["*:*"]] =
        [Output.authCheck 1 aliceBob] ++ new := hnew
    rw [List.singleton_append] at hnew'
    rw [← List.tail_eq_of_cons_eq hnew']
    exact List.mem_singleton_self _
  rcases hright _ hmem with ⟨_, _, _, he, -⟩ | ⟨pending, decision, now_ms, hanswered, -, -, hsame, -⟩
  · cases he
  · obtain ⟨_, _, _, _, -, -, hpending, -⟩ := hanswered
    have hsender : aliceBob = pending.sender := congrArg PolicyPending.sender (Option.some.inj hpending)
    rw [← hsender] at hsame
    exact cut_differs hsame

end Daemon
end NoPorts.ArduinoPolicy
