import NoPorts.Lib.Machine
import Mathlib.Algebra.Order.Ring.Int
import Mathlib.Data.List.Count

/-! The sessions of the C srv in multi mode: what its control loop and its session threads count under
`session_mutex`, and the end of the loop when there has been no session for a time. -/
namespace NoPorts.SrvSessions
open Lib

def SRV_MAX_SESSIONS : ℤ := 128

def SRV_DEFAULT_TIMEOUT_SECONDS : ℤ := 30

/-- What `session_mutex` guards. -/
structure Shared where
  activeSessions : ℤ
  idleSince : ℤ

def sessionStarted (g : Shared) : Shared := { g with activeSessions := g.activeSessions + 1 }

def sessionEnded (g : Shared) (now : ℤ) : Shared :=
  let active := g.activeSessions - 1
  ⟨active, if active = 0 then now else g.idleSince⟩

def connectionTimeoutExpired (g : Shared) (timeoutSeconds now : ℤ) : Bool :=
  g.activeSessions = 0 && timeoutSeconds ≤ now - g.idleSince

/-- What a line of the control channel is read as. -/
inductive Request
  | malformed
  | unknown
  | connect (noEncrypt : Bool)

/-- What `mbedtls_net_recv_timeout` and what is made of its bytes come to. -/
inductive Received
  | timeout
  /-- The channel is over, or cannot be read or taken apart. -/
  | failed
  | noCompleteLine
  | requests (rs : List Request)

/-- What allocating for a connect request comes to: the transformers, unless the request is for no encryption,
and the thread's parameters. -/
inductive Allocation
  | noMemory
  | badKeys
  | done

/-- Where `run_srv_daemon_side_multi` is. -/
inductive Control
  /-- Before `idle_since` is set. -/
  | setUp
  | checking
  | receiving
  | handling (rs : List Request)
  /-- A connect request has been found below the cap. -/
  | allocating (noEncrypt : Bool) (rs : List Request)
  | counting (rs : List Request)
  /-- The session has been counted, and its thread is to be created. -/
  | creating (session : ℕ) (rs : List Request)
  | undoing (session : ℕ)
  /-- It ended at this time because no session was active. -/
  | inactive (t : ℤ)
  | failed

inductive Phase
  /-- Counted, but without a thread. -/
  | counted
  | running
  | ended (t : ℤ)

/-- A session that has been counted as started. -/
structure Session where
  started : ℤ
  phase : Phase

def Session.isOpen (s : Session) : Bool :=
  match s.phase with
  | .counted | .running => true
  | .ended _ => false

/-- The session is counted at some moment of the second `t`. -/
def Session.ActiveAt (s : Session) (t : ℤ) : Prop := s.started ≤ t ∧ ∀ e, s.phase = .ended e → t ≤ e

structure World where
  shared : Shared
  control : Control
  sessions : List Session
  clock : ℤ

namespace World

def initial (clock : ℤ) : World := ⟨⟨0, 0⟩, .setUp, [], clock⟩

def goto (w : World) (control : Control) : World := { w with control := control }

/-- The critical section of `session_started`. -/
def counts (w : World) (rs : List Request) : World :=
  { w with
    shared := sessionStarted w.shared
    sessions := w.sessions ++ [⟨w.clock, .counted⟩]
    control := .creating w.sessions.length rs }

/-- The critical section of `session_ended`. -/
def ends (w : World) (i : ℕ) (s : Session) : World :=
  { w with
    shared := sessionEnded w.shared w.clock
    sessions := w.sessions.set i { s with phase := .ended w.clock } }

end World

inductive Action
  | enter (ready : Bool)
  | checkTimeout
  | receive (r : Received)
  | nextRequest
  | allocate (a : Allocation)
  | count
  | create (created : Bool)
  | undo
  /-- The end of `run_socket_to_socket`. -/
  | threadEnds (session : ℕ)

/-- Where the control loop goes on. -/
def Received.next : Received → Control
  | .timeout | .noCompleteLine => .checking
  | .failed => .failed
  | .requests rs => .handling rs

/-- Keys are looked at only for encryption. -/
def Allocation.next (noEncrypt : Bool) (rs : List Request) : Allocation → Option Control
  | .noMemory => some .failed
  | .badKeys => if noEncrypt then none else some (.handling rs)
  | .done => some (.counting rs)

/-- `timeout` is `params->timeout`. -/
def timeoutSeconds (timeout : ℤ) : ℤ := if 0 < timeout then timeout else SRV_DEFAULT_TIMEOUT_SECONDS

/-- A step of the control loop, or the end of a thread, at the time of the clock. -/
def act (timeout : ℤ) (w : World) : Action → Option World
  | .enter ready =>
    match w.control with
    | .setUp =>
      some (if ready then { w with shared := { w.shared with idleSince := w.clock }, control := .checking }
        else w.goto .failed)
    | _ => none
  | .checkTimeout =>
    match w.control with
    | .checking =>
      some (w.goto (if connectionTimeoutExpired w.shared (timeoutSeconds timeout) w.clock then .inactive w.clock
        else .receiving))
    | _ => none
  | .receive r =>
    match w.control with
    | .receiving => some (w.goto r.next)
    | _ => none
  | .nextRequest =>
    match w.control with
    | .handling [] => some (w.goto .checking)
    | .handling (.malformed :: rs) => some (w.goto (.handling rs))
    | .handling (.unknown :: rs) => some (w.goto (.handling rs))
    | .handling (.connect noEncrypt :: rs) =>
      -- the first critical section: the cap
      some (w.goto (if w.shared.activeSessions ≥ SRV_MAX_SESSIONS then .handling rs else .allocating noEncrypt rs))
    | _ => none
  | .allocate a =>
    match w.control with
    | .allocating noEncrypt rs => (a.next noEncrypt rs).map w.goto
    | _ => none
  | .count =>
    match w.control with
    | .counting rs => some (w.counts rs)
    | _ => none
  | .create created =>
    match w.control with
    | .creating i rs =>
      match w.sessions[i]? with
      | some s =>
        some (if created then { w with sessions := w.sessions.set i { s with phase := .running }, control := .handling rs }
          else w.goto (.undoing i))
      | none => none
    | _ => none
  | .undo =>
    match w.control with
    | .undoing i => w.sessions[i]?.map fun s => (w.ends i s).goto .failed
    | _ => none
  | .threadEnds i =>
    match w.sessions[i]? with
    | some ⟨started, .running⟩ => some (w.ends i ⟨started, .running⟩)
    | _ => none

structure Event where
  now : ℤ
  action : Action

/-- The clock does not go back. -/
def step (timeout : ℤ) (w : World) (e : Event) : Option World :=
  if w.clock ≤ e.now then act timeout { w with clock := e.now } e.action else none

def machine (timeout : ℤ) : Machine World Event := ⟨step timeout⟩

/-! ### Every interleaving -/

/-- What the control loop relies on where it is, whatever the threads do meanwhile. -/
def Knows (timeout : ℤ) (g : Shared) (sessions : List Session) : Control → Prop
  -- only the loop itself raises the count, so that there is still room when it does
  | .allocating _ _ | .counting _ => g.activeSessions < SRV_MAX_SESSIONS
  | .creating i _ | .undoing i => ∃ started, sessions[i]? = some ⟨started, .counted⟩
  | .inactive t => ∀ s ∈ sessions, ∃ e, s.phase = .ended e ∧ e + timeoutSeconds timeout ≤ t
  | .setUp | .checking | .receiving | .handling _ | .failed => True

structure Inv (timeout : ℤ) (w : World) : Prop where
  counted : w.shared.activeSessions = w.sessions.countP Session.isOpen
  cap : w.shared.activeSessions ≤ SRV_MAX_SESSIONS
  past : ∀ s ∈ w.sessions, ∀ e, s.phase = .ended e → e ≤ w.clock
  idle : w.shared.activeSessions = 0 → ∀ s ∈ w.sessions, ∀ e, s.phase = .ended e → e ≤ w.shared.idleSince
  control : Knows timeout w.shared w.sessions w.control

variable {timeout : ℤ} {w : World}

theorem inv_initial (timeout clock : ℤ) : Inv timeout (World.initial clock) where
  counted := rfl
  cap := Int.natCast_nonneg 128
  past := fun _ h => absurd h List.not_mem_nil
  idle := fun _ _ h => absurd h List.not_mem_nil
  control := trivial

theorem Session.isOpen_eq_false {s : Session} (h : ¬s.isOpen = true) : ∃ e, s.phase = .ended e := by
  obtain ⟨started, phase⟩ := s
  cases phase with
  | counted => exact absurd rfl h
  | running => exact absurd rfl h
  | ended e => exact ⟨e, rfl⟩

theorem Inv.tick (h : Inv timeout w) {now : ℤ} (hnow : w.clock ≤ now) : Inv timeout { w with clock := now } :=
  { h with past := fun s hs e he => (h.past s hs e he).trans hnow }

theorem Inv.goto (h : Inv timeout w) {c : Control} (hc : Knows timeout w.shared w.sessions c) :
    Inv timeout (w.goto c) := { h with control := hc }

/-- Once no session is active, and none has been for the time-out, they have all ended before. -/
theorem Inv.inactive (h : Inv timeout w)
    (hexpired : connectionTimeoutExpired w.shared (timeoutSeconds timeout) w.clock = true) :
    Knows timeout w.shared w.sessions (.inactive w.clock) := by
  obtain ⟨hzero, hidle⟩ := Bool.and_eq_true_iff.mp hexpired
  have hactive := of_decide_eq_true hzero
  have hlate := of_decide_eq_true hidle
  have hnone : w.sessions.countP Session.isOpen = 0 := by
    have hcounted := h.counted
    omega
  intro s hs
  obtain ⟨e, he⟩ := Session.isOpen_eq_false (List.countP_eq_zero.mp hnone s hs)
  have hle := h.idle hactive s hs e he
  exact ⟨e, he, by omega⟩

theorem Inv.counts (h : Inv timeout w) {rs : List Request} (hc : w.control = .counting rs) :
    Inv timeout (w.counts rs) := by
  have hroom : Knows timeout w.shared w.sessions (.counting rs) := hc ▸ h.control
  have hcounted := h.counted
  refine ⟨?_, Int.add_one_le_of_lt hroom, ?_, ?_, ?_⟩
  · show w.shared.activeSessions + 1 = ((w.sessions ++ [_]).countP Session.isOpen : ℕ)
    rw [List.countP_append, Nat.cast_add, hcounted]
    rfl
  · intro s hs e he
    rcases List.mem_append.mp hs with hs | hs
    · exact h.past s hs e he
    · rw [List.mem_singleton.mp hs] at he
      cases he
  · intro hzero
    have hone : w.shared.activeSessions + 1 = 0 := hzero
    omega
  · exact ⟨w.clock, List.getElem?_concat_length⟩

theorem countP_set_open {sessions : List Session} {i : ℕ} {s s' : Session} (hs : sessions[i]? = some s)
    (hopen : s.isOpen = true) : ((sessions.set i s').countP Session.isOpen : ℤ) =
      sessions.countP Session.isOpen - 1 + if s'.isOpen = true then 1 else 0 := by
  obtain ⟨hi, rfl⟩ := List.getElem?_eq_some_iff.mp hs
  have hpos : 0 < sessions.countP Session.isOpen :=
    List.countP_pos_iff.mpr ⟨_, List.getElem_mem hi, hopen⟩
  rw [List.countP_set hi, if_pos hopen]
  split <;> omega

/-- The thread of a session that has been counted. -/
theorem Inv.created (h : Inv timeout w) {i : ℕ} {s : Session} {rs : List Request}
    (hs : w.sessions[i]? = some s) (hopen : s.isOpen = true) :
    Inv timeout { w with sessions := w.sessions.set i { s with phase := .running }, control := .handling rs } := by
  have hmem : ∀ x ∈ w.sessions.set i { s with phase := .running }, ∀ e, x.phase = .ended e → x ∈ w.sessions := by
    intro x hx e he
    rcases List.mem_or_eq_of_mem_set hx with hx | rfl
    · exact hx
    · cases he
  refine ⟨?_, h.cap, fun x hx e he => ?_, fun hzero x hx e he => ?_, trivial⟩
  · rw [countP_set_open hs hopen, h.counted]
    exact (Int.sub_add_cancel _ _).symm
  · exact h.past x (hmem x hx e he) e he
  · exact h.idle hzero x (hmem x hx e he) e he

theorem Inv.ends (h : Inv timeout w) {i : ℕ} {s : Session} {c : Control} (hs : w.sessions[i]? = some s)
    (hopen : s.isOpen = true) (hc : Knows timeout (w.ends i s).shared (w.ends i s).sessions c) :
    Inv timeout ((w.ends i s).goto c) := by
  have hpast : ∀ x ∈ (w.ends i s).sessions, ∀ e, x.phase = .ended e → e ≤ w.clock := by
    intro x hx e he
    rcases List.mem_or_eq_of_mem_set hx with hx | rfl
    · exact h.past x hx e he
    · rw [Phase.ended.inj he]
  have hcap := h.cap
  refine ⟨?_, ?_, hpast, ?_, hc⟩
  · show w.shared.activeSessions - 1 = _
    have hset := @countP_set_open w.sessions i s { s with phase := .ended w.clock } hs hopen
    rw [h.counted]
    exact (Int.add_zero _).symm.trans hset.symm
  · show w.shared.activeSessions - 1 ≤ SRV_MAX_SESSIONS
    omega
  · -- the last session to end is the one that sets `idle_since`
    intro hzero x hx e he
    have hidle : (sessionEnded w.shared w.clock).idleSince = w.clock := if_pos hzero
    exact (hpast x hx e he).trans hidle.ge

/-- The end of a session's thread leaves what the control loop relies on. -/
theorem Inv.knows_threadEnds (h : Inv timeout w) {i : ℕ} {started : ℤ}
    (hs : w.sessions[i]? = some ⟨started, .running⟩) :
    Knows timeout (w.ends i ⟨started, .running⟩).shared (w.ends i ⟨started, .running⟩).sessions w.control := by
  have hknows := h.control
  have hother (j : ℕ) (hj : ∃ st, w.sessions[j]? = some ⟨st, .counted⟩) :
      ∃ st, (w.ends i ⟨started, .running⟩).sessions[j]? = some ⟨st, .counted⟩ := by
    obtain ⟨st, hst⟩ := hj
    refine ⟨st, ?_⟩
    show (w.sessions.set i _)[j]? = _
    rw [List.getElem?_set_ne _, hst]
    intro hij
    rw [hij, hst] at hs
    cases hs
  have hfewer : (w.ends i ⟨started, .running⟩).shared.activeSessions < w.shared.activeSessions := by
    show w.shared.activeSessions - 1 < _
    omega
  generalize w.control = c at hknows
  cases c with
  | allocating noEncrypt rs => exact hfewer.trans hknows
  | counting rs => exact hfewer.trans hknows
  | creating j rs => exact hother j hknows
  | undoing j => exact hother j hknows
  | inactive t =>
    -- no thread is left to end
    obtain ⟨e, he, -⟩ := hknows _ (List.mem_of_getElem? hs)
    cases he
  | setUp => exact trivial
  | checking => exact trivial
  | receiving => exact trivial
  | handling rs => exact trivial
  | failed => exact trivial

theorem inv_act {a : Action} {v : World} (h : Inv timeout w) (hact : act timeout w a = some v) :
    Inv timeout v := by
  cases a with
  | enter ready =>
    rw [act] at hact
    split at hact
    · obtain rfl := Option.some.inj hact
      split
      · exact { h with idle := fun _ => h.past, control := trivial }
      · exact h.goto trivial
    · cases hact
  | checkTimeout =>
    rw [act] at hact
    split at hact
    · obtain rfl := Option.some.inj hact
      apply h.goto
      split
      · rename_i hexpired
        exact h.inactive hexpired
      · exact trivial
    · cases hact
  | receive r =>
    rw [act] at hact
    split at hact
    · obtain rfl := Option.some.inj hact
      apply h.goto
      cases r <;> exact trivial
    · cases hact
  | nextRequest =>
    rw [act] at hact
    split at hact
    · exact Option.some.inj hact ▸ h.goto trivial
    · exact Option.some.inj hact ▸ h.goto trivial
    · exact Option.some.inj hact ▸ h.goto trivial
    · obtain rfl := Option.some.inj hact
      apply h.goto
      split
      · exact trivial
      · rename_i hroom
        exact lt_of_not_ge hroom
    · cases hact
  | allocate a =>
    rw [act] at hact
    split at hact
    · rename_i noEncrypt rs hc
      have hroom : Knows timeout w.shared w.sessions (.allocating noEncrypt rs) := hc ▸ h.control
      obtain ⟨c, hnext, rfl⟩ := Option.map_eq_some_iff.mp hact
      apply h.goto
      cases a with
      | noMemory => exact Option.some.inj hnext ▸ trivial
      | badKeys =>
        obtain ⟨-, hc⟩ := Option.ite_none_left_eq_some.mp hnext
        exact Option.some.inj hc ▸ trivial
      | done => exact Option.some.inj hnext ▸ hroom
    · cases hact
  | count =>
    rw [act] at hact
    split at hact
    · rename_i rs hc
      exact Option.some.inj hact ▸ h.counts hc
    · cases hact
  | create created =>
    rw [act] at hact
    split at hact
    · rename_i i rs hc
      have hknows : Knows timeout w.shared w.sessions (.creating i rs) := hc ▸ h.control
      obtain ⟨started, hs⟩ := id hknows
      rw [hs] at hact
      obtain rfl := Option.some.inj hact
      split
      · exact h.created hs rfl
      · exact h.goto hknows
    · cases hact
  | undo =>
    rw [act] at hact
    split at hact
    · rename_i i hc
      have hknows : Knows timeout w.shared w.sessions (.undoing i) := hc ▸ h.control
      obtain ⟨started, hs⟩ := hknows
      rw [hs] at hact
      exact Option.some.inj hact ▸ h.ends hs rfl trivial
    · cases hact
  | threadEnds i =>
    rw [act] at hact
    split at hact
    · rename_i started hs
      exact Option.some.inj hact ▸ h.ends hs rfl (h.knows_threadEnds hs)
    · cases hact

theorem inv_step {e : Event} {v : World} (h : Inv timeout w) (hstep : step timeout w e = some v) :
    Inv timeout v := by
  obtain ⟨hnow, hact⟩ := Option.ite_none_right_eq_some.mp hstep
  exact inv_act (h.tick hnow) hact

/-- However the control loop and the threads interleave, the sessions counted are those that have started and
not ended, never more than the cap; and where the loop ends for inactivity, no session was active in any second
of the time-out before. -/
theorem run_sessions {clock : ℤ} {es : List Event}
    (h : (machine timeout).run (World.initial clock) es = some w) :
    w.shared.activeSessions = w.sessions.countP Session.isOpen ∧ 0 ≤ w.shared.activeSessions ∧
      w.shared.activeSessions ≤ SRV_MAX_SESSIONS ∧
        ∀ t, w.control = .inactive t → ∀ second, t - timeoutSeconds timeout < second → second ≤ t →
          ∀ s ∈ w.sessions, ¬s.ActiveAt second := by
  have hinv : Inv timeout w :=
    (machine timeout).invariant (fun _ _ _ hu hstep => inv_step hu hstep) (inv_initial timeout clock) h
  refine ⟨hinv.counted, ?_, hinv.cap, ?_⟩
  · rw [hinv.counted]
    exact Int.natCast_nonneg _
  · intro t ht second hafter _ s hs hactive
    have hknows : Knows timeout w.shared w.sessions (.inactive t) := ht ▸ hinv.control
    obtain ⟨e, he, hlate⟩ := hknows s hs
    have hbefore := hactive.2 e he
    omega

/-- One session, and the loop left behind it. -/
def oneSession : List Event :=
  [⟨100, .enter true⟩, ⟨100, .checkTimeout⟩, ⟨101, .receive (.requests [.connect true])⟩, ⟨101, .nextRequest⟩,
    ⟨101, .allocate .done⟩, ⟨101, .count⟩, ⟨102, .create true⟩, ⟨102, .nextRequest⟩, ⟨102, .checkTimeout⟩,
    ⟨105, .threadEnds 0⟩, ⟨107, .receive .timeout⟩, ⟨107, .checkTimeout⟩, ⟨135, .receive .timeout⟩,
    ⟨135, .checkTimeout⟩]

def oneSessionEnded : World := ⟨⟨0, 105⟩, .inactive 135, [⟨101, .ended 105⟩], 135⟩

theorem run_sessions_one : oneSessionEnded.shared.activeSessions = oneSessionEnded.sessions.countP Session.isOpen ∧
    0 ≤ oneSessionEnded.shared.activeSessions ∧ oneSessionEnded.shared.activeSessions ≤ SRV_MAX_SESSIONS ∧
      ∀ t, oneSessionEnded.control = .inactive t → ∀ second, t - timeoutSeconds 0 < second → second ≤ t →
        ∀ s ∈ oneSessionEnded.sessions, ¬s.ActiveAt second :=
  run_sessions (w := oneSessionEnded) (rfl : (machine 0).run (World.initial 99) oneSession = some oneSessionEnded)

end NoPorts.SrvSessions
