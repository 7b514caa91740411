import Mathlib.Data.Option.Basic
import Mathlib.Logic.Function.Basic
import NoPorts.ConnectMessageC
import NoPorts.Lib.Machine
import NoPorts.Lib.Pump

/-! A sub-connection of the Arduino relay: pass by pass, each direction sends what is pending, and
reads on once nothing is. -/
namespace NoPorts.ArduinoRelay
open Lib

def RELAY_CHUNK_SIZE : ℕ := 1460

/-- The two directions, from rvd to local and back. -/
inductive Dir where
  | toLocal
  | toRvd
  deriving DecidableEq, Repr

/-- A socket, as its direction reads it. -/
structure Socket where
  /-- The receive buffer. -/
  unread : List UInt8
  /-- The peer has closed its side; nothing comes after. -/
  fin : Bool
  /-- The connection has failed. -/
  broken : Bool
  /-- Everything that has come. -/
  arrived : List UInt8
  deriving DecidableEq, Repr

/-- `!available() && _peer_closed()` -/
def Socket.closed (socket : Socket) : Bool := socket.unread.isEmpty && (socket.fin || socket.broken)

/-- What the calls of one direction return in one pass: `_write_nb` of the pending bytes, `read`, and
`_write_nb` of what was read. `none` is -1, and a `read` of nothing is 0. -/
structure Io where
  flush : Option ℕ
  read : ℕ
  fresh : Option ℕ
  deriving DecidableEq, Repr

/-- What one direction has done. -/
structure Serviced where
  flow : Pump AesCtr UInt8
  socket : Socket
  failed : Bool
  moved : Bool

/-- Where the pass over the sub is. -/
inductive Pc where
  | idle
  /-- The second direction of a normal pass. -/
  | second
  | checkRvd
  | checkLocal (rvd_closed : Bool)
  /-- The second direction of a draining pass. -/
  | drainRvd (moved : Bool)
  | drainCheck (moved : Bool)
  deriving DecidableEq, Repr

/-- Why a sub is closed. -/
inductive Cause where
  | peer_closed
  | reclaimed
  | drained
  | write_error
  | drain_cap
  /-- Evicted, stalled, or the relay stops or has lost its control channel for too long. -/
  | other
  deriving DecidableEq, Repr

structure RelaySub where
  /-- `local` with `enc_state` and `pending_rvd`, `rvd` with `dec_state` and `pending_local`. -/
  socket : Dir → Socket
  flow : Dir → Pump AesCtr UInt8
  active : Bool
  draining : Bool
  dir_flip : Bool
  pc : Pc
  closedBy : Option Cause

inductive Event where
  | arrive (d : Dir) (data : List UInt8)
  | fin (d : Dir)
  | broken (d : Dir)
  /-- The first direction of a pass. -/
  | first (io : Io)
  | second (io : Io)
  | check
  | drain_cap
  | reclaim
  | close

section
variable (t : Transducer AesCtr UInt8)

/-- Step 1: what is pending is sent first. -/
def flushPending (flow : Pump AesCtr UInt8) (socket : Socket) (flush : Option ℕ) : Option Serviced :=
  if flow.pending = [] then some ⟨flow, socket, false, false⟩
  else
    match flush with
    | none => some ⟨flow, socket, true, false⟩
    | some w => do
      guard (w ≤ flow.pending.length)
      return ⟨flow.flush w, socket, false, decide (0 < w)⟩

/-- Step 2: new data is read once nothing is pending. -/
def readFresh (s : Serviced) (io : Io) : Option Serviced :=
  if s.flow.pending = [] ∧ s.socket.unread ≠ [] ∧ io.read ≠ 0 then do
    guard (io.read ≤ RELAY_CHUNK_SIZE ∧ io.read ≤ s.socket.unread.length)
    let chunk := s.socket.unread.take io.read
    let socket := { s.socket with unread := s.socket.unread.drop io.read }
    match io.fresh with
    -- what was read is not kept
    | none => return ⟨s.flow.lose t chunk, socket, true, true⟩
    | some w => do
      guard (w ≤ io.read)
      return ⟨s.flow.feed t chunk w, socket, s.failed, true⟩
  else some s

/-- One direction in one pass. -/
def service (flow : Pump AesCtr UInt8) (socket : Socket) (io : Io) : Option Serviced := do
  readFresh t (← flushPending flow socket io.flush) io

end

namespace RelaySub
variable (host : MbedHost) (encrypted : Bool)

/-- `_aes_ctr_crypt`, or the bytes as they are. -/
def crypt : Transducer AesCtr UInt8 := if encrypted then host.mbedtls_aes_crypt_ctr else .unchanged

def put (s : RelaySub) (d : Dir) (r : Serviced) : RelaySub :=
  { s with socket := Function.update s.socket d r.socket, flow := Function.update s.flow d r.flow }

/-- `_close_relay_sub` -/
def close (s : RelaySub) (cause : Cause) : RelaySub :=
  { s with
    flow := fun d => (s.flow d).drop
    active := false
    draining := false
    pc := .idle
    closedBy := some cause }

def firstDir (s : RelaySub) : Dir := if s.dir_flip then .toRvd else .toLocal

def secondDir (s : RelaySub) : Dir := if s.dir_flip then .toLocal else .toRvd

/-- A failed send starts the draining of the sub, or ends it. -/
def onFirst (s : RelaySub) (io : Io) : Option RelaySub :=
  if s.draining then do
    let r ← service (crypt host encrypted) (s.flow .toLocal) (s.socket .toLocal) io
    let s := s.put .toLocal r
    return if r.failed then s.close .write_error else { s with pc := .drainRvd r.moved }
  else do
    let r ← service (crypt host encrypted) (s.flow s.firstDir) (s.socket s.firstDir) io
    return { s.put s.firstDir r with draining := r.failed, pc := .second }

def onSecond (s : RelaySub) (io : Io) : Option RelaySub :=
  match s.pc with
  | .drainRvd moved => do
    let r ← service (crypt host encrypted) (s.flow .toRvd) (s.socket .toRvd) io
    let s := s.put .toRvd r
    return if r.failed then s.close .write_error else { s with pc := .drainCheck (moved || r.moved) }
  | .second => do
    let r ← service (crypt host encrypted) (s.flow s.secondDir) (s.socket s.secondDir) io
    return { s.put s.secondDir r with
      draining := s.draining || r.failed
      dir_flip := !s.dir_flip
      pc := .checkRvd }
  | _ => none

def onCheck (s : RelaySub) : Option RelaySub :=
  match s.pc with
  | .checkRvd => some { s with pc := .checkLocal (s.socket .toLocal).closed }
  | .checkLocal rvd_closed =>
    some (if rvd_closed || (s.socket .toRvd).closed then s.close .peer_closed else { s with pc := .idle })
  | .drainCheck moved =>
    some (if !moved && (s.socket .toRvd).closed then s.close .drained else { s with pc := .idle })
  | _ => none

def step (s : RelaySub) : Event → Option RelaySub
  | .arrive d data => do
    guard (s.active = true ∧ (s.socket d).fin = false)
    return { s with socket := Function.update s.socket d { (s.socket d) with
      unread := (s.socket d).unread ++ data
      arrived := (s.socket d).arrived ++ data } }
  | .fin d => do
    guard (s.active = true)
    return { s with socket := Function.update s.socket d { (s.socket d) with fin := true } }
  | .broken d => do
    guard (s.active = true)
    return { s with socket := Function.update s.socket d { (s.socket d) with broken := true } }
  | .first io => do
    guard (s.active = true ∧ s.pc = .idle)
    s.onFirst host encrypted io
  | .second io => do
    guard (s.active = true)
    s.onSecond host encrypted io
  | .check => do
    guard (s.active = true)
    s.onCheck
  | .drain_cap => do
    guard (s.active = true ∧ s.pc = .idle ∧ s.draining = true)
    return s.close .drain_cap
  -- `_reclaim_dead_subs`
  | .reclaim => do
    guard (s.active = true ∧ s.pc = .idle ∧ s.draining = false ∧
      (s.socket .toLocal).closed = true ∧ (s.socket .toRvd).closed = true)
    return s.close .reclaimed
  | .close => do
    guard (s.active = true ∧ s.pc = .idle)
    return s.close .other

def machine : Machine RelaySub Event := ⟨step host encrypted⟩

/-- A sub as it is connected. -/
def connected (state : Dir → AesCtr) : RelaySub :=
  ⟨fun _ => ⟨[], false, false, []⟩, fun d => ⟨state d, [], [], []⟩, true, false, false, .idle, none⟩

/-! ### What is to hold -/

variable (k : Dir → Keystream UInt8)

/-- What each byte of a direction goes through at its position. -/
def stream (d : Dir) : Keystream UInt8 := if encrypted then k d else .plain

/-- What has been sent is a prefix of what has been read, transformed; and what has been read, with
what is still in the receive buffer, is what has come. -/
structure Intact (s : RelaySub) : Prop where
  sent : ∀ d, (s.flow d).sent <+: (stream encrypted k d).crypt 0 (s.flow d).taken.flatten
  read : ∀ d, (s.flow d).taken.flatten ++ (s.socket d).unread = (s.socket d).arrived

/-- The direction reads new data and sends it. -/
def SendsFresh (flow : Pump AesCtr UInt8) (socket : Socket) (io : Io) : Prop :=
  (flow.pending = [] ∨ io.flush = some flow.pending.length) ∧ socket.unread ≠ [] ∧ io.read ≠ 0

/-- In a normal pass, no send of new data fails. -/
def KeepsFresh (s : RelaySub) : Event → Prop
  | .first io => s.draining = false → SendsFresh (s.flow s.firstDir) (s.socket s.firstDir) io → io.fresh ≠ none
  | .second io => s.pc = .second → SendsFresh (s.flow s.secondDir) (s.socket s.secondDir) io → io.fresh ≠ none
  | _ => True

/-- What mbedtls does to each direction of an encrypted sub, from the state it was connected with. -/
def Keyed (state : Dir → AesCtr) : Prop :=
  encrypted = true → ∀ d, host.mbedtls_aes_crypt_ctr.Follows (state d) (k d)

/-! ### One direction in one pass -/

end RelaySub

section Service
variable {t : Transducer AesCtr UInt8} {flow : Pump AesCtr UInt8} {socket : Socket} {io : Io} {r : Serviced}

theorem flushPending_cases (h : flushPending flow socket io.flush = some r) :
    r.socket = socket ∧ ((r.flow = flow ∧ (flow.pending = [] ∧ r.failed = false ∨ flow.pending ≠ [] ∧ io.flush = none)) ∨
      ∃ w, w ≤ flow.pending.length ∧ io.flush = some w ∧ r.flow = flow.flush w ∧ r.failed = false) := by
  unfold flushPending at h
  by_cases hpending : flow.pending = []
  · rw [if_pos hpending] at h
    obtain rfl := Option.some.inj h
    exact ⟨rfl, Or.inl ⟨rfl, Or.inl ⟨hpending, rfl⟩⟩⟩
  · rw [if_neg hpending] at h
    cases hflush : io.flush with
    | none =>
      rw [hflush] at h
      obtain rfl := Option.some.inj h
      exact ⟨rfl, Or.inl ⟨rfl, Or.inr ⟨hpending, rfl⟩⟩⟩
    | some w =>
      rw [hflush] at h
      obtain ⟨_, hw, h⟩ := Option.bind_eq_some_iff.mp h
      obtain rfl := Option.some.inj h
      exact ⟨rfl, Or.inr ⟨w, (Option.guard_eq_some' _).mp hw, rfl, rfl, rfl⟩⟩

/-- The three things that can come of step 2. -/
theorem readFresh_cases {s : Serviced} (h : readFresh t s io = some r) :
    r = s ∨ (s.flow.pending = [] ∧ s.socket.unread ≠ [] ∧ io.read ≠ 0 ∧ io.read ≤ RELAY_CHUNK_SIZE ∧
      r.socket = { s.socket with unread := s.socket.unread.drop io.read } ∧
      ((io.fresh = none ∧ r.flow = s.flow.lose t (s.socket.unread.take io.read) ∧ r.failed = true) ∨
        ∃ w, w ≤ io.read ∧ io.fresh = some w ∧ r.flow = s.flow.feed t (s.socket.unread.take io.read) w ∧
          r.failed = s.failed)) := by
  unfold readFresh at h
  split at h
  · rename_i hreads
    obtain ⟨_, hn, h⟩ := Option.bind_eq_some_iff.mp h
    have hn := (Option.guard_eq_some' _).mp hn
    right
    cases hfresh : io.fresh with
    | none =>
      rw [hfresh] at h
      obtain rfl := Option.some.inj h
      exact ⟨hreads.1, hreads.2.1, hreads.2.2, hn.1, rfl, Or.inl ⟨rfl, rfl, rfl⟩⟩
    | some w =>
      rw [hfresh] at h
      obtain ⟨_, hw, h⟩ := Option.bind_eq_some_iff.mp h
      obtain rfl := Option.some.inj h
      exact ⟨hreads.1, hreads.2.1, hreads.2.2, hn.1, rfl,
        Or.inr ⟨w, (Option.guard_eq_some' _).mp hw, rfl, rfl, rfl⟩⟩
  · exact Or.inl (Option.some.inj h).symm

variable {init : AesCtr} {k : Keystream UInt8}

/-- What a pass of one direction keeps. -/
structure Passed (t : Transducer AesCtr UInt8) (init : AesCtr) (k : Keystream UInt8) (flow : Pump AesCtr UInt8)
    (socket : Socket) (io : Io) (r : Serviced) : Prop where
  sent : r.flow.sent <+: k.crypt 0 r.flow.taken.flatten
  read : r.flow.taken.flatten ++ r.socket.unread = flow.taken.flatten ++ socket.unread
  arrived : r.socket.arrived = socket.arrived
  fin : r.socket.fin = socket.fin
  whole : (r.failed = true → RelaySub.SendsFresh flow socket io → io.fresh ≠ none) → r.flow.Whole t init
  failed : r.failed = true → (flow.pending ≠ [] ∧ io.flush = none) ∨
    (RelaySub.SendsFresh flow socket io ∧ io.fresh = none)

theorem service_passed (h : service t flow socket io = some r) (hwhole : flow.Whole t init)
    (hk : t.Follows init k) : Passed t init k flow socket io r := by
  obtain ⟨s, hflush, hread⟩ := Option.bind_eq_some_iff.mp h
  obtain ⟨hsocket, hcases⟩ := flushPending_cases hflush
  -- step 1 moves bytes from what is pending to what is sent
  have hkept : s.flow.Whole t init ∧ s.flow.taken = flow.taken ∧
      (s.failed = true → flow.pending ≠ [] ∧ io.flush = none) ∧
      (s.flow.pending = [] → flow.pending = [] ∨ io.flush = some flow.pending.length) := by
    rcases hcases with ⟨hflow, hor⟩ | ⟨w, hw, hio, hflow, hfailed⟩
    · rw [hflow]
      refine ⟨hwhole, rfl, fun hf => ?_, Or.inl⟩
      rcases hor with ⟨-, hno⟩ | hno
      · rw [hno] at hf
        cases hf
      · exact hno
    · rw [hflow]
      refine ⟨hwhole.flush w, rfl, fun hf => ?_, fun hnil => ?_⟩
      · rw [hfailed] at hf
        cases hf
      · right
        have hlength := congrArg List.length hnil
        rw [Pump.flush, List.length_drop, List.length_nil] at hlength
        rw [hio]
        exact congrArg some (by omega)
  obtain ⟨hs, htaken, hfail, hall⟩ := hkept
  rcases readFresh_cases hread with rfl | ⟨hpending, hunread, hn, -, hsock, hor⟩
  · exact ⟨hs.sent_prefix hk, by rw [htaken, hsocket], by rw [hsocket], by rw [hsocket], fun _ => hs,
      fun hf => Or.inl (hfail hf)⟩
  · have hfresh : RelaySub.SendsFresh flow socket io := ⟨hall hpending, hsocket ▸ hunread, hn⟩
    have hjoin : s.socket.unread.take io.read ++ s.socket.unread.drop io.read = s.socket.unread :=
      List.take_append_drop io.read s.socket.unread
    rcases hor with ⟨hio, hflow, hfailed⟩ | ⟨w, -, hio, hflow, hfailed⟩
    · constructor
      · rw [hflow]
        apply (hs.sent_prefix hk).trans
        rw [Pump.lose, List.flatten_append, List.flatten_singleton]
        exact k.crypt_prefix 0 _ _
      · rw [hflow, hsock, Pump.lose, List.flatten_append, List.flatten_singleton, List.append_assoc, hjoin,
          htaken, hsocket]
      · rw [hsock, hsocket]
      · rw [hsock, hsocket]
      · intro hkeeps
        exact absurd hio (hkeeps hfailed hfresh)
      · intro _
        exact Or.inr ⟨hfresh, hio⟩
    · have hfed := hs.feed hpending (s.socket.unread.take io.read) w
      rw [← hflow] at hfed
      constructor
      · exact hfed.sent_prefix hk
      · rw [hflow, hsock, Pump.feed, List.flatten_append, List.flatten_singleton, List.append_assoc, hjoin,
          htaken, hsocket]
      · rw [hsock, hsocket]
      · rw [hsock, hsocket]
      · intro _
        exact hfed
      · intro hf
        rw [hfailed] at hf
        exact Or.inl (hfail hf)

end Service
namespace RelaySub
variable {host : MbedHost} {encrypted : Bool} {k : Dir → Keystream UInt8} {state : Dir → AesCtr} {s s' : RelaySub}

theorem Keyed.follows (h : Keyed host encrypted k state) (d : Dir) :
    (crypt host encrypted).Follows (state d) (stream encrypted k d) := by
  cases encrypted with
  | true => exact h rfl d
  | false => exact Transducer.follows_unchanged (state d)

/-! ### Runs -/

variable (host encrypted k state) in
structure Inv (s : RelaySub) : Prop where
  intact : Intact encrypted k s
  whole : s.active = true → ∀ d, (s.flow d).Whole (crypt host encrypted) (state d)

theorem Inv.close (h : Inv host encrypted k state s) (cause : Cause) : Inv host encrypted k state (s.close cause) :=
  ⟨⟨h.intact.sent, h.intact.read⟩, fun hactive => by cases hactive⟩

/-- A direction that has done its part of a pass. -/
theorem Intact.put {d : Dir} {io : Io} {r : Serviced} (h : Intact encrypted k s)
    (hr : Passed (crypt host encrypted) (state d) (stream encrypted k d) (s.flow d) (s.socket d) io r) :
    Intact encrypted k (s.put d r) := by
  constructor
  · intro d'
    by_cases hd : d' = d
    · subst hd
      simp only [RelaySub.put, Function.update_self]
      exact hr.sent
    · simp only [RelaySub.put, Function.update_of_ne hd]
      exact h.sent d'
  · intro d'
    by_cases hd : d' = d
    · subst hd
      simp only [RelaySub.put, Function.update_self]
      rw [hr.read, hr.arrived]
      exact h.read d'
    · simp only [RelaySub.put, Function.update_of_ne hd]
      exact h.read d'

theorem whole_put {d : Dir} {io : Io} {r : Serviced} (h : ∀ d, (s.flow d).Whole (crypt host encrypted) (state d))
    (hr : Passed (crypt host encrypted) (state d) (stream encrypted k d) (s.flow d) (s.socket d) io r)
    (hkeeps : r.failed = true → SendsFresh (s.flow d) (s.socket d) io → io.fresh ≠ none) (d' : Dir) :
    ((s.put d r).flow d').Whole (crypt host encrypted) (state d') := by
  by_cases hd : d' = d
  · subst hd
    simp only [RelaySub.put, Function.update_self]
    exact hr.whole hkeeps
  · simp only [RelaySub.put, Function.update_of_ne hd]
    exact h d'

theorem Inv.service (h : Inv host encrypted k state s) (hk : Keyed host encrypted k state)
    (hactive : s.active = true) {d : Dir} {io : Io} {r : Serviced}
    (hr : service (crypt host encrypted) (s.flow d) (s.socket d) io = some r) :
    Passed (crypt host encrypted) (state d) (stream encrypted k d) (s.flow d) (s.socket d) io r :=
  service_passed hr (h.whole hactive d) (hk.follows d)

/-- A draining pass: a failed send closes the sub, so nothing is sent after it. -/
theorem Inv.drain (h : Inv host encrypted k state s) (hk : Keyed host encrypted k state)
    (hactive : s.active = true) {d : Dir} {io : Io} {r : Serviced}
    (hr : ArduinoRelay.service (crypt host encrypted) (s.flow d) (s.socket d) io = some r) (pc : Pc) :
    Inv host encrypted k state
      (if r.failed then (s.put d r).close .write_error else { s.put d r with pc }) := by
  have hpassed := h.service hk hactive hr
  have hintact := h.intact.put hpassed
  by_cases hfailed : r.failed = true
  · rw [if_pos hfailed]
    exact ⟨⟨hintact.sent, hintact.read⟩, fun hactive => by cases hactive⟩
  · rw [if_neg hfailed]
    exact ⟨⟨hintact.sent, hintact.read⟩, fun _ =>
      whole_put (h.whole hactive) hpassed fun hf => absurd hf hfailed⟩

/-- A normal pass goes on after a failed send, and stays whole when what was read is kept. -/
theorem Inv.normal (h : Inv host encrypted k state s) (hk : Keyed host encrypted k state)
    (hactive : s.active = true) {d : Dir} {io : Io} {r : Serviced}
    (hr : ArduinoRelay.service (crypt host encrypted) (s.flow d) (s.socket d) io = some r)
    (hkeeps : SendsFresh (s.flow d) (s.socket d) io → io.fresh ≠ none) (draining dir_flip : Bool) (pc : Pc) :
    Inv host encrypted k state { s.put d r with draining, dir_flip, pc } := by
  have hpassed := h.service hk hactive hr
  have hintact := h.intact.put hpassed
  exact ⟨⟨hintact.sent, hintact.read⟩, fun _ => whole_put (h.whole hactive) hpassed fun _ => hkeeps⟩

/-- A change of the sockets that no direction has read. -/
theorem Inv.come (h : Inv host encrypted k state s) {d : Dir} {socket : Socket}
    (hread : (s.flow d).taken.flatten ++ socket.unread = socket.arrived) :
    Inv host encrypted k state { s with socket := Function.update s.socket d socket } := by
  refine ⟨⟨h.intact.sent, fun d' => ?_⟩, h.whole⟩
  by_cases hd : d' = d
  · subst hd
    simp only [Function.update_self]
    exact hread
  · simp only [Function.update_of_ne hd]
    exact h.intact.read d'

theorem Inv.withPc (h : Inv host encrypted k state s) (pc : Pc) : Inv host encrypted k state { s with pc } :=
  ⟨⟨h.intact.sent, h.intact.read⟩, h.whole⟩

theorem Inv.onCheck (h : Inv host encrypted k state s) (hstep : s.onCheck = some s') :
    Inv host encrypted k state s' := by
  rw [RelaySub.onCheck] at hstep
  split at hstep
  · obtain rfl := Option.some.inj hstep
    exact h.withPc _
  · obtain rfl := Option.some.inj hstep
    split
    · exact h.close _
    · exact h.withPc _
  · obtain rfl := Option.some.inj hstep
    split
    · exact h.close _
    · exact h.withPc _
  · cases hstep

theorem Inv.onFirst (h : Inv host encrypted k state s) (hk : Keyed host encrypted k state)
    (hactive : s.active = true) {io : Io} (hkeeps : KeepsFresh s (.first io))
    (hstep : s.onFirst host encrypted io = some s') : Inv host encrypted k state s' := by
  rw [RelaySub.onFirst] at hstep
  split at hstep
  · obtain ⟨r, hr, hstep⟩ := Option.bind_eq_some_iff.mp hstep
    obtain rfl := Option.some.inj hstep
    exact h.drain hk hactive hr _
  · rename_i hdraining
    obtain ⟨r, hr, hstep⟩ := Option.bind_eq_some_iff.mp hstep
    obtain rfl := Option.some.inj hstep
    exact h.normal hk hactive hr (hkeeps (Bool.eq_false_iff.mpr hdraining)) _ _ _

theorem Inv.onSecond (h : Inv host encrypted k state s) (hk : Keyed host encrypted k state)
    (hactive : s.active = true) {io : Io} (hkeeps : KeepsFresh s (.second io))
    (hstep : s.onSecond host encrypted io = some s') : Inv host encrypted k state s' := by
  rw [RelaySub.onSecond] at hstep
  split at hstep
  · obtain ⟨r, hr, hstep⟩ := Option.bind_eq_some_iff.mp hstep
    obtain rfl := Option.some.inj hstep
    exact h.drain hk hactive hr _
  · rename_i hpc
    obtain ⟨r, hr, hstep⟩ := Option.bind_eq_some_iff.mp hstep
    obtain rfl := Option.some.inj hstep
    exact h.normal hk hactive hr (hkeeps hpc) _ _ _
  · cases hstep

theorem Inv.step (h : Inv host encrypted k state s) (hk : Keyed host encrypted k state) {e : Event}
    (hkeeps : KeepsFresh s e) (hstep : s.step host encrypted e = some s') : Inv host encrypted k state s' := by
  cases e with
  | arrive d data =>
    obtain ⟨_, -, hstep⟩ := Option.bind_eq_some_iff.mp hstep
    obtain rfl := Option.some.inj hstep
    apply h.come
    rw [← List.append_assoc, h.intact.read d]
  | fin d =>
    obtain ⟨_, -, hstep⟩ := Option.bind_eq_some_iff.mp hstep
    obtain rfl := Option.some.inj hstep
    exact h.come (h.intact.read d)
  | broken d =>
    obtain ⟨_, -, hstep⟩ := Option.bind_eq_some_iff.mp hstep
    obtain rfl := Option.some.inj hstep
    exact h.come (h.intact.read d)
  | first io =>
    obtain ⟨_, hactive, hstep⟩ := Option.bind_eq_some_iff.mp hstep
    exact h.onFirst hk ((Option.guard_eq_some' _).mp hactive).1 hkeeps hstep
  | second io =>
    obtain ⟨_, hactive, hstep⟩ := Option.bind_eq_some_iff.mp hstep
    exact h.onSecond hk ((Option.guard_eq_some' _).mp hactive) hkeeps hstep
  | check =>
    obtain ⟨_, -, hstep⟩ := Option.bind_eq_some_iff.mp hstep
    exact h.onCheck hstep
  | drain_cap | reclaim | close =>
    obtain ⟨_, -, hstep⟩ := Option.bind_eq_some_iff.mp hstep
    obtain rfl := Option.some.inj hstep
    exact h.close _

theorem inv_connected (state : Dir → AesCtr) : Inv host encrypted k state (connected state) :=
  ⟨⟨fun _ => List.nil_prefix, fun _ => rfl⟩, fun _ d => Pump.Whole.start (state d)⟩

theorem intact_of_keepsFresh (hk : Keyed host encrypted k state) {es : List Event} {t : RelaySub}
    (hkeeps : (machine host encrypted).Meets KeepsFresh (connected state) es)
    (hr : (machine host encrypted).run (connected state) es = some t) : Intact encrypted k t := by
  have h : Inv host encrypted k state t :=
    (machine host encrypted).invariant_of_meets (fun _ _ _ h hkeeps hstep => h.step hk hkeeps hstep)
      (inv_connected state) hkeeps hr
  exact h.intact

/-! ### A failed send of new data, and a run without one -/

/-- AES-256 in counter mode, under a key and an IV of zeros: its first block. -/
def zeroBlock : List UInt8 :=
  [0xdc, 0x95, 0xc0, 0x78, 0xa2, 0x40, 0x89, 0x89, 0xad, 0x48, 0xa2, 0x14, 0x92, 0x84, 0x20, 0x87]

def zeroStream : Keystream UInt8 where
  apply pos b := b ^^^ zeroBlock.getD pos 0
  involutive pos b := by
    beta_reduce
    rw [UInt8.xor_assoc, UInt8.xor_self, UInt8.xor_zero]

def sampleHost : MbedHost where
  base64_decode _ _ := none
  mbedtls_aes_crypt_ctr s chunk :=
    (zeroStream.crypt s.nc_off chunk, { s with nc_off := s.nc_off + chunk.length })

def sampleState : Dir → AesCtr := fun _ => ⟨List.replicate 32 0, List.replicate 16 0, 0, List.replicate 16 0⟩

theorem sample_keyed : Keyed sampleHost true (fun _ => zeroStream) sampleState := by
  intro _ d
  apply Transducer.follows_of_counts AesCtr.nc_off
  · intro s chunk
    exact ⟨rfl, rfl⟩
  · rfl

/-- The first byte is read, and its send fails; the second one goes through. -/
def failedSend : List Event :=
  [.arrive .toLocal [1], .first ⟨none, 1, none⟩, .second ⟨none, 0, none⟩, .check, .check,
    .arrive .toLocal [2], .first ⟨none, 1, some 1⟩]

theorem byte_skipped : ∃ t, (machine sampleHost true).run (connected sampleState) failedSend = some t ∧
    (t.flow .toLocal).taken = [[1], [2]] ∧
    (t.flow .toLocal).sent = (stream true (fun _ => zeroStream) .toLocal).crypt 1 [2] ∧
    ¬Intact true (fun _ => zeroStream) t := by
  refine ⟨_, rfl, rfl, rfl, fun h => ?_⟩
  have hprefix := h.sent .toLocal
  revert hprefix
  decide

/-- The send takes one byte of three, and the rest in the next pass. -/
def partialSend : List Event :=
  [.arrive .toLocal [1, 2, 3], .first ⟨none, 3, some 1⟩, .second ⟨none, 0, some 0⟩, .check, .check,
    .first ⟨none, 0, some 0⟩, .second ⟨some 2, 0, some 0⟩]

theorem intact_of_keepsFresh_sample : ∃ t,
    (machine sampleHost true).run (connected sampleState) partialSend = some t ∧
    (t.flow .toLocal).sent = zeroStream.crypt 0 [1, 2, 3] ∧ Intact true (fun _ => zeroStream) t := by
  have hrun : (machine sampleHost true).run (connected sampleState) partialSend = some _ := rfl
  refine ⟨_, hrun, rfl, intact_of_keepsFresh sample_keyed ?_ hrun⟩
  apply Machine.meets_of_forall
  simp [partialSend, KeepsFresh]

end RelaySub
end NoPorts.ArduinoRelay
