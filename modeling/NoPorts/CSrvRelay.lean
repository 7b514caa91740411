import Mathlib.Data.Int.Notation
import Mathlib.Data.Option.Basic
import Mathlib.Logic.Function.Basic
import NoPorts.ArduinoRelaySub

/-! A session of the C srv: two threads that each pass on what one socket receives to the other one, and the
thread that starts them, waits for one of them to stop, and joins both. -/
namespace NoPorts.CSrvRelay
open Lib

def AES_BLOCK_LEN : ℕ := 16

def READ_BLOCKS : ℕ := 4

def READ_LEN : ℕ := AES_BLOCK_LEN * READ_BLOCKS

/-- Side a is connected to the local service, side b to the relay. -/
inductive Side where
  | a
  | b
  deriving DecidableEq, Repr

def Side.other : Side → Side
  | .a => .b
  | .b => .a

/-! ### A side's thread -/

/-- Where a thread is in `srv_side_handle`. -/
inductive Pc where
  | notCreated
  | recv
  /-- `buffer` is received, and not yet transformed. -/
  | transform (buffer : List UInt8)
  | send
  /-- The loop is left: at the `write` to the pipe. -/
  | notify
  | exit
  | ended
  deriving DecidableEq, Repr

structure SideThread where
  pc : Pc
  /-- What the socket has given the thread. -/
  received : List UInt8
  /-- The transformer, what is still `to_send` of the chunk, and what the other side's socket has taken. -/
  flow : Pump AesCtr UInt8
  /-- The loop was left at the end of the stream. -/
  atEnd : Bool
  /-- By `pthread_cancel`. -/
  cancelled : Bool
  /-- How often the thread has been joined. -/
  joins : ℕ
  deriving DecidableEq, Repr

/-- What `mbedtls_net_recv` returns. -/
inductive Recv where
  | data (bytes : List UInt8)
  | eof
  | error
  deriving DecidableEq, Repr

/-- What `mbedtls_net_send` returns. -/
inductive Send where
  | sent (n : ℕ)
  | interrupted
  | error
  deriving DecidableEq, Repr

inductive SideEvent where
  | recv (res : Recv)
  | transform (ok : Bool)
  | send (res : Send)
  | notify
  | exit
  /-- The thread comes to a cancellation point. -/
  | cancel
  deriving DecidableEq, Repr

variable (host : MbedHost) (transform : Bool)

/-- `aes_ctr_crypt_stream`, or without a transformer the bytes as they are. -/
def crypt : Transducer AesCtr UInt8 := if transform then host.mbedtls_aes_crypt_ctr else .unchanged

namespace SideThread
variable (th : SideThread)

/-- A send loop goes on while there is something to send. -/
def sending (flow : Pump AesCtr UInt8) : SideThread :=
  { th with flow, pc := if flow.pending = [] then .recv else .send }

def step (e : SideEvent) : Option SideThread :=
  match e with
  | .recv res => do
    guard (th.pc = .recv)
    match res with
    | .data bytes => do
      guard (0 < bytes.length ∧ bytes.length ≤ READ_LEN)
      return { th with pc := .transform bytes, received := th.received ++ bytes }
    | .eof => return { th with pc := .notify, atEnd := true }
    | .error => return { th with pc := .notify }
  | .transform ok =>
    match th.pc with
    | .transform buffer =>
      if ok then some (th.sending (th.flow.feed (crypt host transform) buffer 0))
      else if transform then some { th with pc := .notify }
      else none
    | _ => none
  | .send res => do
    guard (th.pc = .send)
    match res with
    | .sent n => do
      guard (n ≤ th.flow.pending.length)
      return th.sending (th.flow.flush n)
    | .interrupted => return th
    | .error => return { th with pc := .notify }
  | .notify => do
    guard (th.pc = .notify)
    return { th with pc := .exit }
  | .exit => do
    guard (th.pc = .exit)
    return { th with pc := .ended }
  | .cancel => do
    guard (th.cancelled = true ∧ th.pc ≠ .notCreated ∧ th.pc ≠ .ended)
    return { th with pc := .ended }

end SideThread

/-! ### The session -/

inductive Socket where
  | notOpened
  | opened
  | closed
  deriving DecidableEq, Repr

/-- Where `socket_to_socket` is. -/
inductive Main where
  | init (d : Side)
  | pipe
  | authenticate
  | create (d : Side)
  | read
  | join (tid : Side)
  | cancel (tidx : Side)
  /-- At the join after that. -/
  | reap (tidx : Side)
  | cancelBoth (d : Side)
  | reapBoth (d : Side)
  /-- At `exit`. -/
  | free (d : Side)
  | returned (res : ℤ)
  deriving DecidableEq, Repr

/-- How the relay's socket is authenticated. -/
inductive Auth where
  | escr
  | auth_string
  | none
  deriving DecidableEq, Repr

structure Session where
  side : Side → SideThread
  socket : Side → Socket
  /-- The threads whose ids are in the pipe. -/
  pipe : List Side
  main : Main
  exit_res : ℤ

/-- What the calls of `socket_to_socket` return, one for each step of it. -/
inductive MainEvent where
  | init (res : ℤ)
  | pipe (ok : Bool)
  | authenticate (res : ℤ)
  | create (res : ℤ)
  /-- Whether a whole thread id is read. -/
  | read (ok : Bool)
  /-- What returns nothing that is used. -/
  | go
  deriving DecidableEq, Repr

inductive Event where
  | main (e : MainEvent)
  | side (d : Side) (e : SideEvent)
  deriving DecidableEq, Repr

namespace Session
variable (auth : Auth) (s : Session)

def goto (main : Main) : Session := { s with main }

def setSide (d : Side) (th : SideThread) : Session := { s with side := Function.update s.side d th }

def setSocket (d : Side) (socket : Socket) : Session := { s with socket := Function.update s.socket d socket }

/-- `exit_res` is set, and `exit` comes next. -/
def exit (exit_res : ℤ) : Session := { s with exit_res, main := .free .a }

def created (d : Side) : Session := s.setSide d { s.side d with pc := .recv }

/-- `pthread_cancel` -/
def cancelled (d : Side) : Session := s.setSide d { s.side d with cancelled := true }

/-- `pthread_join`, which waits for the thread to end. -/
def joined (d : Side) : Option Session := do
  guard ((s.side d).pc = .ended)
  return s.setSide d { s.side d with joins := (s.side d).joins + 1 }

def mainStep (e : MainEvent) : Option Session :=
  match s.main, e with
  | .init .a, .init res => some (if res = 0 then (s.setSocket .a .opened).goto (.init .b) else s.goto (.returned res))
  | .init .b, .init res =>
    some (if res = 0 then (s.setSocket .b .opened).goto .pipe else (s.setSocket .a .closed).goto (.returned res))
  | .pipe, .pipe ok =>
    some (if ok then s.goto .authenticate else ((s.setSocket .a .closed).setSocket .b .closed).goto (.returned (-1)))
  | .authenticate, .authenticate res => some
    (match auth with
    | .escr => if res = 0 then s.goto (.create .a) else s.exit res
    | .auth_string => if res = 0 then s.goto (.create .a) else s.exit (-1)
    | .none => s.goto (.create .a))
  | .create .a, .create res => some (if res = 0 then (s.created .a).goto (.create .b) else s.exit res)
  | .create .b, .create res =>
    -- cancel_first
    some (if res = 0 then (s.created .b).goto .read else { s with exit_res := res, main := .cancel .a })
  | .read, .read ok =>
    if ok then
      match s.pipe with
      | [] => none
      | tid :: pipe => some { s with pipe, main := .join tid }
    else some (s.goto (.cancelBoth .a))
  | .join tid, .go => (s.joined tid).map (·.goto (.cancel (if tid = .a then .b else .a)))
  | .cancel tidx, .go => some ((s.cancelled tidx).goto (.reap tidx))
  | .reap tidx, .go => (s.joined tidx).map (·.goto (.free .a))
  | .cancelBoth .a, .go => some ((s.cancelled .a).goto (.cancelBoth .b))
  | .cancelBoth .b, .go => some ((s.cancelled .b).goto (.reapBoth .a))
  | .reapBoth .a, .go => (s.joined .a).map (·.goto (.reapBoth .b))
  | .reapBoth .b, .go => (s.joined .b).map (·.exit (-1))
  | .free .a, .go => some ((s.setSocket .a .closed).goto (.free .b))
  | .free .b, .go => some ((s.setSocket .b .closed).goto (.returned s.exit_res))
  | _, _ => none

def sideStep (d : Side) (e : SideEvent) : Option Session :=
  ((s.side d).step host transform e).map fun th =>
    { s.setSide d th with pipe := if e = .notify then s.pipe ++ [d] else s.pipe }

end Session

def machine (auth : Auth) : Machine Session Event where
  step s
    | .main e => s.mainStep auth e
    | .side d e => s.sideStep host transform d e

/-- `socket_to_socket` is called, `state` its transformers: of side a the encrypter, of side b the decrypter. -/
def called (state : Side → AesCtr) : Session :=
  ⟨fun d => ⟨.notCreated, [], ⟨state d, [], [], []⟩, false, false, 0⟩, fun _ => .notOpened, [], .init .a, 0⟩

/-! ### What is to hold -/

variable (k : Side → Keystream UInt8)

/-- What each byte of a side goes through at its position. -/
def stream (d : Side) : Keystream UInt8 := if transform then k d else .plain

/-- What mbedtls does with each side's transformer, from the state it is in when the session begins. -/
def Keyed (state : Side → AesCtr) : Prop :=
  transform = true → ∀ d, host.mbedtls_aes_crypt_ctr.Follows (state d) (k d)

namespace SideThread
variable (th : SideThread)

def Unborn : Prop := th.pc = .notCreated ∧ th.joins = 0

/-- Created, and not joined. -/
def Unjoined : Prop := th.pc ≠ .notCreated ∧ th.joins = 0

/-- Ended, and joined once. -/
def Reaped : Prop := th.pc = .ended ∧ th.joins = 1

end SideThread

structure Relayed (s : Session) : Prop where
  /-- What a thread has sent on is a prefix of what it has received, transformed. -/
  sent : ∀ d, (s.side d).flow.sent <+: (stream transform k d).crypt 0 (s.side d).received
  /-- A thread that stopped at the end of the stream has sent all of it. -/
  atEnd : ∀ d, (s.side d).atEnd = true → (s.side d).flow.sent = (stream transform k d).crypt 0 (s.side d).received
  /-- When a socket is closed, every thread there ever was has ended and been joined, once. -/
  closed : ∀ d, s.socket d = .closed → ∀ d', (s.side d').Unborn ∨ (s.side d').Reaped
  /-- And so it is on the return, with no socket left open. -/
  returned : ∀ res, s.main = .returned res → ∀ d, s.socket d ≠ .opened ∧ ((s.side d).Unborn ∨ (s.side d).Reaped)

/-! ### One thread -/

variable {host transform k}

/-- What a thread has received, as far as it has come with it. -/
def SideThread.Progress (th : SideThread) : Prop :=
  match th.pc with
  | .notCreated | .recv => th.flow.pending = [] ∧ th.flow.taken.flatten = th.received ∧ th.atEnd = false
  | .transform buffer => th.flow.pending = [] ∧ th.flow.taken.flatten ++ buffer = th.received ∧ th.atEnd = false
  | .send => th.flow.taken.flatten = th.received ∧ th.atEnd = false
  | .notify | .exit | .ended => th.flow.taken.flatten <+: th.received ∧
      (th.atEnd = true → th.flow.pending = [] ∧ th.flow.taken.flatten = th.received)

variable (host transform) in
structure SideThread.Sound (state : AesCtr) (th : SideThread) : Prop where
  whole : th.flow.Whole (crypt host transform) state
  progress : th.Progress

namespace SideThread
variable {state : AesCtr} {th th' : SideThread}

theorem Progress.taken_prefix (h : th.Progress) : th.flow.taken.flatten <+: th.received := by
  unfold Progress at h
  split at h
  · exact h.2.1 ▸ List.prefix_refl _
  · exact h.2.1 ▸ List.prefix_refl _
  · exact ⟨_, h.2.1⟩
  · exact h.1 ▸ List.prefix_refl _
  · exact h.1
  · exact h.1
  · exact h.1

theorem Progress.atEnd (h : th.Progress) (hend : th.atEnd = true) :
    th.flow.pending = [] ∧ th.flow.taken.flatten = th.received := by
  unfold Progress at h
  have hnot (hfalse : th.atEnd = false) : th.flow.pending = [] ∧ th.flow.taken.flatten = th.received := by
    rw [hend] at hfalse
    cases hfalse
  split at h
  · exact hnot h.2.2
  · exact hnot h.2.2
  · exact hnot h.2.2
  · exact hnot h.2
  · exact h.2 hend
  · exact h.2 hend
  · exact h.2 hend

/-- Wherever a thread leaves off, other than at the end of the stream. -/
theorem Sound.stop (h : th.Sound host transform state) {pc : Pc} (hpc : pc = .notify ∨ pc = .exit ∨ pc = .ended) :
    Sound host transform state { th with pc } := by
  have hleft := And.intro h.progress.taken_prefix h.progress.atEnd
  refine ⟨h.whole, ?_⟩
  rcases hpc with rfl | rfl | rfl
  · exact hleft
  · exact hleft
  · exact hleft

theorem Sound.sending {flow : Pump AesCtr UInt8} (hwhole : flow.Whole (crypt host transform) state)
    (htaken : flow.taken.flatten = th.received) (hend : th.atEnd = false) :
    Sound host transform state (th.sending flow) := by
  refine ⟨hwhole, ?_⟩
  unfold SideThread.sending Progress
  by_cases hpending : flow.pending = []
  · rw [if_pos hpending]
    exact ⟨hpending, htaken, hend⟩
  · rw [if_neg hpending]
    exact ⟨htaken, hend⟩

/-- What one step does: more is received, its end comes, the chunk is transformed, some of it is sent or none, or
the thread stops. -/
theorem step_cases {e : SideEvent} (hstep : th.step host transform e = some th') :
    (∃ bytes, th.pc = .recv ∧ th' = { th with pc := .transform bytes, received := th.received ++ bytes }) ∨
    (th.pc = .recv ∧ th' = { th with pc := .notify, atEnd := true }) ∨
    (∃ buffer, th.pc = .transform buffer ∧ th' = th.sending (th.flow.feed (crypt host transform) buffer 0)) ∨
    (∃ n, th.pc = .send ∧ th' = th.sending (th.flow.flush n)) ∨
    (th.pc = .send ∧ th' = th) ∨
    ∃ pc, th.pc ≠ .notCreated ∧ th.pc ≠ .ended ∧ (pc = .notify ∨ pc = .exit ∨ pc = .ended) ∧ th' = { th with pc } := by
  have hstop {pc pc' : Pc} (hpc : th.pc = pc) (hborn : pc ≠ .notCreated) (hended : pc ≠ .ended)
      (hpc' : pc' = .notify ∨ pc' = .exit ∨ pc' = .ended) (hth : some { th with pc := pc' } = some th') :
      ∃ pc, th.pc ≠ .notCreated ∧ th.pc ≠ .ended ∧ (pc = .notify ∨ pc = .exit ∨ pc = .ended) ∧ th' = { th with pc } := by
    rw [hpc]
    exact ⟨pc', hborn, hended, hpc', (Option.some.inj hth).symm⟩
  cases e with
  | recv res =>
    obtain ⟨_, hguard, hstep⟩ := Option.bind_eq_some_iff.mp hstep
    have hpc := (Option.guard_eq_some' _).mp hguard
    cases res with
    | data bytes =>
      obtain ⟨_, -, hstep⟩ := Option.bind_eq_some_iff.mp hstep
      exact .inl ⟨bytes, hpc, (Option.some.inj hstep).symm⟩
    | eof => exact .inr (.inl ⟨hpc, (Option.some.inj hstep).symm⟩)
    | error => exact .inr (.inr (.inr (.inr (.inr (hstop hpc (by simp) (by simp) (.inl rfl) hstep)))))
  | transform ok =>
    dsimp only [SideThread.step] at hstep
    split at hstep
    · rename_i buffer hpc
      split at hstep
      · exact .inr (.inr (.inl ⟨buffer, hpc, (Option.some.inj hstep).symm⟩))
      · split at hstep
        · exact .inr (.inr (.inr (.inr (.inr (hstop hpc (by simp) (by simp) (.inl rfl) hstep)))))
        · cases hstep
    · cases hstep
  | send res =>
    obtain ⟨_, hguard, hstep⟩ := Option.bind_eq_some_iff.mp hstep
    have hpc := (Option.guard_eq_some' _).mp hguard
    cases res with
    | sent n =>
      obtain ⟨_, -, hstep⟩ := Option.bind_eq_some_iff.mp hstep
      exact .inr (.inr (.inr (.inl ⟨n, hpc, (Option.some.inj hstep).symm⟩)))
    | interrupted => exact .inr (.inr (.inr (.inr (.inl ⟨hpc, (Option.some.inj hstep).symm⟩))))
    | error => exact .inr (.inr (.inr (.inr (.inr (hstop hpc (by simp) (by simp) (.inl rfl) hstep)))))
  | notify =>
    obtain ⟨_, hguard, hstep⟩ := Option.bind_eq_some_iff.mp hstep
    have hpc := (Option.guard_eq_some' _).mp hguard
    exact .inr (.inr (.inr (.inr (.inr (hstop hpc (by simp) (by simp) (.inr (.inl rfl)) hstep)))))
  | exit =>
    obtain ⟨_, hguard, hstep⟩ := Option.bind_eq_some_iff.mp hstep
    have hpc := (Option.guard_eq_some' _).mp hguard
    exact .inr (.inr (.inr (.inr (.inr (hstop hpc (by simp) (by simp) (.inr (.inr rfl)) hstep)))))
  | cancel =>
    obtain ⟨_, hguard, hstep⟩ := Option.bind_eq_some_iff.mp hstep
    obtain ⟨-, hborn, hended⟩ := (Option.guard_eq_some' _).mp hguard
    exact .inr (.inr (.inr (.inr (.inr (hstop rfl hborn hended (.inr (.inr rfl)) hstep)))))

theorem Sound.step (h : th.Sound host transform state) {e : SideEvent} (hstep : th.step host transform e = some th') :
    th'.Sound host transform state := by
  have hprogress := h.progress
  unfold Progress at hprogress
  obtain ⟨bytes, hpc, rfl⟩ | ⟨hpc, rfl⟩ | ⟨buffer, hpc, rfl⟩ | ⟨n, hpc, rfl⟩ | ⟨hpc, rfl⟩ | ⟨pc, -, -, hpc, rfl⟩ :=
    step_cases hstep
  · rw [hpc] at hprogress
    obtain ⟨hpending, htaken, hend⟩ := hprogress
    exact ⟨h.whole, hpending, by rw [htaken], hend⟩
  · rw [hpc] at hprogress
    obtain ⟨hpending, htaken, -⟩ := hprogress
    exact ⟨h.whole, htaken ▸ List.prefix_refl _, fun _ => ⟨hpending, htaken⟩⟩
  · rw [hpc] at hprogress
    obtain ⟨hpending, htaken, hend⟩ := hprogress
    refine Sound.sending (h.whole.feed hpending buffer 0) ?_ hend
    rw [Pump.feed, List.flatten_append, List.flatten_singleton, htaken]
  · rw [hpc] at hprogress
    obtain ⟨htaken, hend⟩ := hprogress
    exact Sound.sending (h.whole.flush n) htaken hend
  · exact h
  · exact h.stop hpc

/-- A thread goes on only between its creation and its end. -/
theorem step_alive {e : SideEvent} (hstep : th.step host transform e = some th') :
    th.pc ≠ .notCreated ∧ th.pc ≠ .ended ∧ th'.pc ≠ .notCreated ∧ th'.joins = th.joins := by
  have hsending (flow : Pump AesCtr UInt8) : (th.sending flow).pc ≠ .notCreated := by
    unfold SideThread.sending
    split <;> simp
  obtain ⟨bytes, hpc, rfl⟩ | ⟨hpc, rfl⟩ | ⟨buffer, hpc, rfl⟩ | ⟨n, hpc, rfl⟩ | ⟨hpc, rfl⟩ | ⟨pc, hborn, hended, hpc, rfl⟩ :=
    step_cases hstep
  · rw [hpc]
    exact ⟨by simp, by simp, by simp, rfl⟩
  · rw [hpc]
    exact ⟨by simp, by simp, by simp, rfl⟩
  · rw [hpc]
    exact ⟨by simp, by simp, hsending _, rfl⟩
  · rw [hpc]
    exact ⟨by simp, by simp, hsending _, rfl⟩
  · rw [hpc]
    exact ⟨by simp, by simp, by simp, rfl⟩
  · refine ⟨hborn, hended, ?_, rfl⟩
    rcases hpc with rfl | rfl | rfl <;> simp

/-- A thread's own steps don't change whether it is there and joined. -/
theorem step_kept {e : SideEvent} (hstep : th.step host transform e = some th') :
    (th.Unborn → th'.Unborn) ∧ (th.Unjoined → th'.Unjoined) ∧ (th.Reaped → th'.Reaped) := by
  obtain ⟨hborn, hended, hborn', hjoins⟩ := step_alive hstep
  refine ⟨fun h => absurd h.1 hborn, fun h => ⟨hborn', ?_⟩, fun h => absurd h.1 hended⟩
  rw [hjoins]
  exact h.2

end SideThread

/-! ### The session's runs -/

/-- What threads there are, by where `socket_to_socket` is. -/
def Main.Threads (side : Side → SideThread) : Main → Prop
  | .init _ | .pipe | .authenticate | .create .a => ∀ d, (side d).Unborn
  | .create .b => (side .a).Unjoined ∧ (side .b).Unborn
  | .read | .join _ | .cancelBoth _ | .reapBoth .a => ∀ d, (side d).Unjoined
  | .cancel tidx | .reap tidx => (side tidx).Unjoined ∧ ((side tidx.other).Unborn ∨ (side tidx.other).Reaped)
  | .reapBoth .b => (side .a).Reaped ∧ (side .b).Unjoined
  | .free _ | .returned _ => ∀ d, (side d).Unborn ∨ (side d).Reaped

def Main.Sockets (socket : Side → Socket) : Main → Prop
  | .init .a => ∀ d, socket d = .notOpened
  | .init .b => socket .a = .opened ∧ socket .b = .notOpened
  | .free .b => socket .a = .closed ∧ socket .b = .opened
  | .returned _ => ∀ d, socket d ≠ .opened
  | _ => ∀ d, socket d = .opened

namespace Session

variable {s t : Session} {d : Side} {th : SideThread}

@[simp] theorem side_setSide : (s.setSide d th).side d = th := Function.update_self ..

theorem side_setSide_of_ne {d' : Side} (h : d' ≠ d) : (s.setSide d th).side d' = s.side d' := Function.update_of_ne h ..

@[simp] theorem socket_setSocket {socket : Socket} : (s.setSocket d socket).socket d = socket := Function.update_self ..

/-- What a change of one side keeps, of whichever side it is said. -/
theorem kept_setSide {P : SideThread → Prop} (h : P (s.side d) → P th) {d' : Side} (hd' : P (s.side d')) :
    P ((s.setSide d th).side d') := by
  by_cases hd : d' = d
  · subst hd
    rw [side_setSide]
    exact h hd'
  · rw [side_setSide_of_ne hd]
    exact hd'

theorem threads_sideStep {e : SideEvent} (h : s.main.Threads s.side) (hstep : s.sideStep host transform d e = some t) :
    t.main.Threads t.side := by
  obtain ⟨th, hth, rfl⟩ := Option.map_eq_some_iff.mp hstep
  obtain ⟨hunborn, hunjoined, hreaped⟩ := SideThread.step_kept hth
  have hU {d' : Side} (h : (s.side d').Unborn) : ((s.setSide d th).side d').Unborn := kept_setSide hunborn h
  have hJ {d' : Side} (h : (s.side d').Unjoined) : ((s.setSide d th).side d').Unjoined := kept_setSide hunjoined h
  have hR {d' : Side} (h : (s.side d').Reaped) : ((s.setSide d th).side d').Reaped := kept_setSide hreaped h
  rcases s with ⟨side, socket, pipe, main, exit_res⟩
  cases main with
  | init d' => exact fun d => hU (h d)
  | pipe => exact fun d => hU (h d)
  | authenticate => exact fun d => hU (h d)
  | create d' =>
    cases d' with
    | a => exact fun d => hU (h d)
    | b => exact ⟨hJ h.1, hU h.2⟩
  | read => exact fun d => hJ (h d)
  | join tid => exact fun d => hJ (h d)
  | cancel tidx => exact ⟨hJ h.1, h.2.imp hU hR⟩
  | reap tidx => exact ⟨hJ h.1, h.2.imp hU hR⟩
  | cancelBoth d' => exact fun d => hJ (h d)
  | reapBoth d' =>
    cases d' with
    | a => exact fun d => hJ (h d)
    | b => exact ⟨hR h.1, hJ h.2⟩
  | free d' => exact fun d => (h d).imp hU hR
  | returned res => exact fun d => (h d).imp hU hR

/-- The threads' own data are as they should be. -/
def Sound (host : MbedHost) (transform : Bool) (state : Side → AesCtr) (s : Session) : Prop :=
  ∀ d, (s.side d).Sound host transform (state d)

variable {state : Side → AesCtr}

theorem Sound.setSide (h : s.Sound host transform state) (hth : th.Sound host transform (state d)) :
    (s.setSide d th).Sound host transform state := by
  intro d'
  by_cases hd : d' = d
  · subst hd
    rw [side_setSide]
    exact hth
  · rw [side_setSide_of_ne hd]
    exact h d'

theorem Sound.created (h : s.Sound host transform state) (hborn : (s.side d).Unborn) :
    (s.created d).Sound host transform state := by
  have hprogress := (h d).progress
  unfold SideThread.Progress at hprogress
  rw [hborn.1] at hprogress
  exact Sound.setSide h ⟨(h d).whole, hprogress⟩

theorem Sound.cancelled (h : s.Sound host transform state) (d : Side) : (s.cancelled d).Sound host transform state :=
  Sound.setSide h ⟨(h d).whole, (h d).progress⟩

/-- A join ends with the thread joined once more, and it had ended. -/
theorem joined_cases (h : s.joined d = some t) : (s.side d).pc = .ended ∧
    t = s.setSide d { s.side d with joins := (s.side d).joins + 1 } := by
  obtain ⟨_, hguard, h⟩ := Option.bind_eq_some_iff.mp h
  exact ⟨(Option.guard_eq_some' _).mp hguard, (Option.some.inj h).symm⟩

/-- A thread that is joined for the first time is reaped, and all else is as it was. -/
theorem joined_spec (hjoin : s.joined d = some t) (hsound : s.Sound host transform state) (h : (s.side d).Unjoined) :
    t.Sound host transform state ∧ (t.side d).Reaped ∧ t.side d.other = s.side d.other ∧ t.socket = s.socket := by
  obtain ⟨hended, rfl⟩ := joined_cases hjoin
  refine ⟨Sound.setSide hsound ⟨(hsound d).whole, (hsound d).progress⟩, ?_, ?_, rfl⟩
  · rw [side_setSide]
    refine ⟨hended, ?_⟩
    rw [h.2]
  · refine side_setSide_of_ne ?_
    cases d <;> simp [Side.other]

theorem unjoined_created (h : (s.side d).Unborn) : ((s.created d).side d).Unjoined := by
  rw [created, side_setSide]
  exact ⟨by simp, h.2⟩

theorem side_cancelled {P : SideThread → Prop} {d' : Side} (hP : ∀ th : SideThread, P th → P { th with cancelled := true })
    (h : P (s.side d')) : P ((s.cancelled d).side d') := kept_setSide (hP (s.side d)) h

structure Inv (host : MbedHost) (transform : Bool) (state : Side → AesCtr) (s : Session) : Prop where
  sound : s.Sound host transform state
  threads : s.main.Threads s.side
  sockets : s.main.Sockets s.socket

theorem Inv.sideStep {e : SideEvent} (h : s.Inv host transform state) (hstep : s.sideStep host transform d e = some t) :
    t.Inv host transform state := by
  refine ⟨?_, threads_sideStep h.threads hstep, ?_⟩
  · obtain ⟨th, hth, rfl⟩ := Option.map_eq_some_iff.mp hstep
    exact Sound.setSide h.sound ((h.sound d).step hth)
  · obtain ⟨th, -, rfl⟩ := Option.map_eq_some_iff.mp hstep
    exact h.sockets

theorem Inv.mainStep {auth : Auth} {e : MainEvent} (h : s.Inv host transform state) (hstep : s.mainStep auth e = some t) :
    t.Inv host transform state := by
  obtain ⟨hsound, hthreads, hsockets⟩ := h
  unfold Session.mainStep at hstep
  split at hstep
  · rename_i res hmain
    rw [hmain] at hthreads hsockets
    obtain rfl := Option.some.inj hstep
    split
    · refine ⟨hsound, hthreads, ?_, ?_⟩
      · simp [goto, setSocket]
      · simp [goto, setSocket, hsockets .b]
    · refine ⟨hsound, fun d => .inl (hthreads d), fun d => ?_⟩
      simp [goto, hsockets d]
  · rename_i res hmain
    rw [hmain] at hthreads hsockets
    obtain rfl := Option.some.inj hstep
    split
    · refine ⟨hsound, hthreads, fun d => ?_⟩
      cases d <;> simp [goto, setSocket, hsockets.1]
    · refine ⟨hsound, fun d => .inl (hthreads d), fun d => ?_⟩
      cases d <;> simp [goto, setSocket, hsockets.2]
  · rename_i ok hmain
    rw [hmain] at hthreads hsockets
    obtain rfl := Option.some.inj hstep
    split
    · exact ⟨hsound, hthreads, hsockets⟩
    · refine ⟨hsound, fun d => .inl (hthreads d), fun d => ?_⟩
      cases d <;> simp [goto, setSocket]
  · rename_i res hmain
    rw [hmain] at hthreads hsockets
    obtain rfl := Option.some.inj hstep
    have hexit (exit_res : ℤ) : (s.exit exit_res).Inv host transform state :=
      ⟨hsound, fun d => .inl (hthreads d), hsockets⟩
    have hcreate : (s.goto (.create .a)).Inv host transform state := ⟨hsound, hthreads, hsockets⟩
    split
    · split
      · exact hcreate
      · exact hexit res
    · split
      · exact hcreate
      · exact hexit (-1)
    · exact hcreate
  · rename_i res hmain
    rw [hmain] at hthreads hsockets
    obtain rfl := Option.some.inj hstep
    split
    · exact ⟨hsound.created (hthreads .a), ⟨unjoined_created (hthreads .a), hthreads .b⟩, hsockets⟩
    · exact ⟨hsound, fun d => .inl (hthreads d), hsockets⟩
  · rename_i res hmain
    rw [hmain] at hthreads hsockets
    obtain rfl := Option.some.inj hstep
    split
    · refine ⟨hsound.created hthreads.2, fun d => ?_, hsockets⟩
      cases d with
      | a => exact hthreads.1
      | b => exact unjoined_created hthreads.2
    · exact ⟨hsound, ⟨hthreads.1, .inl hthreads.2⟩, hsockets⟩
  · rename_i ok hmain
    rw [hmain] at hthreads hsockets
    split at hstep
    · split at hstep
      · cases hstep
      · obtain rfl := Option.some.inj hstep
        exact ⟨hsound, hthreads, hsockets⟩
    · obtain rfl := Option.some.inj hstep
      exact ⟨hsound, hthreads, hsockets⟩
  · rename_i tid hmain
    rw [hmain] at hthreads hsockets
    obtain ⟨u, hjoin, rfl⟩ := Option.map_eq_some_iff.mp hstep
    obtain ⟨hsound, hreaped, hother, hsocket⟩ := joined_spec hjoin hsound (hthreads tid)
    refine ⟨hsound, ?_, hsocket ▸ hsockets⟩
    have hleft : (u.side tid.other).Unjoined := hother ▸ hthreads tid.other
    cases tid with
    | a => exact ⟨hleft, .inr hreaped⟩
    | b => exact ⟨hleft, .inr hreaped⟩
  · rename_i tidx hmain
    rw [hmain] at hthreads hsockets
    obtain rfl := Option.some.inj hstep
    refine ⟨hsound.cancelled tidx, ⟨side_cancelled (fun _ => id) hthreads.1, ?_⟩, hsockets⟩
    exact hthreads.2.imp (side_cancelled fun _ => id) (side_cancelled fun _ => id)
  · rename_i tidx hmain
    rw [hmain] at hthreads hsockets
    obtain ⟨u, hjoin, rfl⟩ := Option.map_eq_some_iff.mp hstep
    obtain ⟨hsound, hreaped, hother, hsocket⟩ := joined_spec hjoin hsound hthreads.1
    refine ⟨hsound, ?_, hsocket ▸ hsockets⟩
    have hleft : (u.side tidx.other).Unborn ∨ (u.side tidx.other).Reaped := hother ▸ hthreads.2
    intro d
    cases tidx with
    | a =>
      cases d with
      | a => exact .inr hreaped
      | b => exact hleft
    | b =>
      cases d with
      | a => exact hleft
      | b => exact .inr hreaped
  · rename_i hmain
    rw [hmain] at hthreads hsockets
    obtain rfl := Option.some.inj hstep
    exact ⟨hsound.cancelled .a, fun d => side_cancelled (fun _ => id) (hthreads d), hsockets⟩
  · rename_i hmain
    rw [hmain] at hthreads hsockets
    obtain rfl := Option.some.inj hstep
    exact ⟨hsound.cancelled .b, fun d => side_cancelled (fun _ => id) (hthreads d), hsockets⟩
  · rename_i hmain
    rw [hmain] at hthreads hsockets
    obtain ⟨u, hjoin, rfl⟩ := Option.map_eq_some_iff.mp hstep
    obtain ⟨hsound, hreaped, hother, hsocket⟩ := joined_spec hjoin hsound (hthreads .a)
    have hleft : (u.side .b).Unjoined := hother ▸ hthreads .b
    exact ⟨hsound, ⟨hreaped, hleft⟩, hsocket ▸ hsockets⟩
  · rename_i hmain
    rw [hmain] at hthreads hsockets
    obtain ⟨u, hjoin, rfl⟩ := Option.map_eq_some_iff.mp hstep
    obtain ⟨hsound, hreaped, hother, hsocket⟩ := joined_spec hjoin hsound hthreads.2
    have hleft : (u.side .a).Reaped := hother ▸ hthreads.1
    refine ⟨hsound, fun d => .inr ?_, hsocket ▸ hsockets⟩
    cases d with
    | a => exact hleft
    | b => exact hreaped
  · rename_i hmain
    rw [hmain] at hthreads hsockets
    obtain rfl := Option.some.inj hstep
    refine ⟨hsound, hthreads, ?_, ?_⟩
    · simp [goto, setSocket]
    · simp [goto, setSocket, hsockets .b]
  · rename_i hmain
    rw [hmain] at hthreads hsockets
    obtain rfl := Option.some.inj hstep
    refine ⟨hsound, hthreads, fun d => ?_⟩
    cases d <;> simp [goto, setSocket, hsockets.1]
  · cases hstep

theorem inv_called (state : Side → AesCtr) : (called state).Inv host transform state :=
  ⟨fun d => ⟨Pump.Whole.start (state d), rfl, rfl, rfl⟩, fun _ => ⟨rfl, rfl⟩, fun _ => rfl⟩

/-- A socket is closed only where no thread is left to join. -/
theorem reaped_of_closed (hthreads : s.main.Threads s.side) (hsockets : s.main.Sockets s.socket) (h : s.socket d = .closed)
    (d' : Side) : (s.side d').Unborn ∨ (s.side d').Reaped := by
  have hopened (hall : ∀ d, s.socket d = .opened) : False := by
    rw [hall d] at h
    cases h
  cases hmain : s.main with
  | init e =>
    rw [hmain] at hthreads
    exact .inl (hthreads d')
  | free e =>
    rw [hmain] at hthreads
    exact hthreads d'
  | returned res =>
    rw [hmain] at hthreads
    exact hthreads d'
  | _ =>
    rw [hmain] at hsockets
    exact (hopened hsockets).elim

variable {k : Side → Keystream UInt8}

theorem Inv.relayed (h : s.Inv host transform state) (hk : Keyed host transform k state) : Relayed transform k s := by
  have hfollows (d : Side) : (crypt host transform).Follows (state d) (stream transform k d) := by
    cases transform with
    | true => exact hk rfl d
    | false => exact Transducer.follows_unchanged (state d)
  refine ⟨fun d => ?_, fun d hend => ?_, fun d => reaped_of_closed h.threads h.sockets, fun res hmain d => ?_⟩
  · obtain ⟨more, hmore⟩ := (h.sound d).progress.taken_prefix
    have hsent := (h.sound d).whole.sent_prefix (hfollows d)
    rw [← hmore]
    exact hsent.trans ( Keystream.crypt_prefix _ 0 _ more)
  · obtain ⟨hpending, htaken⟩ := (h.sound d).progress.atEnd hend
    have hsent := (h.sound d).whole.sent_eq (hfollows d)
    rwa [hpending, List.append_nil, htaken] at hsent
  · have hthreads := h.threads
    have hsockets := h.sockets
    rw [hmain] at hthreads hsockets
    exact ⟨hsockets d, hthreads d⟩

/-- However the two threads and the one that joins them come between each other, and whatever their calls return. -/
theorem relayed_of_run {auth : Auth} {es : List Event} (hk : Keyed host transform k state)
    (hrun : (machine host transform auth).run (called state) es = some t) : Relayed transform k t := by
  refine Inv.relayed ((machine host transform auth).invariant (I := Inv host transform state) ?_ (inv_called state) hrun) hk
  intro s e t h hstep
  cases e with
  | main e => exact h.mainStep hstep
  | side d e => exact h.sideStep hstep

open ArduinoRelay.RelaySub (zeroStream sampleHost)

/-- Both transformers are set up with a key and an IV of zeros. -/
def zeroState : Side → AesCtr := fun _ => ⟨List.replicate 32 0, List.replicate 16 0, 0, List.replicate 16 0⟩

/-- Side a's stream ends after its chunk is sent in two parts; then side b's send fails, and it is cancelled before it
can exit. -/
def endOfSideA : List Event :=
  [.main (.init 0), .main (.init 0), .main (.pipe true), .main (.authenticate 0), .main (.create 0),
    .side .a (.recv (.data [1, 2, 3])), .main (.create 0), .side .a (.transform true), .side .b (.recv (.data [9])),
    .side .a (.send (.sent 1)), .side .a (.send .interrupted), .side .b (.transform true), .side .a (.send (.sent 2)),
    .side .a (.recv .eof), .side .a .notify, .main (.read true), .side .b (.send .error), .side .b .notify,
    .side .a .exit, .main .go, .main .go, .side .b .cancel, .main .go, .main .go, .main .go]

theorem relayed_endOfSideA : ∃ t, (machine sampleHost true .none).run (called zeroState) endOfSideA = some t ∧
    t.main = .returned 0 ∧ (t.side .a).flow.sent = zeroStream.crypt 0 [1, 2, 3] ∧
      Relayed true (fun _ => zeroStream) t := by
  have hkeyed : Keyed sampleHost true (fun _ => zeroStream) zeroState := by
    intro _ d
    exact Transducer.follows_of_counts AesCtr.nc_off (fun _ _ => ⟨rfl, rfl⟩) rfl
  obtain ⟨t, ht⟩ : ∃ t, (machine sampleHost true .none).run (called zeroState) endOfSideA = some t := ⟨_, rfl⟩
  refine ⟨t, ht, ?_, ?_, relayed_of_run hkeyed ht⟩
  · obtain rfl := Option.some.inj ht
    rfl
  · obtain rfl := Option.some.inj ht
    decide +kernel

end Session

end NoPorts.CSrvRelay
