import NoPorts.ConnectAgreement
import NoPorts.Lib.Machine

/-! An encrypted tunnel of many connections: the client's `beforeJoining` calls, the relay's
authentications, and the daemon's handling of connect messages. -/
namespace NoPorts.MultiTunnel
open Lib Connect

/-- What a side's transformers are given: a key and an IV for each direction. -/
structure SideKeys where
  c2d : String × String
  d2c : String × String
  deriving DecidableEq, Repr

/-- What the client gives them. -/
def clientKeys (twinKeys : Bool) (c2d d2c : SessionKey) : SideKeys :=
  let d2c := if twinKeys then d2c else c2d
  ⟨(c2d.keyText, c2d.ivText), (d2c.keyText, d2c.ivText)⟩

/-- What the daemon gives them. -/
def daemonKeys (request : ConnectRequest) : Option SideKeys :=
  match request.aesC2D, request.ivC2D with
  | some aesC2D, some ivC2D =>
    match request.aesD2C, request.ivD2C with
    | none, _ => some ⟨(aesC2D, ivC2D), (aesC2D, ivC2D)⟩
    | some aesD2C, some ivD2C => some ⟨(aesC2D, ivC2D), (aesD2C, ivD2C)⟩
    | some _, none => none
  | _, _ => none

/-- Where the relay's `socketHandler` is with a socket. -/
inductive HandlerPc where
  | verifying
  /-- "ok" has been written, and is being flushed. -/
  | flushing
  | handed
  | failed
  deriving DecidableEq, Repr

/-- A call of `beforeJoining`, with the keys it has drawn. -/
inductive BeforeJoining where
  | authenticating
  | joined (keys : SideKeys)
  | failed
  deriving DecidableEq, Repr

/-- A socket at the relay; "ok" may still be on its way when the relay has given up. -/
structure RelaySocket where
  pc : HandlerPc
  ok : Bool
  deriving DecidableEq, Repr

structure LocalConnection where
  relay : RelaySocket
  call : BeforeJoining
  deriving DecidableEq, Repr

/-- A socket of the daemon's, for a connect message by its place in the control channel. -/
structure DaemonSocket where
  relay : RelaySocket
  message : ℕ
  request : ConnectRequest
  deriving DecidableEq, Repr

/-- Where the daemon is in `_handleMultiConnectRequest`; the listener's mutex lets it handle one
message at a time. -/
inductive Handling where
  | idle
  | connecting (message attempt : ℕ) (request : ConnectRequest)
  | authenticating (message attempt : ℕ) (request : ConnectRequest) (socket : ℕ)
  | connectingLocally
  deriving DecidableEq, Repr

structure Tunnel where
  twinKeys : Bool
  connections : List LocalConnection
  /-- The connect messages sent, in order, with the connection each is of. -/
  control : List (ℕ × ConnectRequest)
  /-- How many of them the daemon has taken. -/
  taken : ℕ
  handling : Handling
  daemonSockets : List DaemonSocket
  /-- The client's sockets in the order the relay's connector has been handed them. -/
  sideA : List ℕ
  sideB : List ℕ

/-- The relay verifies a socket and writes "ok", hands it over, or gives it up, which it may after
ten seconds even at the flush. -/
inductive RelayEvent where
  | verified
  | handed
  | refused
  deriving DecidableEq, Repr

inductive Event where
  | accept
  | relayA (i : ℕ) (e : RelayEvent)
  | relayB (j : ℕ) (e : RelayEvent)
  | authenticated (i : ℕ) (c2d d2c : SessionKey)
  /-- `authenticate` returns false. -/
  | notAuthenticated (i : ℕ) (c2d d2c : SessionKey)
  | authenticationFailed (i : ℕ)
  | take
  | connected
  | connectionFailed
  | daemonAuthenticated
  | daemonNotAuthenticated
  | localConnected

/-- What `socketHandler` makes of a socket. -/
def RelaySocket.step (relay : RelaySocket) : RelayEvent → Option RelaySocket
  | .verified => if relay.pc = .verifying then some ⟨.flushing, true⟩ else none
  | .handed => if relay.pc = .flushing then some { relay with pc := .handed } else none
  | .refused =>
    if relay.pc = .verifying ∨ relay.pc = .flushing then some { relay with pc := .failed } else none

namespace Tunnel

/-- The end of `beforeJoining`. -/
def join (s : Tunnel) (i : ℕ) (connection : LocalConnection) (c2d d2c : SessionKey) : Tunnel :=
  { s with
    connections := s.connections.set i
      { connection with call := .joined (clientKeys s.twinKeys c2d d2c) }
    control := s.control ++ [(i, request s.twinKeys c2d d2c)] }

/-- The daemon's listener and the message it handles. -/
def onDaemon (s : Tunnel) : Handling → Event → Option Tunnel
  | .idle, .take => (s.control[s.taken]?).map fun message =>
    { s with taken := s.taken + 1, handling := .connecting s.taken 1 message.2 }
  | .connecting message attempt request, .connected =>
    some { s with
      daemonSockets := s.daemonSockets ++ [⟨⟨.verifying, false⟩, message, request⟩]
      handling := .authenticating message attempt request s.daemonSockets.length }
  -- the connector is closed, but the listener goes on
  | .connecting _ _ _, .connectionFailed => some { s with handling := .idle }
  | .authenticating _ _ _ socket, .daemonAuthenticated =>
    (s.daemonSockets[socket]?).bind fun d =>
      if d.relay.ok then some { s with handling := .connectingLocally } else none
  | .authenticating message attempt request _, .daemonNotAuthenticated =>
    if attempt < 4 then some { s with handling := .connecting message (attempt + 1) request }
    else some { s with handling := .idle }
  | .connectingLocally, .localConnected => some { s with handling := .idle }
  | _, _ => none

def step (s : Tunnel) : Event → Option Tunnel
  | .accept => some { s with
      connections := s.connections ++ [⟨⟨.verifying, false⟩, .authenticating⟩] }
  | .relayA i e => do
    let connection ← s.connections[i]?
    let relay ← connection.relay.step e
    return { s with
      connections := s.connections.set i { connection with relay := relay }
      sideA := if e = .handed then s.sideA ++ [i] else s.sideA }
  | .relayB j e => do
    let socket ← s.daemonSockets[j]?
    let relay ← socket.relay.step e
    return { s with
      daemonSockets := s.daemonSockets.set j { socket with relay := relay }
      sideB := if e = .handed then s.sideB ++ [j] else s.sideB }
  | .authenticated i c2d d2c => do
    let connection ← s.connections[i]?
    guard (connection.call = .authenticating ∧ connection.relay.ok = true)
    return s.join i connection c2d d2c
  | .notAuthenticated i c2d d2c => do
    let connection ← s.connections[i]?
    guard (connection.call = .authenticating)
    -- the socket is destroyed, and the message sent all the same
    return s.join i connection c2d d2c
  | .authenticationFailed i => do
    let connection ← s.connections[i]?
    guard (connection.call = .authenticating)
    return { s with connections := s.connections.set i { connection with call := .failed } }
  | e => s.onDaemon s.handling e

def machine : Machine Tunnel Event := ⟨step⟩

/-- A tunnel whose control channel is up. -/
def opened (twinKeys : Bool) : Tunnel := ⟨twinKeys, [], [], 0, .idle, [], [], []⟩

/-- The pairs the relay has joined, first in, first out. -/
def joined (s : Tunnel) : List (ℕ × ℕ) := s.sideA.zip s.sideB

/-- The two sockets have been given the same keys and IVs. -/
def SameKeys (s : Tunnel) (pair : ℕ × ℕ) : Prop :=
  ∃ connection socket keys, s.connections[pair.1]? = some connection ∧
    s.daemonSockets[pair.2]? = some socket ∧ connection.call = .joined keys ∧
      daemonKeys socket.request = some keys

/-- The step leaves the relay's order of sockets that of the connect messages: the `n`th socket
of the client's and the `n`th message are of one connection, and the `n`th socket of the daemon's
is for the `n`th message. -/
def InTurn (s : Tunnel) : Event → Prop
  | .relayA i .handed => ∀ message, s.control[s.sideA.length]? = some message → message.1 = i
  | .authenticated i _ _ | .notAuthenticated i _ _ =>
    ∀ first, s.sideA[s.control.length]? = some first → first = i
  | .relayB j .handed => ∀ socket, s.daemonSockets[j]? = some socket → socket.message = s.sideB.length
  | _ => True

instance (s : Tunnel) : DecidablePred (InTurn s)
  | .relayA i .handed =>
    inferInstanceAs (Decidable (∀ message ∈ s.control[s.sideA.length]?, message.1 = i))
  | .authenticated i _ _ =>
    inferInstanceAs (Decidable (∀ first ∈ s.sideA[s.control.length]?, first = i))
  | .notAuthenticated i _ _ =>
    inferInstanceAs (Decidable (∀ first ∈ s.sideA[s.control.length]?, first = i))
  | .relayB j .handed =>
    inferInstanceAs (Decidable (∀ socket ∈ s.daemonSockets[j]?, socket.message = s.sideB.length))
  | .relayA _ .verified | .relayA _ .refused | .relayB _ .verified | .relayB _ .refused => isTrue trivial
  | .accept | .authenticationFailed _ | .take | .connected | .connectionFailed | .daemonAuthenticated
  | .daemonNotAuthenticated | .localConnected => isTrue trivial

/-! ### What every step in turn keeps -/

/-- A daemon socket's message has been sent, and it has that message's keys. -/
def Sent (control : List (ℕ × ConnectRequest)) (message : ℕ) (request : ConnectRequest) : Prop :=
  ∃ i, control[message]? = some (i, request)

structure Inv (s : Tunnel) : Prop where
  sideA : ∀ (n : ℕ) i message, s.sideA[n]? = some i → s.control[n]? = some message → message.1 = i
  sideB : ∀ n j : ℕ, s.sideB[n]? = some j → ∃ socket, s.daemonSockets[j]? = some socket ∧ socket.message = n
  control : ∀ message ∈ s.control, ∃ connection keys, s.connections[message.1]? = some connection ∧
    connection.call = .joined keys ∧ daemonKeys message.2 = some keys
  daemonSockets : ∀ socket ∈ s.daemonSockets, Sent s.control socket.message socket.request
  handling : ∀ message attempt request, s.handling = .connecting message attempt request ∨
    (∃ socket, s.handling = .authenticating message attempt request socket) →
      Sent s.control message request

/-- The daemon makes of a message the keys the client has sent it with. -/
theorem daemonKeys_request (twinKeys : Bool) (c2d d2c : SessionKey) :
    daemonKeys (request twinKeys c2d d2c) = some (clientKeys twinKeys c2d d2c) := by
  cases twinKeys <;> rfl

theorem Sent.later {control : List (ℕ × ConnectRequest)} {message : ℕ} {request : ConnectRequest}
    (h : Sent control message request) (more : List (ℕ × ConnectRequest)) :
    Sent (control ++ more) message request := by
  obtain ⟨i, hi⟩ := h
  refine ⟨i, ?_⟩
  rw [List.getElem?_append_left (List.getElem?_eq_some_iff.mp hi).1]
  exact hi

variable {s t : Tunnel}

/-- A connection goes on, its keys kept. -/
theorem Inv.setConnection (h : Inv s) {i : ℕ} {connection connection' : LocalConnection}
    (hi : s.connections[i]? = some connection)
    (hcall : ∀ keys, connection.call = .joined keys → connection'.call = .joined keys) :
    ∀ message ∈ s.control, ∃ c keys, (s.connections.set i connection')[message.1]? = some c ∧
      c.call = .joined keys ∧ daemonKeys message.2 = some keys := by
  intro message hmessage
  obtain ⟨c, keys, hc, hkeys, hdaemon⟩ := h.control message hmessage
  by_cases hm : message.1 = i
  · rw [hm, hi] at hc
    obtain rfl := Option.some.inj hc
    refine ⟨connection', keys, ?_, hcall keys hkeys, hdaemon⟩
    rw [hm, List.getElem?_set_self (List.getElem?_eq_some_iff.mp hi).1]
  · refine ⟨c, keys, ?_, hkeys, hdaemon⟩
    rw [List.getElem?_set_ne fun heq => hm heq.symm]
    exact hc

theorem Inv.relayA (h : Inv s) {i : ℕ} {e : RelayEvent} (hturn : InTurn s (.relayA i e))
    (hstep : s.step (.relayA i e) = some t) : Inv t := by
  obtain ⟨connection, hi, hstep⟩ := Option.bind_eq_some_iff.mp hstep
  obtain ⟨relay, -, hstep⟩ := Option.bind_eq_some_iff.mp hstep
  obtain rfl := Option.some.inj hstep
  refine ⟨?_, h.sideB, h.setConnection hi fun _ hk => hk, h.daemonSockets, h.handling⟩
  intro n k message hk hmessage
  by_cases he : e = .handed
  · subst he
    rcases getElem?_concat_cases hk with hk | ⟨rfl, rfl⟩
    · exact h.sideA n k message hk hmessage
    · exact hturn message hmessage
  · simp only [if_neg he] at hk
    exact h.sideA n k message hk hmessage

theorem Inv.relayB (h : Inv s) {j : ℕ} {e : RelayEvent} (hturn : InTurn s (.relayB j e))
    (hstep : s.step (.relayB j e) = some t) : Inv t := by
  obtain ⟨socket, hj, hstep⟩ := Option.bind_eq_some_iff.mp hstep
  obtain ⟨relay, -, hstep⟩ := Option.bind_eq_some_iff.mp hstep
  obtain rfl := Option.some.inj hstep
  have hset (k : ℕ) (d : DaemonSocket) (hd : s.daemonSockets[k]? = some d) :
      ∃ d', (s.daemonSockets.set j { socket with relay := relay })[k]? = some d' ∧
        d'.message = d.message := by
    by_cases hk : k = j
    · subst hk
      rw [hj] at hd
      obtain rfl := Option.some.inj hd
      exact ⟨_, List.getElem?_set_self (List.getElem?_eq_some_iff.mp hj).1, rfl⟩
    · exact ⟨d, by rw [List.getElem?_set_ne fun heq => hk heq.symm]; exact hd, rfl⟩
  refine ⟨h.sideA, ?_, h.control, ?_, h.handling⟩
  · intro n k hk
    have hin : s.sideB[n]? = some k ∨ e = .handed ∧ n = s.sideB.length ∧ k = j := by
      by_cases he : e = .handed
      · simp only [if_pos he] at hk
        exact (getElem?_concat_cases hk).imp id fun hlast => ⟨he, hlast⟩
      · simp only [if_neg he] at hk
        exact Or.inl hk
    rcases hin with hk | ⟨rfl, rfl, rfl⟩
    · obtain ⟨d, hd, hn⟩ := h.sideB n k hk
      obtain ⟨d', hd', hmessage⟩ := hset k d hd
      exact ⟨d', hd', hmessage.trans hn⟩
    · obtain ⟨d', hd', hmessage⟩ := hset k socket hj
      exact ⟨d', hd', hmessage.trans (hturn socket hj)⟩
  · intro d hd
    rcases List.mem_or_eq_of_mem_set hd with hd | rfl
    · exact h.daemonSockets d hd
    · exact h.daemonSockets socket (List.mem_of_getElem? hj)

theorem Inv.join (h : Inv s) {i : ℕ} {connection : LocalConnection} {c2d d2c : SessionKey}
    (hi : s.connections[i]? = some connection) (hcall : connection.call = .authenticating)
    (hturn : ∀ first, s.sideA[s.control.length]? = some first → first = i) :
    Inv (s.join i connection c2d d2c) := by
  have hlt := (List.getElem?_eq_some_iff.mp hi).1
  refine ⟨?_, h.sideB, ?_, fun socket hs => (h.daemonSockets socket hs).later _,
    fun message attempt request hh => (h.handling message attempt request hh).later _⟩
  · intro n k message hk hmessage
    rcases getElem?_concat_cases hmessage with hmessage | ⟨rfl, rfl⟩
    · exact h.sideA n k message hk hmessage
    · exact (hturn k hk).symm
  · intro message hmessage
    rcases List.mem_append.mp hmessage with hmessage | hmessage
    · refine h.setConnection hi (fun keys hk => ?_) message hmessage
      rw [hcall] at hk
      cases hk
    · rw [List.mem_singleton.mp hmessage]
      exact ⟨_, _, List.getElem?_set_self hlt, rfl, daemonKeys_request _ _ _⟩

theorem Inv.onDaemon (h : Inv s) {e : Event} (hstep : s.onDaemon s.handling e = some t) : Inv t := by
  have hnone {u : Tunnel} (hu : u.handling = .idle ∨ u.handling = .connectingLocally) :
      ∀ message attempt request, u.handling = .connecting message attempt request ∨
        (∃ socket, u.handling = .authenticating message attempt request socket) →
          Sent u.control message request := by
    rintro message attempt request (hc | ⟨socket, hc⟩) <;> rcases hu with hu | hu <;>
      rw [hu] at hc <;> cases hc
  cases hh : s.handling with
  | idle =>
    rw [hh] at hstep
    cases e with
    | take =>
      obtain ⟨⟨i, request⟩, hmessage, rfl⟩ := Option.map_eq_some_iff.mp hstep
      refine ⟨h.sideA, h.sideB, h.control, h.daemonSockets, ?_⟩
      rintro message attempt request' (hc | ⟨socket, hc⟩)
      · injection hc with hm _ hr
        rw [← hm, ← hr]
        exact ⟨i, hmessage⟩
      · cases hc
    | _ => cases hstep
  | connecting message attempt request =>
    have hsent := h.handling message attempt request (Or.inl hh)
    rw [hh] at hstep
    cases e with
    | connected =>
      obtain rfl := Option.some.inj hstep
      refine ⟨h.sideA, ?_, h.control, ?_, ?_⟩
      · intro n j hj
        obtain ⟨socket, hsocket, hn⟩ := h.sideB n j hj
        refine ⟨socket, ?_, hn⟩
        rw [List.getElem?_append_left (List.getElem?_eq_some_iff.mp hsocket).1]
        exact hsocket
      · intro socket hsocket
        rcases List.mem_append.mp hsocket with hsocket | hsocket
        · exact h.daemonSockets socket hsocket
        · rw [List.mem_singleton.mp hsocket]
          exact hsent
      · rintro message' attempt' request' (hc | ⟨socket, hc⟩)
        · cases hc
        · injection hc with hm _ hr
          rw [← hm, ← hr]
          exact hsent
    | connectionFailed =>
      obtain rfl := Option.some.inj hstep
      exact ⟨h.sideA, h.sideB, h.control, h.daemonSockets, hnone (Or.inl rfl)⟩
    | _ => cases hstep
  | authenticating message attempt request socket =>
    have hsent := h.handling message attempt request (Or.inr ⟨socket, hh⟩)
    rw [hh] at hstep
    cases e with
    | daemonAuthenticated =>
      obtain ⟨d, -, hstep⟩ := Option.bind_eq_some_iff.mp hstep
      split at hstep
      · obtain rfl := Option.some.inj hstep
        exact ⟨h.sideA, h.sideB, h.control, h.daemonSockets, hnone (Or.inr rfl)⟩
      · cases hstep
    | daemonNotAuthenticated =>
      rw [Tunnel.onDaemon] at hstep
      split at hstep
      · obtain rfl := Option.some.inj hstep
        refine ⟨h.sideA, h.sideB, h.control, h.daemonSockets, ?_⟩
        -- the next attempt is for the same message
        rintro message' attempt' request' (hc | ⟨socket', hc⟩)
        · injection hc with hm _ hr
          rw [← hm, ← hr]
          exact hsent
        · cases hc
      · obtain rfl := Option.some.inj hstep
        exact ⟨h.sideA, h.sideB, h.control, h.daemonSockets, hnone (Or.inl rfl)⟩
    | _ => cases hstep
  | connectingLocally =>
    rw [hh] at hstep
    cases e with
    | localConnected =>
      obtain rfl := Option.some.inj hstep
      exact ⟨h.sideA, h.sideB, h.control, h.daemonSockets, hnone (Or.inl rfl)⟩
    | _ => cases hstep

theorem Inv.step (h : Inv s) {e : Event} (hturn : InTurn s e) (hstep : s.step e = some t) : Inv t := by
  cases e with
  | accept =>
    obtain rfl := Option.some.inj hstep
    refine ⟨h.sideA, h.sideB, ?_, h.daemonSockets, h.handling⟩
    intro message hmessage
    obtain ⟨c, keys, hc, hkeys⟩ := h.control message hmessage
    refine ⟨c, keys, ?_, hkeys⟩
    rw [List.getElem?_append_left (List.getElem?_eq_some_iff.mp hc).1]
    exact hc
  | relayA i e => exact h.relayA hturn hstep
  | relayB j e => exact h.relayB hturn hstep
  | authenticated i c2d d2c =>
    obtain ⟨connection, hi, hstep⟩ := Option.bind_eq_some_iff.mp hstep
    obtain ⟨⟨⟩, hguard, hstep⟩ := Option.bind_eq_some_iff.mp hstep
    obtain rfl := Option.some.inj hstep
    exact h.join hi ((Option.guard_eq_some' _).mp hguard).1 hturn
  | notAuthenticated i c2d d2c =>
    obtain ⟨connection, hi, hstep⟩ := Option.bind_eq_some_iff.mp hstep
    obtain ⟨⟨⟩, hguard, hstep⟩ := Option.bind_eq_some_iff.mp hstep
    obtain rfl := Option.some.inj hstep
    exact h.join hi ((Option.guard_eq_some' _).mp hguard) hturn
  | authenticationFailed i =>
    obtain ⟨connection, hi, hstep⟩ := Option.bind_eq_some_iff.mp hstep
    obtain ⟨⟨⟩, hguard, hstep⟩ := Option.bind_eq_some_iff.mp hstep
    obtain rfl := Option.some.inj hstep
    refine ⟨h.sideA, h.sideB, h.setConnection hi (fun keys hk => ?_), h.daemonSockets, h.handling⟩
    rw [(Option.guard_eq_some' _).mp hguard] at hk
    cases hk
  | _ => exact h.onDaemon hstep

theorem inv_opened (twinKeys : Bool) : Inv (opened twinKeys) := by
  refine ⟨fun n i message hi => ?_, fun n j hj => ?_, fun _ hm => absurd hm List.not_mem_nil,
    fun _ hd => absurd hd List.not_mem_nil, ?_⟩
  · cases hi
  · cases hj
  · rintro message attempt request (hc | ⟨socket, hc⟩) <;> cases hc

/-- In a tunnel whose steps are all in turn, the relay joins sockets with the same keys. -/
theorem sameKeys_of_inTurn {twinKeys : Bool} {es : List Event} {t : Tunnel}
    (hturn : machine.Meets InTurn (opened twinKeys) es) (hr : machine.run (opened twinKeys) es = some t) :
    ∀ pair ∈ t.joined, SameKeys t pair := by
  have h : Inv t := machine.invariant_of_meets (fun _ _ _ hs hg hst => hs.step hg hst)
    (inv_opened twinKeys) hturn hr
  rintro ⟨i, j⟩ hpair
  obtain ⟨n, hn⟩ := List.mem_iff_getElem?.mp hpair
  obtain ⟨hi, hj⟩ := List.getElem?_zip_eq_some.mp hn
  obtain ⟨socket, hsocket, hmessage⟩ := h.sideB n j hj
  obtain ⟨k, hsent⟩ := h.daemonSockets socket (List.mem_of_getElem? hsocket)
  rw [hmessage] at hsent
  have hk : k = i := h.sideA n i _ hi hsent
  obtain ⟨connection, keys, hconnection, hkeys, hdaemon⟩ := h.control _ (List.mem_of_getElem? hsent)
  exact ⟨connection, socket, keys, hk ▸ hconnection, hsocket, hkeys, hdaemon⟩

/-! ### Two connections at once -/

def sampleKey (b : UInt8) : SessionKey :=
  ⟨List.replicate 32 b, List.replicate 16 b, List.length_replicate, List.length_replicate⟩

/-- The relay hands the first socket over first, and the second is the first to read "ok". -/
def overtaking : List Event :=
  [.accept, .accept, .relayA 0 .verified, .relayA 1 .verified, .relayA 0 .handed, .relayA 1 .handed,
    .authenticated 1 (sampleKey 3) (sampleKey 4), .authenticated 0 (sampleKey 1) (sampleKey 2),
    .take, .connected, .relayB 0 .verified, .relayB 0 .handed]

/-- Both are let in before the first is handed over, and the daemon has to try again for the first. -/
def inTurn : List Event :=
  [.accept, .accept, .relayA 1 .verified, .relayA 0 .verified, .authenticated 0 (sampleKey 1) (sampleKey 2),
    .take, .connected, .relayB 0 .refused, .daemonNotAuthenticated, .relayA 0 .handed,
    .authenticated 1 (sampleKey 3) (sampleKey 4), .connected, .relayA 1 .handed, .relayB 1 .verified,
    .daemonAuthenticated, .localConnected, .take, .connected, .relayB 1 .handed, .relayB 2 .verified,
    .relayB 2 .handed]

theorem keys_crossed : ∃ t, machine.run (opened true) overtaking = some t ∧ t.joined = [(0, 0)] ∧
    ¬SameKeys t (0, 0) := by
  refine ⟨_, rfl, rfl, ?_⟩
  rintro ⟨connection, socket, keys, hconnection, hsocket, hkeys, hdaemon⟩
  obtain rfl := Option.some.inj hconnection
  obtain rfl := Option.some.inj hsocket
  injection hkeys with hkeys
  subst hkeys
  exact absurd hdaemon (by decide)

theorem sameKeys_of_inTurn_sample : ∃ t, machine.run (opened true) inTurn = some t ∧
    t.joined = [(0, 1), (1, 2)] ∧ SameKeys t (0, 1) ∧ SameKeys t (1, 2) := by
  have hturn : machine.Meets InTurn (opened true) inTurn := by decide +kernel
  obtain ⟨t, hrun, hjoined⟩ : ∃ t, machine.run (opened true) inTurn = some t ∧ t.joined = [(0, 1), (1, 2)] :=
    ⟨_, rfl, rfl⟩
  have hsame := sameKeys_of_inTurn hturn hrun
  rw [hjoined] at hsame
  exact ⟨t, hrun, hjoined, hsame _ List.mem_cons_self, hsame _ (List.mem_cons_of_mem _ List.mem_cons_self)⟩

end Tunnel
end NoPorts.MultiTunnel
