import NoPorts.ConnectMessage
import NoPorts.Lib.Machine

/-! `_runClientSideMulti`: the control socket, its listeners and its heartbeat timer, and the connector that is
bound only after those are in place. -/
namespace NoPorts.ClientSrv
open Lib Connect

/-- What the client's srv was made with; `relayAuthenticator` and `controlChannelHeartbeat` are whether there is
one. -/
structure SrvImplDart (σ : Type) where
  host : DartHost σ
  relayAuthenticator : Bool
  aesC2D : Option String
  ivC2D : Option String
  aesD2C : Option String
  ivD2C : Option String
  controlChannelHeartbeat : Bool

namespace SrvImplDart
variable {σ : Type} (srv : SrvImplDart σ)

def encrypted : Bool := srv.aesC2D.isSome && srv.ivC2D.isSome

/-- `createEncrypter` and `createDecrypter` give the ciphers of the control channel, or none are needed. -/
def controlCiphers : Bool :=
  match srv.aesC2D, srv.ivC2D with
  | some aesC2D, some ivC2D =>
    (srv.host.setAesCtrTransformer aesC2D ivC2D).isSome &&
      match srv.aesD2C with
      | none => true
      | some aesD2C => srv.ivD2C.any fun ivD2C => (srv.host.setAesCtrTransformer aesD2C ivD2C).isSome
  | _, _ => true

end SrvImplDart

/-- What `run` awaits, or how it ended. -/
inductive Stage where
  | connecting
  | authenticating
  | resolving
  | binding
  | returned
  | threw
  deriving DecidableEq, Repr

inductive ControlSocket where
  | none
  | opened
  | destroyed
  deriving DecidableEq, Repr

/-- The `SocketConnector`, once bound. -/
structure Connector where
  closed : Bool
  done : Bool
  deriving DecidableEq, Repr

structure State where
  stage : Stage
  sessionControlSocket : ControlSocket
  /-- The listeners are in place. -/
  listening : Bool
  /-- The listeners have heard the control channel end or fail. -/
  channelEnded : Bool
  socketConnector : Option Connector
  /-- There is a heartbeat timer. -/
  heartbeat : Bool
  /-- Calls of `beforeJoining` that have yet to write. -/
  joining : ℕ
  /-- The control channel was written to when it should no longer have been. -/
  lateWrite : Bool
  deriving DecidableEq, Repr

inductive Event where
  /-- `Socket.connect` ends, with a socket or not. -/
  | connected (ok : Bool)
  | authenticated (ok : Bool)
  /-- `resolveRequestedLocalHost` ends. -/
  | resolved (ok : Bool)
  /-- `serverToSocket` ends, with the local port bound or not. -/
  | bound (ok : Bool)
  /-- `onError` or `onDone` of the control channel. -/
  | channelEnds
  | connectorDone
  | heartbeat
  | beforeJoining
  /-- A call of `beforeJoining` gets to its connect message, or throws before it. -/
  | joins (ok : Bool)
  deriving DecidableEq, Repr

def initial : State := ⟨.connecting, .none, false, false, none, false, 0, false⟩

namespace State
variable (s : State)

/-- `run` has thrown, or what it returned is done. -/
def isOver : Bool := s.stage == .threw || s.socketConnector.any Connector.done

/-- A write to the control channel. -/
def write : State := { s with lateWrite := s.lateWrite || s.isOver }

def threw : State := { s with stage := .threw }

/-- `socketConnector?.close()`. -/
def closeConnector : State :=
  { s with socketConnector := s.socketConnector.map fun c => { c with closed := true } }

/-- The client's part up to the first await after the control channel is ready: its ciphers, the listeners and
the heartbeat timer. -/
def start {σ : Type} (srv : SrvImplDart σ) : State :=
  if srv.controlCiphers then
    { s with stage := .resolving, listening := true, heartbeat := srv.encrypted && srv.controlChannelHeartbeat }
  else s.threw

end State

def step {σ : Type} (srv : SrvImplDart σ) (s : State) : Event → Option State
  | .connected ok =>
    if s.stage ≠ .connecting then none
    else if !ok then some s.threw
    else
      let opened := { s with sessionControlSocket := .opened }
      if srv.relayAuthenticator then some { opened with stage := .authenticating }
      else some (opened.start srv)
  | .authenticated ok =>
    if s.stage ≠ .authenticating then none
    else if ok then some (s.start srv)
    else some { s.threw with sessionControlSocket := .destroyed }
  | .resolved ok =>
    if s.stage ≠ .resolving then none
    else if ok then some { s with stage := .binding } else some s.threw
  | .bound ok =>
    if s.stage ≠ .binding then none
    else if ok then some { s with stage := .returned, socketConnector := some ⟨false, false⟩ }
    else some s.threw
  | .channelEnds =>
    if s.listening then some { s.closeConnector with channelEnded := true } else none
  | .connectorDone =>
    -- `whenComplete` destroys the control socket
    if s.socketConnector.any fun c => !c.done then
      some { s with socketConnector := some ⟨true, true⟩, sessionControlSocket := .destroyed }
    else none
  | .heartbeat => if s.heartbeat then some s.write else none
  | .beforeJoining =>
    if s.socketConnector.isNone then none
    -- the encrypted channel is written to only after the relay has been authenticated to
    else if srv.encrypted then some { s with joining := s.joining + 1 }
    else some s.write
  | .joins ok =>
    if s.joining = 0 then none
    else
      let joined := { s with joining := s.joining - 1 }
      if ok then some joined.write else some joined

def machine {σ : Type} (srv : SrvImplDart σ) : Machine State Event := ⟨step srv⟩

/-- Nothing of the control channel is left once `run` has thrown or its connector is done; and no connector is
left open once the control channel has ended. -/
structure CleanedUp (s : State) : Prop where
  socket : s.isOver = true → s.sessionControlSocket ≠ .opened
  timer : s.isOver = true → s.heartbeat = false
  written : s.lateWrite = false
  connector : ∀ c, s.channelEnded = true → s.socketConnector = some c → c.closed = true

/-- The ciphers of the control channel can be made; the local host resolves and the port is bound, with the
control channel not ended before that; no connector ends while there is a heartbeat timer; and no connect
message comes to be written only after the connector is done. -/
def Clean {σ : Type} (srv : SrvImplDart σ) (s : State) : Event → Prop
  | .connected ok => ok = true → srv.relayAuthenticator = false → srv.controlCiphers = true
  | .authenticated ok => ok = true → srv.controlCiphers = true
  | .resolved ok => ok = true
  | .bound ok => ok = true ∧ s.channelEnded = false
  | .connectorDone => s.heartbeat = false
  | .beforeJoining => srv.encrypted = false → s.isOver = false
  | .joins ok => ok = true → s.isOver = false
  | .channelEnds | .heartbeat => True

/-- Where a client that has cleaned up so far is. -/
structure Inv (s : State) : Prop where
  clean : CleanedUp s
  /-- The control socket stays open from its connecting to the return. -/
  opened : s.stage = .authenticating ∨ s.stage = .resolving ∨ s.stage = .binding → s.sessionControlSocket = .opened
  started : s.listening = false → s.heartbeat = false ∧ s.channelEnded = false
  early : s.stage = .connecting ∨ s.stage = .authenticating → s.listening = false
  connecting : s.stage = .connecting → s.sessionControlSocket = .none
  unbound : s.stage ≠ .returned → s.socketConnector = none

theorem initial_inv : Inv initial := by
  refine ⟨⟨?_, ?_, rfl, ?_⟩, ?_, fun _ => ⟨rfl, rfl⟩, fun _ => rfl, fun _ => rfl, fun _ => rfl⟩
  · exact fun h => Bool.noConfusion h
  · exact fun h => Bool.noConfusion h
  · exact fun c h => Bool.noConfusion h
  · rintro (h | h | h) <;> cases h

section Step
variable {σ : Type} {srv : SrvImplDart σ} {s t : State}

theorem over_eq_false (hthrew : s.stage ≠ .threw) (hnone : s.socketConnector = none) : s.isOver = false := by
  simp [State.isOver, hthrew, hnone]

/-- A write while the control channel may be written to changes nothing. -/
theorem write_of_not_over (h : s.isOver = false) : s.write = s := by
  simp [State.write, h]

theorem not_over_of_write (h : CleanedUp s.write) : s.isOver = false := by
  have hwritten : (s.lateWrite || s.isOver) = false := h.written
  exact (Bool.or_eq_false_iff.mp hwritten).2

/-- To throw leaves an open control socket behind. -/
theorem not_cleanedUp_threw (h : s.sessionControlSocket = .opened) : ¬CleanedUp s.threw := by
  intro hclean
  exact hclean.socket rfl h

namespace Inv

theorem with_joining (h : Inv s) (n : ℕ) : Inv { s with joining := n } where
  clean := ⟨h.clean.socket, h.clean.timer, h.clean.written, h.clean.connector⟩
  opened := h.opened
  started := h.started
  early := h.early
  connecting := h.connecting
  unbound := h.unbound

/-- A write leaves nothing behind exactly when the control channel may still be written to. -/
theorem write_spec (h : Inv s) : (s.isOver = false → Inv s.write) ∧ (CleanedUp s.write → s.isOver = false) := by
  refine ⟨fun hover => ?_, not_over_of_write⟩
  rw [write_of_not_over hover]
  exact h

theorem unbound_early (h : Inv s) (hearly : s.stage = .connecting ∨ s.stage = .authenticating) :
    s.socketConnector = none := by
  apply h.unbound
  intro hreturned
  rw [hreturned] at hearly
  rcases hearly with hearly | hearly <;> cases hearly

/-- To throw before the listeners are in place, with no control socket or with a destroyed one. -/
theorem threw (h : Inv s) (hearly : s.stage = .connecting ∨ s.stage = .authenticating) {fate : ControlSocket}
    (hfate : fate ≠ .opened) : Inv { s.threw with sessionControlSocket := fate } := by
  have hstarted := h.started (h.early hearly)
  have hnone := h.unbound_early hearly
  refine ⟨⟨fun _ => hfate, fun _ => hstarted.1, h.clean.written, h.clean.connector⟩, ?_, h.started, ?_, ?_, ?_⟩
  · rintro (hstage | hstage | hstage) <;> cases hstage
  · rintro (hstage | hstage) <;> cases hstage
  · exact fun hstage => by cases hstage
  · exact fun _ => hnone

/-- The client gets to its first await with the listeners in place, or throws with the control socket open. -/
theorem start_spec (srv : SrvImplDart σ) (h : Inv s) (hearly : s.stage = .connecting ∨ s.stage = .authenticating) :
    (srv.controlCiphers = true → Inv ({ s with sessionControlSocket := .opened }.start srv)) ∧
      (CleanedUp ({ s with sessionControlSocket := .opened }.start srv) → srv.controlCiphers = true) := by
  have hstarted := h.started (h.early hearly)
  have hnone := h.unbound_early hearly
  cases hciphers : srv.controlCiphers with
  | false =>
    refine ⟨fun hno => Bool.noConfusion hno, fun hclean => ?_⟩
    rw [State.start, hciphers, if_neg Bool.false_ne_true] at hclean
    exact absurd hclean (not_cleanedUp_threw rfl)
  | true =>
    refine ⟨fun _ => ?_, fun _ => rfl⟩
    rw [State.start, hciphers, if_pos rfl]
    have hover : State.isOver { s with
        stage := .resolving, sessionControlSocket := .opened, listening := true
        heartbeat := srv.encrypted && srv.controlChannelHeartbeat } = false := by
      apply over_eq_false
      · intro hstage
        cases hstage
      · exact hnone
    refine ⟨⟨fun hthrew => ?_, fun hthrew => ?_, h.clean.written, h.clean.connector⟩, fun _ => rfl, ?_, ?_, ?_,
      fun _ => hnone⟩
    · exact absurd (hover.symm.trans hthrew) Bool.false_ne_true
    · exact absurd (hover.symm.trans hthrew) Bool.false_ne_true
    · exact fun hlistening => Bool.noConfusion hlistening
    · rintro (hstage | hstage) <;> cases hstage
    · exact fun hstage => by cases hstage

end Inv
/-! ### The steps of `run` -/

theorem connected_spec {ok : Bool} (h : Inv s) (hstep : step srv s (.connected ok) = some t) :
    (Clean srv s (.connected ok) → Inv t) ∧ (CleanedUp t → Clean srv s (.connected ok)) := by
  simp only [step, ne_eq, ite_not] at hstep
  split at hstep
  on_goal 2 => cases hstep
  rename_i hstage
  cases ok with
  | false =>
    cases hstep
    refine ⟨fun _ => ?_, fun _ hok => Bool.noConfusion hok⟩
    apply h.threw (Or.inl hstage)
    rw [h.connecting hstage]
    decide
  | true =>
    rw [if_neg (by decide)] at hstep
    cases hauth : srv.relayAuthenticator with
    | true =>
      rw [hauth, if_pos rfl] at hstep
      cases hstep
      have hstarted := h.started (h.early (Or.inl hstage))
      have hnone := h.unbound_early (Or.inl hstage)
      refine ⟨fun _ => ?_, fun _ _ hno => ?_⟩
      · have hover : State.isOver { s with stage := .authenticating, sessionControlSocket := .opened } = false := by
          apply over_eq_false
          · intro hthrew
            cases hthrew
          · exact hnone
        refine ⟨⟨fun hthrew => ?_, fun _ => hstarted.1, h.clean.written, h.clean.connector⟩, fun _ => rfl, h.started,
          fun _ => h.early (Or.inl hstage), fun hno => ?_, fun _ => hnone⟩
        · exact absurd (hover.symm.trans hthrew) Bool.false_ne_true
        · cases hno
      · exact Bool.noConfusion (hauth.symm.trans hno)
    | false =>
      rw [hauth, if_neg Bool.false_ne_true] at hstep
      cases hstep
      obtain ⟨hinv, hclean⟩ := h.start_spec srv (Or.inl hstage)
      exact ⟨fun hciphers => hinv (hciphers rfl hauth), fun ht _ _ => hclean ht⟩

theorem authenticated_spec {ok : Bool} (h : Inv s) (hstep : step srv s (.authenticated ok) = some t) :
    (Clean srv s (.authenticated ok) → Inv t) ∧ (CleanedUp t → Clean srv s (.authenticated ok)) := by
  simp only [step, ne_eq, ite_not] at hstep
  split at hstep
  on_goal 2 => cases hstep
  rename_i hstage
  cases ok with
  | false =>
    cases hstep
    refine ⟨fun _ => h.threw (Or.inr hstage) (by decide), fun _ hok => Bool.noConfusion hok⟩
  | true =>
    cases hstep
    have hsocket : { s with sessionControlSocket := ControlSocket.opened } = s := by
      rw [← h.opened (Or.inl hstage)]
    obtain ⟨hinv, hclean⟩ := h.start_spec srv (Or.inr hstage)
    rw [hsocket] at hinv hclean
    exact ⟨fun hciphers => hinv (hciphers rfl), fun ht _ => hclean ht⟩

theorem resolved_spec {ok : Bool} (h : Inv s) (hstep : step srv s (.resolved ok) = some t) :
    (Clean srv s (.resolved ok) → Inv t) ∧ (CleanedUp t → Clean srv s (.resolved ok)) := by
  simp only [step, ne_eq, ite_not] at hstep
  split at hstep
  on_goal 2 => cases hstep
  rename_i hstage
  have hopened := h.opened (Or.inr (Or.inl hstage))
  cases ok with
  | false =>
    cases hstep
    exact ⟨fun hok => Bool.noConfusion hok, fun ht => absurd ht (not_cleanedUp_threw hopened)⟩
  | true =>
    cases hstep
    refine ⟨fun _ => ?_, fun _ => rfl⟩
    have hnone : s.socketConnector = none := by
      apply h.unbound
      rw [hstage]
      decide
    have hover : State.isOver { s with stage := .binding } = false := by
      apply over_eq_false
      · intro hthrew
        cases hthrew
      · exact hnone
    refine ⟨⟨fun hthrew => ?_, fun hthrew => ?_, h.clean.written, h.clean.connector⟩, fun _ => hopened, h.started,
      ?_, fun hno => ?_, fun _ => hnone⟩
    · exact absurd (hover.symm.trans hthrew) Bool.false_ne_true
    · exact absurd (hover.symm.trans hthrew) Bool.false_ne_true
    · rintro (hno | hno) <;> cases hno
    · cases hno

theorem bound_spec {ok : Bool} (h : Inv s) (hstep : step srv s (.bound ok) = some t) :
    (Clean srv s (.bound ok) → Inv t) ∧ (CleanedUp t → Clean srv s (.bound ok)) := by
  simp only [step, ne_eq, ite_not] at hstep
  split at hstep
  on_goal 2 => cases hstep
  rename_i hstage
  have hopened := h.opened (Or.inr (Or.inr hstage))
  cases ok with
  | false =>
    cases hstep
    exact ⟨fun hok => Bool.noConfusion hok.1, fun ht => absurd ht (not_cleanedUp_threw hopened)⟩
  | true =>
    cases hstep
    constructor
    · intro hclean
      have hended : s.channelEnded = false := hclean.2
      refine ⟨⟨fun hover => ?_, fun hover => ?_, h.clean.written, fun c hyes => ?_⟩, ?_, h.started, ?_, fun hno => ?_,
        fun hno => absurd rfl hno⟩
      · cases hover
      · cases hover
      · exact Bool.noConfusion (hended.symm.trans hyes)
      · rintro (hno | hno | hno) <;> cases hno
      · rintro (hno | hno) <;> cases hno
      · cases hno
    · intro ht
      refine ⟨rfl, ?_⟩
      -- the listeners had no connector to close when the channel ended
      cases hended : s.channelEnded with
      | false => rfl
      | true => exact Bool.noConfusion (ht.connector ⟨false, false⟩ hended rfl)

/-! ### The steps of the listeners, the connector and the writers -/

theorem over_closeConnector : s.closeConnector.isOver = s.isOver := by
  unfold State.isOver State.closeConnector
  cases s.socketConnector with
  | none => rfl
  | some c => rfl

theorem channelEnds_spec (h : Inv s) (hstep : step srv s .channelEnds = some t) : Inv t := by
  simp only [step] at hstep
  split at hstep
  on_goal 2 => cases hstep
  rename_i hlistening
  cases hstep
  have hover := over_closeConnector (s := s)
  refine ⟨⟨fun hyes => h.clean.socket (hover.symm.trans hyes), fun hyes => h.clean.timer (hover.symm.trans hyes),
    h.clean.written, fun c _ hc => ?_⟩, h.opened, fun hno => ?_, h.early, h.connecting, fun hstage => ?_⟩
  · obtain ⟨d, -, rfl⟩ := Option.map_eq_some_iff.mp hc
    rfl
  · exact Bool.noConfusion (hlistening.symm.trans hno)
  · exact Option.map_eq_none_iff.mpr (h.unbound hstage)

theorem connectorDone_spec (h : Inv s) (hstep : step srv s .connectorDone = some t) :
    (s.heartbeat = false → Inv t) ∧ (CleanedUp t → s.heartbeat = false) := by
  simp only [step] at hstep
  split at hstep
  on_goal 2 => cases hstep
  rename_i hconnector
  cases hstep
  have hreturned : s.stage = .returned := by
    by_contra hstage
    rw [h.unbound hstage] at hconnector
    cases hconnector
  constructor
  · intro hheartbeat
    refine ⟨⟨fun _ hno => ?_, fun _ => hheartbeat, h.clean.written, fun c _ hc => ?_⟩, fun hstage => ?_, h.started,
      h.early, fun hstage => ?_, fun hstage => absurd hreturned hstage⟩
    · cases hno
    · rw [← Option.some.inj hc]
    · rw [hreturned] at hstage
      rcases hstage with hstage | hstage | hstage <;> cases hstage
    · exact absurd (hreturned.symm.trans hstage) (by decide)
  · intro ht
    apply ht.timer
    simp [State.isOver]

theorem heartbeat_spec (h : Inv s) (hstep : step srv s .heartbeat = some t) : Inv t := by
  simp only [step] at hstep
  split at hstep
  on_goal 2 => cases hstep
  rename_i hheartbeat
  cases hstep
  apply h.write_spec.1
  -- there is no timer once all is over
  by_contra hover
  have htimer := h.clean.timer (eq_true_of_ne_false hover)
  exact Bool.noConfusion (hheartbeat.symm.trans htimer)

theorem beforeJoining_spec (h : Inv s) (hstep : step srv s .beforeJoining = some t) :
    (Clean srv s .beforeJoining → Inv t) ∧ (CleanedUp t → Clean srv s .beforeJoining) := by
  simp only [step] at hstep
  split at hstep
  · cases hstep
  · split at hstep
    · rename_i hencrypted
      cases hstep
      exact ⟨fun _ => h.with_joining _, fun _ hno => Bool.noConfusion (hencrypted.symm.trans hno)⟩
    · rename_i hplain
      cases hstep
      have hwrite := h.write_spec
      exact ⟨fun hover => hwrite.1 (hover (eq_false_of_ne_true hplain)), fun ht _ => hwrite.2 ht⟩

theorem joins_spec {ok : Bool} (h : Inv s) (hstep : step srv s (.joins ok) = some t) :
    (Clean srv s (.joins ok) → Inv t) ∧ (CleanedUp t → Clean srv s (.joins ok)) := by
  simp only [step] at hstep
  split at hstep
  · cases hstep
  · have hjoined := h.with_joining (s.joining - 1)
    cases ok with
    | false =>
      cases hstep
      exact ⟨fun _ => hjoined, fun _ hno => Bool.noConfusion hno⟩
    | true =>
      cases hstep
      exact ⟨fun hover => hjoined.write_spec.1 (hover rfl), fun ht _ => hjoined.write_spec.2 ht⟩

theorem step_spec {e : Event} (h : Inv s) (hstep : step srv s e = some t) :
    (Clean srv s e → Inv t) ∧ (CleanedUp t → Clean srv s e) := by
  cases e with
  | connected ok => exact connected_spec h hstep
  | authenticated ok => exact authenticated_spec h hstep
  | resolved ok => exact resolved_spec h hstep
  | bound ok => exact bound_spec h hstep
  | channelEnds => exact ⟨fun _ => channelEnds_spec h hstep, fun _ => trivial⟩
  | connectorDone => exact connectorDone_spec h hstep
  | heartbeat => exact ⟨fun _ => heartbeat_spec h hstep, fun _ => trivial⟩
  | beforeJoining => exact beforeJoining_spec h hstep
  | joins ok => exact joins_spec h hstep

end Step

/-- A client has cleaned up in every state of a run exactly when each step of it is a clean one. -/
theorem client_cleans_up_iff {σ : Type} (srv : SrvImplDart σ) {es : List Event} {t : State}
    (hr : (machine srv).run initial es = some t) :
    (machine srv).Meets (Clean srv) initial es ↔
      ∀ pre u, pre <+: es → (machine srv).run initial pre = some u → CleanedUp u := by
  refine (machine srv).meets_iff_reached (I := Inv) ?_ ?_ ?_ initial_inv hr
  · intro s e u hs hclean hstep
    exact (step_spec hs hstep).1 hclean
  · intro s hs
    exact hs.clean
  · intro s e u hs hstep hclean
    exact (step_spec hs hstep).2 hclean

/-- A client whose control channel is encrypted, with a heartbeat. -/
def heartbeatClient : SrvImplDart Unit where
  host :=
    { base64Decode := Connect.base64Decode
      aesCtrStreamCipher := fun _ _ => none
      dartAesCtr := fun _ _ => ()
      update := fun s bytes => (bytes, s) }
  relayAuthenticator := true
  aesC2D := some "AAECAwQFBgcICQoLDA0ODxAREhMUFRYXGBkaGxwdHh8="
  ivC2D := some "8PHy8/T19vf4+fr7/P3+/w=="
  aesD2C := none
  ivD2C := none
  controlChannelHeartbeat := true

/-- The same without a heartbeat, and a session of it: a tunnel, the control channel's end and the connector's. -/
def quietClient : SrvImplDart Unit := { heartbeatClient with controlChannelHeartbeat := false }

def session : List Event :=
  [.connected true, .authenticated true, .resolved true, .bound true, .beforeJoining, .joins true, .channelEnds,
    .connectorDone]

theorem client_cleans_up_session :
    ∃ t, (machine quietClient).run initial session = some t ∧ t.isOver = true ∧ CleanedUp t := by
  have hmeets : (machine quietClient).Meets (Clean quietClient) initial session := by
    refine Machine.meets_cons _ ?_ rfl (Machine.meets_cons _ ?_ rfl (Machine.meets_cons _ ?_ rfl
      (Machine.meets_cons _ ?_ rfl (Machine.meets_cons _ ?_ rfl (Machine.meets_cons _ ?_ rfl
      (Machine.meets_cons _ ?_ rfl (Machine.meets_cons _ ?_ rfl trivial)))))))
    · exact fun _ hno => Bool.noConfusion hno
    · exact fun _ => rfl
    · exact rfl
    · exact ⟨rfl, rfl⟩
    · exact fun _ => rfl
    · exact fun _ => rfl
    · exact trivial
    · exact rfl
  exact ⟨_, rfl, rfl, (client_cleans_up_iff quietClient rfl).mp hmeets session _ List.prefix_rfl rfl⟩

/-- What a client leaves behind: its heartbeat timer, once the connector is done; its control socket and its
timer, when the local port cannot be bound; and an open connector, when the control channel ended before the
port was bound. -/
theorem client_leaves_behind :
    (∃ t, (machine heartbeatClient).run initial
        [.connected true, .authenticated true, .resolved true, .bound true, .connectorDone, .heartbeat] = some t ∧
      t.isOver = true ∧ t.heartbeat = true ∧ t.lateWrite = true ∧ ¬CleanedUp t) ∧
    (∃ t, (machine heartbeatClient).run initial
        [.connected true, .authenticated true, .resolved true, .bound false] = some t ∧
      t.isOver = true ∧ t.sessionControlSocket = .opened ∧ t.heartbeat = true ∧ ¬CleanedUp t) ∧
    (∃ t, (machine quietClient).run initial
        [.connected true, .authenticated true, .resolved true, .channelEnds, .bound true] = some t ∧
      t.channelEnded = true ∧ t.socketConnector = some ⟨false, false⟩ ∧ ¬CleanedUp t) := by
  refine ⟨⟨_, rfl, rfl, rfl, rfl, fun h => ?_⟩, ⟨_, rfl, rfl, rfl, rfl, fun h => ?_⟩,
    ⟨_, rfl, rfl, rfl, fun h => ?_⟩⟩
  · exact Bool.noConfusion h.written
  · exact h.socket rfl rfl
  · exact Bool.noConfusion (h.connector ⟨false, false⟩ rfl rfl)

end NoPorts.ClientSrv
