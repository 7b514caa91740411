import NoPorts.AesCtrTransformer
import NoPorts.CSrvRelay

/-! An encrypted tunnel between a Dart client and the C srv of a daemon, with a key for each direction: what comes
out at one end is what has gone in at the other. -/
namespace NoPorts.EncryptedTunnel
open Lib AesCtrTransformer
open CSrvRelay (Session Side SideEvent MainEvent Auth Keyed called)

/-- The client's transformers, the daemon's srv, and the bytes on their way between the two. -/
structure Tunnel (σ ε : Type) where
  encrypter : State σ ε
  decrypter : State σ ε
  srv : Session
  toSrv : List UInt8
  toClient : List UInt8
  /-- What the program at the client has written, as far as the encrypter has been given it. -/
  written : List UInt8

inductive Event (ε : Type) where
  | write (e : StreamEvent (List ℤ) ε)
  /-- The encrypter's stream is listened to: its data goes to the client's socket. -/
  | socket (e : ListenerEvent)
  /-- The next `n` bytes reach the client, in one chunk. -/
  | arrive (n : ℕ)
  /-- The stream of the client's socket ends, with an error or of itself. -/
  | close (error : Option ε)
  /-- The program at the client listens to the decrypter's stream. -/
  | read (e : ListenerEvent)
  | main (e : MainEvent)
  | side (d : Side) (e : SideEvent)

section content
variable {ε : Type}

def bytesOf : StreamEvent (List UInt8) ε → List UInt8
  | .data bytes => bytes
  | _ => []

/-- The bytes that a stream has delivered. -/
def content (events : List (StreamEvent (List UInt8) ε)) : List UInt8 := events.flatMap bytesOf

/-- A chunk of bytes, as a stream of `List<int>` has it. -/
def toInts (bytes : List UInt8) : List ℤ := bytes.map fun b => (b.toNat : ℤ)

def bytesIn (cs : List (List ℤ)) : List UInt8 := cs.flatMap toUint8List

/-- What an event gives to a transformer. -/
def given : AesCtrTransformer.Event ε → List UInt8
  | .source (.data chunk) => toUint8List chunk
  | _ => []

end content

section tunnel
variable {σ ε : Type} (cipher : AesCtrFfiCipher σ ε) (host : MbedHost) (auth : Auth)

namespace Tunnel
variable (t : Tunnel σ ε)

def onEncrypter (e : AesCtrTransformer.Event ε) : Option (Tunnel σ ε) :=
  (step cipher t.encrypter e).map fun s => { t with
    encrypter := s
    toSrv := t.toSrv ++ content (s.controller.delivered.drop t.encrypter.controller.delivered.length) }

def onDecrypter (e : AesCtrTransformer.Event ε) : Option (Tunnel σ ε) :=
  (step cipher t.decrypter e).map fun s => { t with decrypter := s }

def onSide (d : Side) (e : SideEvent) : Option (Tunnel σ ε) :=
  (t.srv.sideStep host true d e).map fun s => { t with
    srv := s
    toClient := t.toClient ++ (s.side .a).flow.sent.drop (t.srv.side .a).flow.sent.length }

end Tunnel

/-- Side b of the srv receives what is on its way to it, side a whatever the local service sends. -/
def tunnelStep (t : Tunnel σ ε) : Event ε → Option (Tunnel σ ε)
  | .write e => (t.onEncrypter cipher (.source e)).map fun u => { u with written := t.written ++ given (.source e) }
  | .socket e => t.onEncrypter cipher (.listener e)
  | .arrive n =>
    if 0 < n ∧ n ≤ t.toClient.length then
      (t.onDecrypter cipher (.source (.data (toInts (t.toClient.take n))))).map fun u =>
        { u with toClient := t.toClient.drop n }
    else none
  | .close none => t.onDecrypter cipher (.source .done)
  | .close (some e) => t.onDecrypter cipher (.source (.error e))
  | .read e => t.onDecrypter cipher (.listener e)
  | .main e => (t.srv.mainStep auth e).map fun s => { t with srv := s }
  | .side .b (.recv (.data bytes)) =>
    if bytes <+: t.toSrv then
      (t.onSide host .b (.recv (.data bytes))).map fun u => { u with toSrv := t.toSrv.drop bytes.length }
    else none
  | .side d e => t.onSide host d e

def tunnel : Machine (Tunnel σ ε) (Event ε) := ⟨tunnelStep cipher host auth⟩

/-- Nothing has been written yet. -/
def opened (c2d d2c : σ) (state : Side → AesCtr) : Tunnel σ ε :=
  ⟨ffiTransform c2d, ffiTransform d2c, called state, [], [], []⟩

/-- What libcrypto makes of chunks from `context` on: each byte by its place in the stream. -/
def Follows (context : σ) (k : Keystream UInt8) : Prop :=
  ∀ cs outputs next, updates cipher context cs = .ok (outputs, next) → outputs.flatten = k.crypt 0 (bytesIn cs)

/-- What is to hold. -/
structure Intact (t : Tunnel σ ε) : Prop where
  /-- The local service has the beginning of what the program has written. -/
  toService : (t.srv.side .b).flow.sent <+: t.written
  /-- The program has the beginning of what the local service has sent. -/
  toProgram : content t.decrypter.controller.delivered <+: (t.srv.side .a).received
  /-- All of it, where the program has closed its end and the srv has come to the end of what was sent. -/
  serviceWhole : .done ∈ t.encrypter.controller.delivered → (∀ e, .error e ∉ t.encrypter.controller.delivered) →
    t.toSrv = [] → (t.srv.side .b).atEnd = true → (t.srv.side .b).flow.sent = t.written
  programWhole : (t.srv.side .a).atEnd = true → t.toClient = [] → .done ∈ t.decrypter.controller.delivered →
    (∀ e, .error e ∉ t.decrypter.controller.delivered) →
      content t.decrypter.controller.delivered = (t.srv.side .a).received

end tunnel

/-! ### What each part adds -/

section parts
variable {σ ε : Type} {cipher : AesCtrFfiCipher σ ε} {host : MbedHost} {auth : Auth}

theorem toUint8List_toInts (bytes : List UInt8) : toUint8List (toInts bytes) = bytes := by
  have hsame : ∀ b : UInt8, UInt8.ofInt (b.toNat : ℤ) = b := by
    intro b
    have hlt : b.toNat < 2 ^ 8 := b.toNat_lt
    have hmod : ((b.toNat : ℤ) % 2 ^ 8).toNat = b.toNat := by omega
    rw [UInt8.ofInt, hmod, UInt8.ofNat_toNat]
  rw [toUint8List, toInts, List.map_map]
  calc bytes.map (UInt8.ofInt ∘ fun b : UInt8 => (b.toNat : ℤ))
      = bytes.map id := List.map_congr_left fun b _ => hsame b
    _ = bytes := List.map_id _

theorem content_append (events more : List (StreamEvent (List UInt8) ε)) :
    content (events ++ more) = content events ++ content more := List.flatMap_append

theorem content_data (outputs : List (List UInt8)) :
    content (outputs.map (StreamEvent.data (ε := ε))) = outputs.flatten := by
  rw [content, List.flatMap_map]
  exact List.flatMap_id

theorem content_prefix {events more : List (StreamEvent (List UInt8) ε)} (h : events <+: more) :
    content events <+: content more := by
  obtain ⟨rest, rfl⟩ := h
  rw [content_append]
  exact List.prefix_append _ _

/-- What has been delivered stays delivered. -/
theorem delivered_of_turn {α : Type} {c c' : StreamController α ε} {e : ListenerEvent} {called : Option Callback}
    (h : c.turn e = some (c', called)) : c.delivered <+: c'.delivered := by
  rcases StreamController.turn_cases h with ⟨-, hidle⟩ | ⟨-, ⟨-, -, rfl⟩ | ⟨-, -, rfl⟩⟩ | ⟨x, rest, -, -, -, hdispatch⟩ |
    ⟨x, -, -, -, rfl⟩
  · rw [hidle.delivered]
  · exact List.prefix_refl _
  · exact List.prefix_refl _
  · rcases c.dispatch_cases x rest with hpass | ⟨hcancel, -⟩
    · rw [hpass, StreamController.pass] at hdispatch
      split at hdispatch
      · rw [← (Prod.mk.inj hdispatch).1]
        exact List.prefix_append _ _
      · rw [← (Prod.mk.inj hdispatch).1]
        exact List.prefix_append _ _
    · rw [hcancel, StreamController.cancelFor] at hdispatch
      rw [← (Prod.mk.inj hdispatch).1]
  · exact List.prefix_append _ _

theorem delivered_send {α : Type} (c : StreamController α ε) (x : StreamEvent α ε) :
    (c.send x).delivered = c.delivered := by
  unfold StreamController.send
  split <;> rfl

theorem delivered_close {α : Type} (c : StreamController α ε) : c.close.delivered = c.delivered := by
  unfold StreamController.close
  split
  · rfl
  · exact delivered_send c .done

theorem delivered_onSource (s : State σ ε) (e : StreamEvent (List ℤ) ε) :
    (s.onSource cipher e).controller.delivered = s.controller.delivered := by
  have hterminate : ∀ (s : State σ ε) (e : ε), (s.terminate e).controller.delivered = s.controller.delivered := by
    intro s e
    unfold State.terminate
    split
    · rfl
    · exact (delivered_close _).trans (delivered_send _ _)
  cases e with
  | data chunk =>
    rw [State.onSource, State.onData]
    split
    · rfl
    · split
      · exact delivered_send _ _
      · exact hterminate _ _
  | error e => exact hterminate s e
  | done => exact delivered_close _

/-- Whatever happens to a transformer's stream, what it has delivered stays. -/
theorem delivered_of_step {s s' : State σ ε} {e : AesCtrTransformer.Event ε} (h : step cipher s e = some s') :
    s.controller.delivered <+: s'.controller.delivered := by
  cases e with
  | source e =>
    rw [step] at h
    split at h
    · cases h
    · split at h
      · rw [← Option.some.inj h, delivered_onSource]
      · cases h
  | listener e =>
    obtain ⟨⟨c, called⟩, hturn, h⟩ := Option.bind_eq_some_iff.mp h
    have hcallback : s'.controller = c := by
      rw [← Option.some.inj h]
      cases called with
      | none => rfl
      | some called =>
        cases called with
        | _ => rfl
    rw [hcallback]
    exact delivered_of_turn hturn

/-- What a side's thread has sent stays sent. -/
theorem sent_of_step {transform : Bool} {th th' : CSrvRelay.SideThread} {e : SideEvent}
    (h : th.step host transform e = some th') : th.flow.sent <+: th'.flow.sent := by
  have hsending : ∀ flow : Pump AesCtr UInt8, (th.sending flow).flow = flow := fun _ => rfl
  obtain ⟨bytes, -, rfl⟩ | ⟨-, rfl⟩ | ⟨buffer, -, rfl⟩ | ⟨n, -, rfl⟩ | ⟨-, rfl⟩ | ⟨pc, -, -, -, rfl⟩ :=
    CSrvRelay.SideThread.step_cases h
  · exact List.prefix_refl _
  · exact List.prefix_refl _
  · rw [hsending, Pump.feed]
    exact List.prefix_append _ _
  · rw [hsending, Pump.flush]
    exact List.prefix_append _ _
  · exact List.prefix_refl _
  · exact List.prefix_refl _

/-- Bytes that a thread receives from its socket. -/
def receivedIn : SideEvent → List UInt8
  | .recv (.data bytes) => bytes
  | _ => []

theorem received_of_step {transform : Bool} {th th' : CSrvRelay.SideThread} {e : SideEvent}
    (h : th.step host transform e = some th') : th'.received = th.received ++ receivedIn e := by
  have hnothing : th'.received = th.received → receivedIn e = [] → th'.received = th.received ++ receivedIn e := by
    intro hsame hnil
    rw [hsame, hnil, List.append_nil]
  cases e with
  | recv res =>
    obtain ⟨_, -, h⟩ := Option.bind_eq_some_iff.mp h
    cases res with
    | data bytes =>
      obtain ⟨_, -, h⟩ := Option.bind_eq_some_iff.mp h
      rw [← Option.some.inj h]
      rfl
    | eof => exact hnothing (by rw [← Option.some.inj h]) rfl
    | error => exact hnothing (by rw [← Option.some.inj h]) rfl
  | transform ok =>
    apply hnothing _ rfl
    rw [CSrvRelay.SideThread.step] at h
    split at h
    · split at h
      · rw [← Option.some.inj h]
        rfl
      · split at h
        · rw [← Option.some.inj h]
        · cases h
    · cases h
  | send res =>
    obtain ⟨_, -, h⟩ := Option.bind_eq_some_iff.mp h
    apply hnothing _ rfl
    cases res with
    | sent n =>
      obtain ⟨_, -, h⟩ := Option.bind_eq_some_iff.mp h
      rw [← Option.some.inj h]
      rfl
    | interrupted => rw [← Option.some.inj h]
    | error => rw [← Option.some.inj h]
  | notify =>
    obtain ⟨_, -, h⟩ := Option.bind_eq_some_iff.mp h
    exact hnothing (by rw [← Option.some.inj h]) rfl
  | exit =>
    obtain ⟨_, -, h⟩ := Option.bind_eq_some_iff.mp h
    exact hnothing (by rw [← Option.some.inj h]) rfl
  | cancel =>
    obtain ⟨_, -, h⟩ := Option.bind_eq_some_iff.mp h
    exact hnothing (by rw [← Option.some.inj h]) rfl

/-- The thread that starts the others and joins them leaves what they send and receive to them. -/
theorem side_of_mainStep {s s' : Session} {e : MainEvent} (h : s.mainStep auth e = some s') (d : Side) :
    (s'.side d).flow = (s.side d).flow ∧ (s'.side d).received = (s.side d).received := by
  have hset : ∀ (s : Session) (d' : Side) (th : CSrvRelay.SideThread), th.flow = (s.side d').flow →
      th.received = (s.side d').received →
        ((s.setSide d' th).side d).flow = (s.side d).flow ∧ ((s.setSide d' th).side d).received = (s.side d).received := by
    intro s d' th hflow hreceived
    by_cases hd : d = d'
    · rw [hd, Session.side_setSide]
      exact ⟨hflow, hreceived⟩
    · rw [Session.side_setSide_of_ne hd]
      exact ⟨rfl, rfl⟩
  have hjoined : ∀ {s t : Session} {d' : Side}, s.joined d' = some t →
      (t.side d).flow = (s.side d).flow ∧ (t.side d).received = (s.side d).received := by
    intro s t d' hjoin
    obtain ⟨-, rfl⟩ := Session.joined_cases hjoin
    exact hset s d' _ rfl rfl
  have hgoto : ∀ {s t : Session} {d' : Side} {main : CSrvRelay.Main},
      (s.joined d').map (·.goto main) = some t →
        (t.side d).flow = (s.side d).flow ∧ (t.side d).received = (s.side d).received := by
    intro s t d' main hmap
    obtain ⟨u, hu, rfl⟩ := Option.map_eq_some_iff.mp hmap
    have hsame := hjoined hu
    exact hsame
  unfold Session.mainStep at h
  split at h
  · rw [← Option.some.inj h]
    split
    · exact ⟨rfl, rfl⟩
    · exact ⟨rfl, rfl⟩
  · rw [← Option.some.inj h]
    split
    · exact ⟨rfl, rfl⟩
    · exact ⟨rfl, rfl⟩
  · rw [← Option.some.inj h]
    split
    · exact ⟨rfl, rfl⟩
    · exact ⟨rfl, rfl⟩
  · rw [← Option.some.inj h]
    split
    · split
      · exact ⟨rfl, rfl⟩
      · exact ⟨rfl, rfl⟩
    · split
      · exact ⟨rfl, rfl⟩
      · exact ⟨rfl, rfl⟩
    · exact ⟨rfl, rfl⟩
  · rw [← Option.some.inj h]
    split
    · exact hset s .a _ rfl rfl
    · exact ⟨rfl, rfl⟩
  · rw [← Option.some.inj h]
    split
    · exact hset s .b _ rfl rfl
    · exact ⟨rfl, rfl⟩
  · split at h
    · split at h
      · cases h
      · rw [← Option.some.inj h]
        exact ⟨rfl, rfl⟩
    · rw [← Option.some.inj h]
      exact ⟨rfl, rfl⟩
  · exact hgoto h
  · rw [← Option.some.inj h]
    exact hset s _ _ rfl rfl
  · exact hgoto h
  · rw [← Option.some.inj h]
    exact hset s .a _ rfl rfl
  · rw [← Option.some.inj h]
    exact hset s .b _ rfl rfl
  · exact hgoto h
  · obtain ⟨u, hu, rfl⟩ := Option.map_eq_some_iff.mp h
    have hsame := hjoined hu
    exact hsame
  · rw [← Option.some.inj h]
    exact ⟨rfl, rfl⟩
  · rw [← Option.some.inj h]
    exact ⟨rfl, rfl⟩
  · cases h

end parts

/-! ### A run -/

section run
variable {σ ε : Type} {cipher : AesCtrFfiCipher σ ε} {host : MbedHost} {auth : Auth} {context c2d d2c : σ}
  {state : Side → AesCtr} {k : Side → Keystream UInt8} {t u : Tunnel σ ε}

theorem kept_of_step {es : List (AesCtrTransformer.Event ε)} {s s' : State σ ε} {phase : Phase ε}
    {outputs : List (List UInt8)} {e : AesCtrTransformer.Event ε} (h : Kept cipher context es s phase outputs)
    (hstep : step cipher s e = some s') :
    ∃ phase outputs, Kept cipher context (es ++ [e]) s' phase outputs := by
  cases e with
  | source e => exact h.source hstep
  | listener e => exact ⟨phase, outputs, (h.listener hstep).1⟩

theorem bytesIn_concat (es : List (AesCtrTransformer.Event ε)) (e : AesCtrTransformer.Event ε) :
    bytesIn (chunks (es ++ [e])) = bytesIn (chunks es) ++ given e := by
  have hone : bytesIn (chunks [e]) = given e := by
    cases e with
    | source e =>
      cases e with
      | data chunk => exact List.flatMap_singleton _ _
      | _ => rfl
    | listener e => rfl
  rw [chunks_append, bytesIn, List.flatMap_append, ← bytesIn, ← bytesIn, hone]

/-- Each transformer has been given what is behind it, and the bytes on their way are those that have left one end
and not come to the other. -/
structure Inv (cipher : AesCtrFfiCipher σ ε) (host : MbedHost) (c2d d2c : σ) (state : Side → AesCtr)
    (t : Tunnel σ ε) : Prop where
  encrypter : ∃ es phase outputs, Kept cipher c2d es t.encrypter phase outputs ∧ bytesIn (chunks es) = t.written
  decrypter : ∃ es phase outputs, Kept cipher d2c es t.decrypter phase outputs ∧
    bytesIn (chunks es) ++ t.toClient = (t.srv.side .a).flow.sent
  srv : t.srv.Inv host true state
  toSrv : (t.srv.side .b).received ++ t.toSrv = content t.encrypter.controller.delivered

theorem inv_opened : Inv cipher host c2d d2c state (opened c2d d2c state : Tunnel σ ε) where
  encrypter := ⟨[], .running, [], kept_start cipher c2d, rfl⟩
  decrypter := ⟨[], .running, [], kept_start cipher d2c, rfl⟩
  srv := Session.inv_called state
  toSrv := rfl

/-- What the encrypter delivers goes to the srv. -/
theorem Inv.onEncrypter (h : Inv cipher host c2d d2c state t) {e : AesCtrTransformer.Event ε}
    (hstep : t.onEncrypter cipher e = some u) :
    Inv cipher host c2d d2c state { u with written := t.written ++ given e } := by
  obtain ⟨s, hs, rfl⟩ := Option.map_eq_some_iff.mp hstep
  refine ⟨?_, h.decrypter, h.srv, ?_⟩
  · obtain ⟨es, phase, outputs, hkept, hwritten⟩ := h.encrypter
    obtain ⟨phase', outputs', hkept'⟩ := kept_of_step hkept hs
    exact ⟨es ++ [e], phase', outputs', hkept', by rw [bytesIn_concat, hwritten]⟩
  · obtain ⟨more, hmore⟩ := delivered_of_step hs
    change _ ++ (t.toSrv ++ content (s.controller.delivered.drop _)) = content s.controller.delivered
    rw [← hmore, List.drop_left, content_append, ← h.toSrv, List.append_assoc]

/-- What comes to the decrypter is next of what is on its way. -/
theorem Inv.onDecrypter (h : Inv cipher host c2d d2c state t) {e : AesCtrTransformer.Event ε} {left : List UInt8}
    (hleft : given e ++ left = t.toClient) (hstep : t.onDecrypter cipher e = some u) :
    Inv cipher host c2d d2c state { u with toClient := left } := by
  obtain ⟨s, hs, rfl⟩ := Option.map_eq_some_iff.mp hstep
  refine ⟨h.encrypter, ?_, h.srv, h.toSrv⟩
  obtain ⟨es, phase, outputs, hkept, harrived⟩ := h.decrypter
  obtain ⟨phase', outputs', hkept'⟩ := kept_of_step hkept hs
  refine ⟨es ++ [e], phase', outputs', hkept', ?_⟩
  rw [bytesIn_concat, List.append_assoc, hleft]
  exact harrived

/-- What side a sends goes to the client, and what side b receives is next of what is on its way. -/
theorem Inv.onSide (h : Inv cipher host c2d d2c state t) {d : Side} {e : SideEvent} {left : List UInt8}
    (ha : d = .a → left = t.toSrv) (hb : d = .b → receivedIn e ++ left = t.toSrv)
    (hstep : t.onSide host d e = some u) : Inv cipher host c2d d2c state { u with toSrv := left } := by
  obtain ⟨s, hs, rfl⟩ := Option.map_eq_some_iff.mp hstep
  have hsrv : s.Inv host true state := h.srv.sideStep hs
  obtain ⟨th, hth, rfl⟩ := Option.map_eq_some_iff.mp hs
  have hsent : (t.srv.side .a).flow.sent <+: ((t.srv.setSide d th).side .a).flow.sent := by
    cases d with
    | a =>
      rw [Session.side_setSide]
      exact sent_of_step hth
    | b =>
      rw [Session.side_setSide_of_ne (by decide)]
  have hreceived : ((t.srv.setSide d th).side .b).received ++ left = (t.srv.side .b).received ++ t.toSrv := by
    cases d with
    | a => rw [Session.side_setSide_of_ne (by decide), ha rfl]
    | b => rw [Session.side_setSide, received_of_step hth, List.append_assoc, hb rfl]
  refine ⟨h.encrypter, ?_, hsrv, hreceived.trans h.toSrv⟩
  obtain ⟨es, phase, outputs, hkept, harrived⟩ := h.decrypter
  refine ⟨es, phase, outputs, hkept, ?_⟩
  obtain ⟨more, hmore⟩ := hsent
  change _ ++ (t.toClient ++ ((t.srv.setSide d th).side .a).flow.sent.drop _) =
    ((t.srv.setSide d th).side .a).flow.sent
  rw [← hmore, List.drop_left, ← List.append_assoc, harrived]

theorem Inv.step (h : Inv cipher host c2d d2c state t) {e : Event ε}
    (hstep : tunnelStep cipher host auth t e = some u) : Inv cipher host c2d d2c state u := by
  have hwrites : ∀ e : AesCtrTransformer.Event ε, given e = [] → t.onEncrypter cipher e = some u →
      Inv cipher host c2d d2c state u := by
    intro e hnone hstep
    have hinv := h.onEncrypter hstep
    obtain ⟨s, -, rfl⟩ := Option.map_eq_some_iff.mp hstep
    rw [hnone, List.append_nil] at hinv
    exact hinv
  have hreads : ∀ e : AesCtrTransformer.Event ε, given e = [] → t.onDecrypter cipher e = some u →
      Inv cipher host c2d d2c state u := by
    intro e hnone hstep
    have hleft : given e ++ t.toClient = t.toClient := by rw [hnone, List.nil_append]
    have hinv := h.onDecrypter hleft hstep
    obtain ⟨s, -, rfl⟩ := Option.map_eq_some_iff.mp hstep
    exact hinv
  have hside : ∀ (d : Side) (e : SideEvent), (d = .b → receivedIn e = []) → t.onSide host d e = some u →
      Inv cipher host c2d d2c state u := by
    intro d e hnone hstep
    have hinv := h.onSide (fun _ => rfl) (fun hd => by rw [hnone hd, List.nil_append]) hstep
    obtain ⟨s, -, rfl⟩ := Option.map_eq_some_iff.mp hstep
    exact hinv
  cases e with
  | write e =>
    obtain ⟨v, hv, rfl⟩ := Option.map_eq_some_iff.mp hstep
    exact h.onEncrypter hv
  | socket e => exact hwrites _ rfl hstep
  | arrive n =>
    obtain ⟨-, hstep⟩ := Option.ite_none_right_eq_some.mp hstep
    obtain ⟨v, hv, rfl⟩ := Option.map_eq_some_iff.mp hstep
    refine h.onDecrypter ?_ hv
    rw [given, toUint8List_toInts, List.take_append_drop]
  | close error =>
    cases error with
    | none => exact hreads _ rfl hstep
    | some error => exact hreads _ rfl hstep
  | read e => exact hreads _ rfl hstep
  | main e =>
    obtain ⟨s, hs, rfl⟩ := Option.map_eq_some_iff.mp hstep
    refine ⟨h.encrypter, ?_, h.srv.mainStep hs, ?_⟩
    · obtain ⟨es, phase, outputs, hkept, harrived⟩ := h.decrypter
      exact ⟨es, phase, outputs, hkept, harrived.trans (by rw [(side_of_mainStep hs .a).1])⟩
    · change (s.side .b).received ++ t.toSrv = _
      rw [(side_of_mainStep hs .b).2]
      exact h.toSrv
  | side d e =>
    cases d with
    | a => exact hside .a e (fun hd => by cases hd) hstep
    | b =>
      cases e with
      | recv res =>
        cases res with
        | data bytes =>
          obtain ⟨⟨rest, hrest⟩, hstep⟩ := Option.ite_none_right_eq_some.mp hstep
          obtain ⟨v, hv, rfl⟩ := Option.map_eq_some_iff.mp hstep
          refine h.onSide (fun hd => by cases hd) (fun _ => ?_) hv
          rw [← hrest, List.drop_left]
          rfl
        | eof => exact hside .b _ (fun _ => rfl) hstep
        | error => exact hside .b _ (fun _ => rfl) hstep
      | _ => exact hside .b _ (fun _ => rfl) hstep

theorem inv_of_run {es : List (Event ε)} (hrun : (tunnel cipher host auth).run (opened c2d d2c state) es = some t) :
    Inv cipher host c2d d2c state t :=
  (tunnel cipher host auth).invariant (fun _ _ _ h hstep => h.step hstep) inv_opened hrun

/-! ### What comes out -/

/-- All that a transformer's stream has or comes to, byte by byte. -/
theorem content_stream {stream : Keystream UInt8} (hfollows : Follows cipher context stream) {cs : List (List ℤ)}
    {outputs : List (List UInt8)} {next : σ} (hupdates : updates cipher context cs = .ok (outputs, next))
    (phase : Phase ε) : content (outputs.map .data ++ phase.tail) = stream.crypt 0 (bytesIn cs) := by
  have htail : content phase.tail = [] := by
    cases phase with
    | _ => rfl
  rw [content_append, content_data, htail, List.append_nil, hfollows cs outputs next hupdates]

theorem delivered_stream {es : List (AesCtrTransformer.Event ε)} {s : State σ ε} {phase : Phase ε}
    {outputs : List (List UInt8)} (h : Kept cipher context es s phase outputs) :
    s.controller.delivered <+: outputs.map .data ++ phase.tail :=
  (List.prefix_append _ _).trans h.carries.stream

theorem delivered_crypt {stream : Keystream UInt8} (hfollows : Follows cipher context stream)
    {es : List (AesCtrTransformer.Event ε)} {s : State σ ε} {phase : Phase ε} {outputs : List (List UInt8)}
    (h : Kept cipher context es s phase outputs) :
    content s.controller.delivered <+: stream.crypt 0 (bytesIn (chunks es)) := by
  obtain ⟨cs, next, ⟨rest, hrest⟩, hupdates, -, -⟩ := h.updated
  have hcontent := content_prefix (delivered_stream h)
  rw [content_stream hfollows hupdates] at hcontent
  rw [← hrest, bytesIn, List.flatMap_append]
  exact hcontent.trans ( stream.crypt_prefix 0 _ _)

/-- A stream that is done without an error has delivered all of it. -/
theorem delivered_whole {stream : Keystream UInt8} (hfollows : Follows cipher context stream)
    {es : List (AesCtrTransformer.Event ε)} {s : State σ ε} {phase : Phase ε} {outputs : List (List UInt8)}
    (h : Kept cipher context es s phase outputs) (hdone : .done ∈ s.controller.delivered)
    (herror : ∀ e, .error e ∉ s.controller.delivered) :
    content s.controller.delivered = stream.crypt 0 (bytesIn (chunks es)) := by
  obtain ⟨cs, next, -, hupdates, hall, -⟩ := h.updated
  obtain ⟨rest, hrest⟩ := delivered_stream h
  -- nothing comes after the done event, so nothing is left to deliver
  have hnil : rest = [] := by
    obtain ⟨pre, post, hsplit⟩ := List.append_of_mem hdone
    rw [hsplit, List.append_assoc, List.cons_append] at hrest
    exact (List.append_eq_nil_iff.mp (phase.nothing_after_done hrest.symm)).2
  rw [hnil, List.append_nil] at hrest
  have hphase : ∀ e, phase ≠ .failed e := by
    rintro e rfl
    apply herror e
    rw [hrest]
    exact List.mem_append_right _ List.mem_cons_self
  rw [hrest, content_stream hfollows hupdates, hall hphase]

/-- Transformed again, the beginning of a stream is a beginning. -/
theorem prefix_of_crypt (stream : Keystream UInt8) {data sent : List UInt8} (h : data <+: stream.crypt 0 sent) :
    stream.crypt 0 data <+: sent := by
  obtain ⟨more, hmore⟩ := h
  have hprefix := stream.crypt_prefix 0 data more
  rw [hmore, stream.crypt_crypt] at hprefix
  exact hprefix

theorem Inv.toService (h : Inv cipher host c2d d2c state t) (hup : Follows cipher c2d (k .b))
    (hk : Keyed host true k state) : (t.srv.side .b).flow.sent <+: t.written := by
  obtain ⟨es, phase, outputs, hkept, hwritten⟩ := h.encrypter
  have hsent : (t.srv.side .b).flow.sent <+: (k .b).crypt 0 (t.srv.side .b).received := (h.srv.relayed hk).sent .b
  have hreceived : (t.srv.side .b).received <+: (k .b).crypt 0 t.written := by
    have hcrypt := delivered_crypt hup hkept
    rw [hwritten, ← h.toSrv] at hcrypt
    exact (List.prefix_append _ _).trans hcrypt
  exact hsent.trans (prefix_of_crypt _ hreceived)

theorem Inv.serviceWhole (h : Inv cipher host c2d d2c state t) (hup : Follows cipher c2d (k .b))
    (hk : Keyed host true k state) (hdone : .done ∈ t.encrypter.controller.delivered)
    (herror : ∀ e, .error e ∉ t.encrypter.controller.delivered) (hleft : t.toSrv = [])
    (hend : (t.srv.side .b).atEnd = true) : (t.srv.side .b).flow.sent = t.written := by
  obtain ⟨es, phase, outputs, hkept, hwritten⟩ := h.encrypter
  have hsent : (t.srv.side .b).flow.sent = (k .b).crypt 0 (t.srv.side .b).received := (h.srv.relayed hk).atEnd .b hend
  have hreceived := h.toSrv
  rw [hleft, List.append_nil, delivered_whole hup hkept hdone herror, hwritten] at hreceived
  rw [hsent, hreceived, Keystream.crypt_crypt]

theorem Inv.toProgram (h : Inv cipher host c2d d2c state t) (hdown : Follows cipher d2c (k .a))
    (hk : Keyed host true k state) : content t.decrypter.controller.delivered <+: (t.srv.side .a).received := by
  obtain ⟨es, phase, outputs, hkept, harrived⟩ := h.decrypter
  have hsent : (t.srv.side .a).flow.sent <+: (k .a).crypt 0 (t.srv.side .a).received := (h.srv.relayed hk).sent .a
  have harrived : bytesIn (chunks es) <+: (k .a).crypt 0 (t.srv.side .a).received := by
    rw [← harrived] at hsent
    exact (List.prefix_append _ _).trans hsent
  exact (delivered_crypt hdown hkept).trans (prefix_of_crypt _ harrived)

theorem Inv.programWhole (h : Inv cipher host c2d d2c state t) (hdown : Follows cipher d2c (k .a))
    (hk : Keyed host true k state) (hend : (t.srv.side .a).atEnd = true) (hleft : t.toClient = [])
    (hdone : .done ∈ t.decrypter.controller.delivered) (herror : ∀ e, .error e ∉ t.decrypter.controller.delivered) :
    content t.decrypter.controller.delivered = (t.srv.side .a).received := by
  obtain ⟨es, phase, outputs, hkept, harrived⟩ := h.decrypter
  have hsent : (t.srv.side .a).flow.sent = (k .a).crypt 0 (t.srv.side .a).received := (h.srv.relayed hk).atEnd .a hend
  rw [hleft, List.append_nil] at harrived
  rw [delivered_whole hdown hkept hdone herror, harrived, hsent, Keystream.crypt_crypt]

/-- However the chunks are cut on their way, and whenever a thread, a listener or a socket stops. -/
theorem tunnel_intact (hup : Follows cipher c2d (k .b)) (hdown : Follows cipher d2c (k .a))
    (hk : Keyed host true k state) {es : List (Event ε)}
    (hrun : (tunnel cipher host auth).run (opened c2d d2c state) es = some t) : Intact t := by
  have hinv := inv_of_run hrun
  exact ⟨hinv.toService hup hk, hinv.toProgram hdown hk, hinv.serviceWhole hup hk, hinv.programWhole hdown hk⟩

end run

/-! ### A request and its answer -/

section sample
open ArduinoRelay.RelaySub (zeroStream sampleHost)
open CSrvRelay.Session (zeroState)

/-- What counts its position in the stream. -/
theorem follows_of_counts {σ ε : Type} {cipher : AesCtrFfiCipher σ ε} {stream : Keystream UInt8} (position : σ → ℕ)
    (hstep : ∀ s chunk output next, cipher.update s chunk = .ok (output, next) →
      output = stream.crypt (position s) chunk ∧ position next = position s + chunk.length)
    {context : σ} (hcontext : position context = 0) : Follows cipher context stream := by
  have hany : ∀ (cs : List (List ℤ)) (s : σ) (outputs : List (List UInt8)) (next : σ),
      updates cipher s cs = .ok (outputs, next) → outputs.flatten = stream.crypt (position s) (bytesIn cs) := by
    intro cs
    induction cs with
    | nil =>
      intro s outputs next h
      rw [← (Prod.mk.inj (Except.ok.inj h)).1]
      rfl
    | cons c cs ih =>
      intro s outputs next h
      obtain ⟨⟨output, mid⟩, hoh, h⟩ := Lib.bind_eq_ok.mp h
      obtain ⟨⟨rest, next'⟩, hrest, h⟩ := Lib.bind_eq_ok.mp h
      obtain ⟨houtput, hmid⟩ := hstep s (toUint8List c) output mid hoh
      rw [← (Prod.mk.inj (Except.ok.inj h)).1, List.flatten_cons, ih mid rest next' hrest, hmid, houtput,
        ← stream.crypt_append]
      rfl
  intro cs outputs next h
  rw [hany cs context outputs next h, hcontext]

def sampleCipher : AesCtrFfiCipher ℕ String where
  update pos chunk := .ok (zeroStream.crypt pos chunk, pos + chunk.length)

theorem sampleCipher_follows : Follows sampleCipher 0 zeroStream := by
  apply follows_of_counts id _ rfl
  intro s chunk output next h
  obtain ⟨rfl, rfl⟩ := Prod.mk.inj (Except.ok.inj h)
  exact ⟨rfl, rfl⟩

/-- The program writes two bytes; the local service has the first of them when it answers with one. -/
def sampleRun : List (Event String) :=
  [.main (.init 0), .main (.init 0), .main (.pipe true), .main (.authenticate 0), .main (.create 0), .main (.create 0),
    .socket (.listen false), .write (.data [104, 105]), .socket .take,
    .side .b (.recv (.data (zeroStream.crypt 0 [104]))), .side .b (.transform true), .side .b (.send (.sent 1)),
    .side .a (.recv (.data [9])), .side .a (.transform true), .side .a (.send (.sent 1)), .read (.listen false),
    .arrive 1, .read .take]

theorem tunnel_intact_sample : ∃ t, (tunnel sampleCipher sampleHost .none).run (opened 0 0 zeroState) sampleRun = some t ∧
    (t.srv.side .b).flow.sent = [104] ∧ content t.decrypter.controller.delivered = [9] ∧ Intact t := by
  have hkeyed : Keyed sampleHost true (fun _ => zeroStream) zeroState := by
    intro _ d
    exact Transducer.follows_of_counts AesCtr.nc_off (fun _ _ => ⟨rfl, rfl⟩) rfl
  obtain ⟨t, ht⟩ : ∃ t, (tunnel sampleCipher sampleHost .none).run (opened 0 0 zeroState) sampleRun = some t :=
    ⟨_, rfl⟩
  refine ⟨t, ht, ?_, ?_, tunnel_intact sampleCipher_follows sampleCipher_follows hkeyed ht⟩
  · obtain rfl := Option.some.inj ht
    decide +kernel
  · obtain rfl := Option.some.inj ht
    decide +kernel

end sample

end NoPorts.EncryptedTunnel
