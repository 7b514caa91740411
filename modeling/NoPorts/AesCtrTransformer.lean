import Mathlib.Data.List.Infix
import NoPorts.Lib.Except
import NoPorts.Lib.Machine
import NoPorts.Lib.StreamController

/-! The AES-CTR transformer of a tunnel's traffic: its stream, between the source's events and the listener's. -/
namespace NoPorts.AesCtrTransformer
open Lib

inductive Thrown where
  | formatException
  | argumentError (value : ℕ) (name message : String)
  deriving DecidableEq, Repr

/-- How a stream is transformed: with a context of libcrypto's, or in Dart, by the width of the key. -/
inductive Transform (σ : Type*) where
  | ffi (context : σ)
  | pureDart (bits : ℕ)
  deriving DecidableEq, Repr

def ivLength : ℕ := 16

section
variable {σ : Type} (base64Decode : String → Except Thrown (List UInt8))
  (cipherFactory : (aesKey iv : List UInt8) → Option σ)

/-- The transform of one stream: each gets a context of its own. -/
def createAesCtrTransformer (aesKeyBase64 ivBase64 : String) : Except Thrown (Transform σ) := do
  let iv ← base64Decode ivBase64
  let key ← base64Decode aesKeyBase64
  if key.length ≠ 16 ∧ key.length ≠ 24 ∧ key.length ≠ 32 then
    throw (.argumentError key.length "aesKeyBase64" "AES key must decode to 16, 24 or 32 bytes")
  if iv.length ≠ ivLength then
    throw (.argumentError iv.length "ivBase64" "AES-CTR IV must decode to exactly 16 bytes")
  match cipherFactory key iv with
  | none =>
    return .pureDart (match key.length with
      | 16 => 128
      | 24 => 192
      | _ => 256)
  | some context => return .ffi context

/-- The keys that are accepted don't depend on whether there is a libcrypto. -/
theorem createAesCtrTransformer_ok_iff {aesKeyBase64 ivBase64 : String} :
    (∃ t, createAesCtrTransformer base64Decode cipherFactory aesKeyBase64 ivBase64 = .ok t) ↔
      ∃ key iv, base64Decode aesKeyBase64 = .ok key ∧ base64Decode ivBase64 = .ok iv ∧
        (key.length = 16 ∨ key.length = 24 ∨ key.length = 32) ∧ iv.length = ivLength := by
  unfold createAesCtrTransformer
  constructor
  · rintro ⟨t, h⟩
    obtain ⟨iv, hiv, h⟩ := bind_eq_ok.mp h
    obtain ⟨key, hkey, h⟩ := bind_eq_ok.mp h
    obtain ⟨hlength, h⟩ := throwIf_ok.mp h
    obtain ⟨hivLength, -⟩ := throwIf_ok.mp h
    exact ⟨key, iv, hkey, hiv, by omega, not_not.mp hivLength⟩
  · rintro ⟨key, iv, hkey, hiv, hlength, hivLength⟩
    rw [hiv, hkey, ok_bind, ok_bind]
    cases hc : cipherFactory key iv with
    | none => exact ⟨_, throwIf_ok.mpr ⟨by omega, throwIf_ok.mpr ⟨not_not.mpr hivLength, rfl⟩⟩⟩
    | some context => exact ⟨_, throwIf_ok.mpr ⟨by omega, throwIf_ok.mpr ⟨not_not.mpr hivLength, rfl⟩⟩⟩

end

/-! The stream -/

/-- A native cipher: what `update` makes of the keystream's position, or throws. -/
structure AesCtrFfiCipher (σ ε : Type) where
  update : σ → List UInt8 → Except ε (List UInt8 × σ)

inductive CipherCall (ε : Type) where
  | update (result : Except ε (List UInt8))
  | dispose

/-- The subscription of the source. -/
structure Subscription where
  pauses : ℕ
  canceled : Bool
  done : Bool
  deriving DecidableEq, Repr

structure State (σ ε : Type) where
  controller : StreamController (List UInt8) ε
  subscription : Option Subscription
  context : σ
  /-- What the cipher has been called for. -/
  calls : List (CipherCall ε)

inductive Event (ε : Type) where
  | source (e : StreamEvent (List ℤ) ε)
  | listener (e : ListenerEvent)

/-- `Uint8List.fromList`, which leaves bytes as they are. -/
def toUint8List (chunk : List ℤ) : List UInt8 := chunk.map UInt8.ofInt

section
variable {σ ε : Type} (cipher : AesCtrFfiCipher σ ε)

def State.called (s : State σ ε) (call : CipherCall ε) : State σ ε := { s with calls := s.calls ++ [call] }

def State.dispose (s : State σ ε) : State σ ε := s.called .dispose

def State.onSubscription (s : State σ ε) (f : Subscription → Subscription) : State σ ε :=
  { s with subscription := s.subscription.map f }

def State.cancelSubscription (s : State σ ε) : State σ ε := s.onSubscription fun sub => { sub with canceled := true }

/-- The controller is open where it is added to: neither `add` nor `addError` throws. -/
def State.terminate (s : State σ ε) (error : ε) : State σ ε :=
  if s.controller.isClosed then s
  else
    let s := s.dispose.cancelSubscription
    { s with controller := (s.controller.send (.error error)).close }

def State.onData (s : State σ ε) (chunk : List ℤ) : State σ ε :=
  if s.controller.isClosed then s
  else
    match cipher.update s.context (toUint8List chunk) with
    | .ok (output, context) =>
      { s.called (.update (.ok output)) with controller := s.controller.send (.data output), context }
    | .error e => (s.called (.update (.error e))).terminate e

def State.onDone (s : State σ ε) : State σ ε :=
  let s := s.dispose
  { s with controller := s.controller.close }

/-- The source's event, as the subscription hands it on. -/
def State.onSource (s : State σ ε) : StreamEvent (List ℤ) ε → State σ ε
  | .data chunk => s.onData cipher chunk
  | .error e => s.terminate e
  | .done => (s.onSubscription fun sub => { sub with done := true }).onDone

def State.callback (s : State σ ε) : Callback → State σ ε
  | .onListen => { s with subscription := some ⟨0, false, false⟩ }
  | .onPause => s.onSubscription fun sub => { sub with pauses := sub.pauses + 1 }
  | .onResume => s.onSubscription fun sub => { sub with pauses := sub.pauses - 1 }
  | .onCancel => s.dispose.cancelSubscription

/-- A subscription that is canceled, done or paused has no events. -/
def Subscription.listening (sub : Subscription) : Bool := !sub.canceled && !sub.done && sub.pauses == 0

def step (s : State σ ε) : Event ε → Option (State σ ε)
  | .source e =>
    match s.subscription with
    | none => none
    | some sub => if sub.listening then some (s.onSource cipher e) else none
  | .listener e => do
    let (controller, called) ← s.controller.turn e
    let s := { s with controller }
    return called.elim s s.callback

def machine : Machine (State σ ε) (Event ε) := ⟨step cipher⟩

/-- The stream that `_ffiTransform` returns, before it is listened to. -/
def ffiTransform (context : σ) : State σ ε := ⟨StreamController.new, none, context, []⟩

/-- The chunks that the source has delivered. -/
def chunks (es : List (Event ε)) : List (List ℤ) :=
  es.filterMap fun e =>
    match e with
    | .source (.data chunk) => some chunk
    | _ => none

/-- The cipher's output for chunks, one after the other, where it throws at none. -/
def updates : σ → List (List ℤ) → Except ε (List (List UInt8) × σ)
  | context, [] => .ok ([], context)
  | context, chunk :: chunks => do
    let (output, context) ← cipher.update context (toUint8List chunk)
    let (outputs, context) ← updates context chunks
    return (output :: outputs, context)

theorem updates_cons {context mid next : σ} {c : List ℤ} {cs : List (List ℤ)} {output : List UInt8}
    {outputs : List (List UInt8)} (hu : cipher.update context (toUint8List c) = .ok (output, mid))
    (h : updates cipher mid cs = .ok (outputs, next)) :
    updates cipher context (c :: cs) = .ok (output :: outputs, next) := by
  simp only [updates, hu, ok_bind, h]
  rfl

/-- The cipher's output for one more chunk. -/
theorem updates_concat {context context' next : σ} {cs : List (List ℤ)} {outputs : List (List UInt8)} {chunk : List ℤ}
    {output : List UInt8} (h : updates cipher context cs = .ok (outputs, context'))
    (hu : cipher.update context' (toUint8List chunk) = .ok (output, next)) :
    updates cipher context (cs ++ [chunk]) = .ok (outputs ++ [output], next) := by
  induction cs generalizing context outputs with
  | nil =>
    obtain ⟨rfl, rfl⟩ := Prod.mk.inj (Except.ok.inj h)
    exact updates_cons cipher hu rfl
  | cons c cs ih =>
    obtain ⟨⟨o, mid⟩, ho, h⟩ := bind_eq_ok.mp h
    obtain ⟨⟨os, last⟩, hos, h⟩ := bind_eq_ok.mp h
    obtain ⟨rfl, rfl⟩ := Prod.mk.inj (Except.ok.inj h)
    exact updates_cons cipher ho (ih hos)

theorem updates_take {context context' : σ} {cs : List (List ℤ)} {outputs : List (List UInt8)}
    (h : updates cipher context cs = .ok (outputs, context')) (n : ℕ) :
    ∃ next, updates cipher context (cs.take n) = .ok (outputs.take n, next) := by
  induction cs generalizing context outputs n with
  | nil =>
    obtain ⟨rfl, rfl⟩ := Prod.mk.inj (Except.ok.inj h)
    exact ⟨context, by rw [List.take_nil, List.take_nil]; rfl⟩
  | cons c cs ih =>
    obtain ⟨⟨o, mid⟩, ho, h⟩ := bind_eq_ok.mp h
    obtain ⟨⟨os, last⟩, hos, h⟩ := bind_eq_ok.mp h
    obtain ⟨rfl, rfl⟩ := Prod.mk.inj (Except.ok.inj h)
    cases n with
    | zero => exact ⟨context, rfl⟩
    | succ n =>
      obtain ⟨next, hnext⟩ := ih hos n
      exact ⟨next, updates_cons cipher ho hnext⟩

end

/-! How far the stream is -/

inductive Phase (ε : Type) where
  | running
  | ended
  | failed (e : ε)

/-- What comes after the chunks. -/
def Phase.tail {ε : Type} : Phase ε → List (StreamEvent (List UInt8) ε)
  | .running => []
  | .ended => [.done]
  | .failed e => [.error e, .done]

def NeverUsedAfterDispose {ε : Type} (calls : List (CipherCall ε)) : Prop :=
  ∀ pre result post, calls = pre ++ .update result :: post → .dispose ∉ pre

section
variable {ε : Type} {calls : List (CipherCall ε)}

theorem NeverUsedAfterDispose.dispose (h : NeverUsedAfterDispose calls) :
    NeverUsedAfterDispose (calls ++ [.dispose]) := by
  intro pre result post heq
  rcases List.eq_nil_or_concat post with rfl | ⟨post, x, rfl⟩
  · obtain ⟨-, hlast⟩ := List.append_inj' heq rfl
    cases hlast
  · rw [List.concat_eq_append, ← List.cons_append, ← List.append_assoc] at heq
    exact h pre result post (List.append_inj' heq rfl).1

theorem NeverUsedAfterDispose.update (h : NeverUsedAfterDispose calls) (hd : .dispose ∉ calls)
    (result : Except ε (List UInt8)) : NeverUsedAfterDispose (calls ++ [.update result]) := by
  intro pre result' post heq
  rcases List.eq_nil_or_concat post with rfl | ⟨post, x, rfl⟩
  · obtain ⟨rfl, -⟩ := List.append_inj' heq rfl
    exact hd
  · rw [List.concat_eq_append, ← List.cons_append, ← List.append_assoc] at heq
    exact h pre result' post (List.append_inj' heq rfl).1

end

section
variable {σ ε : Type}

/-- What is kept of a stream that began in `context`: what its controller has been given, and what it holds. -/
structure Kept (cipher : AesCtrFfiCipher σ ε) (context : σ) (es : List (Event ε)) (s : State σ ε) (phase : Phase ε)
    (outputs : List (List UInt8)) : Prop where
  carries : s.controller.Carries (outputs.map .data ++ phase.tail)
  isClosed : s.controller.isClosed = true ↔ phase ≠ .running
  updated : ∃ cs next, cs <+: chunks es ∧ updates cipher context cs = .ok (outputs, next) ∧
    ((∀ e, phase ≠ .failed e) → cs = chunks es) ∧ (phase = .running → next = s.context)
  listened : s.controller.listener = .initial ↔ s.subscription = none
  started : phase ≠ .running → s.subscription ≠ none
  live : ∀ sub, s.subscription = some sub →
    (sub.canceled = false ∧ sub.done = false ↔ phase = .running ∧ s.controller.listener ≠ .canceled)
  disposed : .dispose ∈ s.calls ↔ phase ≠ .running ∨ s.controller.listener = .canceled
  used : NeverUsedAfterDispose s.calls
  sourceDone : .source .done ∈ es → phase = .ended
  sourceError : ∀ e, .source (.error e) ∈ es → ∃ e', phase = .failed e'
  threw : ∀ e, .update (.error e) ∈ s.calls → ∃ e', phase = .failed e'
  whole : .listener .cancel ∉ es → (∀ e, phase ≠ .failed e) → s.controller.stream = outputs.map .data ++ phase.tail
  canceled : .listener .cancel ∈ es → s.controller.listener = .canceled

variable {cipher : AesCtrFfiCipher σ ε} {context : σ} {es : List (Event ε)} {s t : State σ ε} {phase : Phase ε}
  {outputs : List (List UInt8)}

theorem kept_start (cipher : AesCtrFfiCipher σ ε) (context : σ) :
    Kept cipher context [] (ffiTransform context) .running [] where
  carries := StreamController.carries_new
  isClosed := ⟨nofun, fun h => absurd rfl h⟩
  updated := ⟨[], context, List.prefix_refl [], rfl, fun _ => rfl, fun _ => rfl⟩
  listened := ⟨fun _ => rfl, fun _ => rfl⟩
  started h := absurd rfl h
  live := nofun
  disposed := ⟨nofun, by rintro (h | h); exacts [absurd rfl h, nomatch h]⟩
  used pre result post h := by cases pre <;> cases h
  sourceDone := nofun
  sourceError := nofun
  threw := nofun
  whole _ _ := rfl
  canceled := nofun

/-! The source's events -/

/-- The subscription has an event: nothing has ended yet. -/
theorem Kept.of_listening (h : Kept cipher context es s phase outputs) {sub : Subscription}
    (hsub : s.subscription = some sub) (hl : sub.listening = true) :
    phase = .running ∧ s.controller.listener = .subscribed := by
  simp only [Subscription.listening, Bool.and_eq_true, Bool.not_eq_true'] at hl
  obtain ⟨hrunning, hcanceled⟩ := (h.live sub hsub).mp hl.1
  refine ⟨hrunning, ?_⟩
  cases hc : s.controller.listener with
  | initial =>
    rw [h.listened.mp hc] at hsub
    cases hsub
  | subscribed => rfl
  | canceled => exact absurd hc hcanceled

theorem chunks_append (es : List (Event ε)) (e : Event ε) : chunks (es ++ [e]) = chunks es ++ chunks [e] :=
  List.filterMap_append

theorem mem_of_concat {α : Type*} {xs : List α} {x y : α} (h : x ∈ xs ++ [y]) (hne : x ≠ y) : x ∈ xs := by
  rcases List.mem_append.mp h with hmem | hmem
  · exact hmem
  · exact absurd (List.mem_singleton.mp hmem) hne

/-- What is known while the subscription has events. -/
structure Kept.Live (cipher : AesCtrFfiCipher σ ε) (context : σ) (es : List (Event ε)) (s : State σ ε)
    (outputs : List (List UInt8)) : Prop where
  kept : Kept cipher context es s .running outputs
  subscribed : s.controller.listener = .subscribed

section
variable (h : Kept.Live cipher context es s outputs)
include h

theorem Kept.Live.isOpen : s.controller.isClosed = false := by
  rw [← Bool.not_eq_true]
  exact fun hclosed => h.kept.isClosed.mp hclosed rfl

theorem Kept.Live.not_disposed : .dispose ∉ s.calls := by
  intro hmem
  rcases h.kept.disposed.mp hmem with hne | hcanceled
  · exact hne rfl
  · rw [h.subscribed] at hcanceled
    cases hcanceled

theorem Kept.Live.updates : AesCtrTransformer.updates cipher context (chunks es) = .ok (outputs, s.context) := by
  obtain ⟨cs, next, -, hupdates, hall, hcontext⟩ := h.kept.updated
  obtain rfl := hall nofun
  obtain rfl := hcontext rfl
  exact hupdates

theorem Kept.Live.not_canceled : .listener .cancel ∉ es := by
  intro hmem
  have hcanceled := h.kept.canceled hmem
  rw [h.subscribed] at hcanceled
  cases hcanceled

theorem Kept.Live.data {chunk : List ℤ} {output : List UInt8} {next : σ}
    (hu : cipher.update s.context (toUint8List chunk) = .ok (output, next)) :
    Kept cipher context (es ++ [.source (.data chunk)]) (s.onData cipher chunk) .running (outputs ++ [output]) := by
  have hk := h.kept
  have hdata : s.onData cipher chunk =
      { s.called (.update (.ok output)) with controller := s.controller.send (.data output), context := next } := by
    rw [State.onData, h.isOpen, hu]
    rfl
  have hadded : (outputs ++ [output]).map StreamEvent.data ++ (Phase.running (ε := ε)).tail =
      outputs.map StreamEvent.data ++ Phase.running.tail ++ [StreamEvent.data output] := by
    simp [Phase.tail]
  have hlistener : (s.controller.send (.data output)).listener = s.controller.listener :=
    StreamController.send_listener _ _
  have hclosed : (s.controller.send (.data output)).isClosed = s.controller.isClosed :=
    StreamController.send_isClosed _ _
  rw [hdata]
  constructor
  case carries => exact hadded ▸ hk.carries.send _
  case isClosed => exact hclosed ▸ hk.isClosed
  case updated =>
    refine ⟨chunks es ++ [chunk], next, ?_, updates_concat cipher h.updates hu, fun _ => ?_, fun _ => rfl⟩
    · rw [chunks_append]
      exact List.prefix_refl _
    · rw [chunks_append]
      rfl
  case listened => exact hlistener ▸ hk.listened
  case started => exact fun hne => absurd rfl hne
  case live =>
    intro sub hsub
    exact hlistener ▸ hk.live sub hsub
  case disposed =>
    constructor
    · intro hmem
      exact absurd (mem_of_concat hmem nofun) h.not_disposed
    · intro hd
      exact List.mem_append_left _ (hk.disposed.mpr (hlistener ▸ hd))
  case used => exact hk.used.update h.not_disposed _
  case sourceDone => exact fun hmem => hk.sourceDone (mem_of_concat hmem nofun)
  case sourceError => exact fun e hmem => hk.sourceError e (mem_of_concat hmem nofun)
  case threw => exact fun e hmem => hk.threw e (mem_of_concat hmem nofun)
  case whole => exact fun _ _ => hadded ▸ hk.carries.stream_send h.subscribed _
  case canceled => exact fun hmem => absurd (mem_of_concat hmem nofun) h.not_canceled

/-- A step that closes the controller, disposes of the cipher and leaves the source. -/
theorem Kept.Live.closed {phase : Phase ε} {ev : Event ε} {calls : List (CipherCall ε)} (hphase : phase ≠ .running)
    (hcarries : t.controller.Carries (outputs.map .data ++ phase.tail)) (hclosed : t.controller.isClosed = true)
    (hlistener : t.controller.listener = .subscribed)
    (hsub : ∃ sub, t.subscription = some sub ∧ ¬(sub.canceled = false ∧ sub.done = false))
    (hcalls : t.calls = calls ++ [.dispose])
    (hbefore : calls = s.calls ∨ ∃ e, calls = s.calls ++ [.update (.error e)] ∧ phase = .failed e)
    (hchunks : (∀ e, phase ≠ .failed e) → chunks [ev] = []) (hdone : ev = .source .done → phase = .ended)
    (herror : ∀ e, ev = .source (.error e) → ∃ e', phase = .failed e') (hcancel : ev ≠ .listener .cancel) :
    Kept cipher context (es ++ [ev]) t phase outputs := by
  have hk := h.kept
  obtain ⟨sub, hsub, hended⟩ := hsub
  constructor
  case carries => exact hcarries
  case isClosed => exact ⟨fun _ => hphase, fun _ => hclosed⟩
  case updated =>
    refine ⟨chunks es, s.context, ?_, h.updates, fun hnot => ?_, fun hr => absurd hr hphase⟩
    · rw [chunks_append]
      exact List.prefix_append _ _
    · rw [chunks_append, hchunks hnot, List.append_nil]
  case listened =>
    rw [hlistener, hsub]
    exact ⟨nofun, nofun⟩
  case started =>
    rw [hsub]
    exact fun _ => nofun
  case live =>
    intro sub' hsub'
    obtain rfl := Option.some.inj (hsub.symm.trans hsub')
    exact ⟨fun hl => absurd hl hended, fun hr => absurd hr.1 hphase⟩
  case disposed =>
    rw [hcalls]
    exact ⟨fun _ => Or.inl hphase, fun _ => List.mem_append_right _ List.mem_cons_self⟩
  case used =>
    rw [hcalls]
    rcases hbefore with rfl | ⟨e, rfl, -⟩
    · exact hk.used.dispose
    · exact (hk.used.update h.not_disposed _).dispose
  case sourceDone =>
    intro hmem
    rcases List.mem_append.mp hmem with hes | hev
    · cases hk.sourceDone hes
    · exact hdone (List.mem_singleton.mp hev).symm
  case sourceError =>
    intro e hmem
    rcases List.mem_append.mp hmem with hes | hev
    · obtain ⟨e', he'⟩ := hk.sourceError e hes
      cases he'
    · exact herror e (List.mem_singleton.mp hev).symm
  case threw =>
    intro e hmem
    rw [hcalls] at hmem
    have hmem := mem_of_concat hmem nofun
    rcases hbefore with rfl | ⟨e', rfl, hfailed⟩
    · obtain ⟨e', he'⟩ := hk.threw e hmem
      cases he'
    · exact ⟨e', hfailed⟩
  case whole =>
    intro _ _
    exact (hcarries.whole (by rw [hlistener]; nofun)).2
  case canceled => exact fun hmem => absurd (mem_of_concat hmem hcancel.symm) h.not_canceled

/-- `terminate`, on an error of the source's or of the cipher's. -/
theorem Kept.Live.terminate {sub : Subscription} (hsub : s.subscription = some sub) {calls : List (CipherCall ε)} {e : ε}
    {ev : Event ε} (hcalls : calls = s.calls ∨ calls = s.calls ++ [.update (.error e)])
    (hev : ev = .source (.error e) ∨ ∃ chunk, ev = .source (.data chunk)) :
    Kept cipher context (es ++ [ev]) (({ s with calls } : State σ ε).terminate e) (.failed e) outputs := by
  have hopen := h.isOpen
  have hsent : (s.controller.send (.error e)).isClosed = false := by rw [StreamController.send_isClosed, hopen]
  have hcarries := (h.kept.carries.send (.error e)).close hsent
  have hterminate : ({ s with calls } : State σ ε).terminate e =
      { controller := (s.controller.send (.error e)).close, subscription := some { sub with canceled := true },
        context := s.context, calls := calls ++ [.dispose] } := by
    rw [State.terminate, if_neg (by rw [hopen]; exact Bool.false_ne_true)]
    simp only [State.cancelSubscription, State.onSubscription, State.dispose, State.called, hsub, Option.map_some]
  have hphase : Phase.failed e ≠ .running := nofun
  rw [hterminate]
  apply h.closed hphase
  · simpa only [Phase.tail, List.append_nil, List.append_assoc, List.singleton_append] using hcarries
  · exact StreamController.close_isClosed _
  · rw [StreamController.close_listener, StreamController.send_listener, h.subscribed]
  · exact ⟨_, rfl, fun hnot => nomatch hnot.1⟩
  · rfl
  · rcases hcalls with rfl | rfl
    · exact Or.inl rfl
    · exact Or.inr ⟨e, rfl, rfl⟩
  · exact fun hnot => absurd rfl (hnot e)
  · rcases hev with rfl | ⟨chunk, rfl⟩
    · nofun
    · nofun
  · exact fun _ _ => ⟨e, rfl⟩
  · rcases hev with rfl | ⟨chunk, rfl⟩
    · nofun
    · nofun

theorem Kept.Live.done {sub : Subscription} (hsub : s.subscription = some sub) :
    Kept cipher context (es ++ [.source .done]) (s.onSource cipher .done) .ended outputs := by
  have hcarries := h.kept.carries.close h.isOpen
  have hdone : s.onSource cipher .done =
      { controller := s.controller.close, subscription := some { sub with done := true }, context := s.context,
        calls := s.calls ++ [.dispose] } := by
    simp only [State.onSource, State.onDone, State.onSubscription, State.dispose, State.called, hsub, Option.map_some]
  have hphase : Phase.ended ≠ (.running : Phase ε) := nofun
  rw [hdone]
  apply h.closed hphase
  · simpa only [Phase.tail, List.append_nil] using hcarries
  · exact StreamController.close_isClosed _
  · rw [StreamController.close_listener, h.subscribed]
  · exact ⟨_, rfl, fun hnot => nomatch hnot.2⟩
  · rfl
  · exact Or.inl rfl
  · exact fun _ => rfl
  · exact fun _ => rfl
  · nofun
  · nofun

end

theorem Kept.source (h : Kept cipher context es s phase outputs) {ev : StreamEvent (List ℤ) ε}
    (hstep : step cipher s (.source ev) = some t) :
    ∃ phase outputs, Kept cipher context (es ++ [.source ev]) t phase outputs := by
  unfold step at hstep
  simp only at hstep
  split at hstep
  · cases hstep
  · rename_i sub hsub
    obtain ⟨hlistening, rfl⟩ := of_guarded hstep
    -- a subscription that still has events is one of a running transformation
    obtain ⟨rfl, hsubscribed⟩ := h.of_listening hsub hlistening
    have hlive : Kept.Live cipher context es s outputs := ⟨h, hsubscribed⟩
    cases ev with
    | data chunk =>
      cases hu : cipher.update s.context (toUint8List chunk) with
      | ok result =>
        obtain ⟨output, next⟩ := result
        exact ⟨.running, outputs ++ [output], hlive.data hu⟩
      | error e =>
        have hfails : s.onSource cipher (.data chunk) = (s.called (.update (.error e))).terminate e := by
          rw [State.onSource, State.onData, hlive.isOpen, hu]
          rfl
        rw [hfails]
        exact ⟨.failed e, outputs, hlive.terminate hsub (Or.inr rfl) (Or.inr ⟨chunk, rfl⟩)⟩
    | error e => exact ⟨.failed e, outputs, hlive.terminate hsub (Or.inl rfl) (Or.inl rfl)⟩
    | done => exact ⟨.ended, outputs, hlive.done hsub⟩

/-! The listener's events -/

theorem Phase.error_not_mem {phase : Phase ε} (hphase : ∀ e, phase ≠ .failed e) (outputs : List (List UInt8)) (e : ε) :
    .error e ∉ outputs.map .data ++ phase.tail := by
  cases phase with
  | running => simp [tail]
  | ended => simp [tail]
  | failed e => exact absurd rfl (hphase e)

theorem Phase.nothing_after_done (phase : Phase ε) {outputs : List (List UInt8)}
    {pre post : List (StreamEvent (List UInt8) ε)} (h : outputs.map .data ++ phase.tail = pre ++ .done :: post) :
    post = [] := by
  rcases List.eq_nil_or_concat post with rfl | ⟨post, x, rfl⟩
  · rfl
  · -- a done event with more behind it is not the last one, and only the last one can be done
    have hmem : StreamEvent.done ∈ (outputs.map StreamEvent.data ++ phase.tail).dropLast := by
      rw [h, List.concat_eq_append, ← List.cons_append, ← List.append_assoc, List.dropLast_concat]
      exact List.mem_append_right pre List.mem_cons_self
    cases phase with
    | running =>
      rw [tail, List.append_nil] at hmem
      simpa using List.dropLast_subset _ hmem
    | ended => simp [tail] at hmem
    | failed e => simp [tail, List.dropLast_append_of_ne_nil] at hmem

/-- What a turn of the listener's leaves, whatever its callback does to the cipher and the subscription. -/
theorem Kept.turned (h : Kept cipher context es s phase outputs) {ev : ListenerEvent} {called : Option Callback}
    (hturn : s.controller.turn ev = some (t.controller, called)) (hcontext : t.context = s.context)
    (hlistened : t.controller.listener = .initial ↔ t.subscription = none)
    (hstarted : phase ≠ .running → t.subscription ≠ none)
    (hlive : ∀ sub, t.subscription = some sub →
      (sub.canceled = false ∧ sub.done = false ↔ phase = .running ∧ t.controller.listener ≠ .canceled))
    (hdisposed : .dispose ∈ t.calls ↔ phase ≠ .running ∨ t.controller.listener = .canceled)
    (hcalls : t.calls = s.calls ∨ t.calls = s.calls ++ [.dispose]) :
    Kept cipher context (es ++ [.listener ev]) t phase outputs := by
  have hturned := StreamController.turn_turned hturn
  have hchunks : chunks (es ++ [.listener ev]) = chunks es := by
    rw [chunks_append]
    exact List.append_nil _
  obtain ⟨cs, next, hcs, hupdates, hall, hnext⟩ := h.updated
  constructor
  case carries => exact h.carries.turn hturn
  case isClosed => exact hturned.isClosed ▸ h.isClosed
  case updated => exact ⟨cs, next, hchunks ▸ hcs, hupdates, fun hnot => hchunks ▸ hall hnot, fun hr => hcontext ▸ hnext hr⟩
  case listened => exact hlistened
  case started => exact hstarted
  case live => exact hlive
  case disposed => exact hdisposed
  case used =>
    rcases hcalls with hcalls | hcalls
    · exact hcalls ▸ h.used
    · exact hcalls ▸ h.used.dispose
  case sourceDone => exact fun hmem => h.sourceDone (mem_of_concat hmem nofun)
  case sourceError => exact fun e hmem => h.sourceError e (mem_of_concat hmem nofun)
  case threw =>
    intro e hmem
    rcases hcalls with hcalls | hcalls
    · exact h.threw e (hcalls ▸ hmem)
    · rw [hcalls] at hmem
      exact h.threw e (mem_of_concat hmem nofun)
  case whole =>
    intro hcancel hphase
    have hev : ev ≠ .cancel := by
      rintro rfl
      exact hcancel (List.mem_append_right es List.mem_cons_self)
    have hbefore := h.whole (fun hmem => hcancel (List.mem_append_left _ hmem)) hphase
    rw [h.carries.stream_turn hturn hev (Phase.error_not_mem hphase outputs) fun _ _ => phase.nothing_after_done]
    exact hbefore
  case canceled =>
    intro hmem
    rcases List.mem_append.mp hmem with hes | hev
    · have hcanceled := h.canceled hes
      rcases hturned.listener with ⟨-, hinitial, -⟩ | ⟨-, hsubscribed, -⟩ | ⟨-, hsame⟩
      · rw [hinitial] at hcanceled
        cases hcanceled
      · rw [hsubscribed] at hcanceled
        cases hcanceled
      · rw [hsame]
        exact hcanceled
    · have heq := List.mem_singleton.mp hev
      injection heq with heq
      exact hturned.cancel heq.symm

theorem Kept.listener (h : Kept cipher context es s phase outputs) {ev : ListenerEvent}
    (hstep : step cipher s (.listener ev) = some t) :
    Kept cipher context (es ++ [.listener ev]) t phase outputs ∧
      ∃ called, s.controller.turn ev = some (t.controller, called) := by
  obtain ⟨⟨c, called⟩, hturn, hstep⟩ := Option.bind_eq_some_iff.mp hstep
  have ht : called.elim { s with controller := c } (State.callback { s with controller := c }) = t := Option.some.inj hstep
  have hturned := StreamController.turn_turned hturn
  have hcontroller : t.controller = c := by
    rw [← ht]
    cases called with
    | none => rfl
    | some called => cases called <;> rfl
  have hcontext : t.context = s.context := by
    rw [← ht]
    cases called with
    | none => rfl
    | some called => cases called <;> rfl
  rw [← hcontroller] at hturn hturned
  refine ⟨?_, called, hturn⟩
  rcases hturned.listener with ⟨rfl, hinitial, hsubscribed⟩ | ⟨rfl, hsubscribed, hcanceled⟩ | ⟨hcalled, hsame⟩
  · -- nothing has come before the stream is listened to
    have hrunning : phase = .running := by
      by_contra hne
      exact h.started hne (h.listened.mp hinitial)
    have hsub : t.subscription = some ⟨0, false, false⟩ := by rw [← ht]; rfl
    have hcalls : t.calls = s.calls := by rw [← ht]; rfl
    apply h.turned hturn hcontext
    · rw [hsubscribed, hsub]
      exact ⟨nofun, nofun⟩
    · exact fun hne => absurd hrunning hne
    · intro sub hsub'
      obtain rfl := Option.some.inj (hsub.symm.trans hsub')
      rw [hsubscribed]
      exact ⟨fun _ => ⟨hrunning, nofun⟩, fun _ => ⟨rfl, rfl⟩⟩
    · rw [hcalls, h.disposed, hinitial, hsubscribed]
      exact or_congr_right ⟨nofun, nofun⟩
    · exact Or.inl hcalls
  · have hcalls : t.calls = s.calls ++ [.dispose] := by rw [← ht]; rfl
    obtain ⟨sub, hsub⟩ : ∃ sub, s.subscription = some sub := by
      rw [← Option.ne_none_iff_exists']
      intro hnone
      rw [h.listened.mpr hnone] at hsubscribed
      cases hsubscribed
    have hsub' : t.subscription = some { sub with canceled := true } := by
      have hmap : t.subscription = s.subscription.map fun sub => { sub with canceled := true } := by
        rw [← ht]
        rfl
      rw [hmap, hsub, Option.map_some]
    apply h.turned hturn hcontext
    · rw [hcanceled, hsub']
      exact ⟨nofun, nofun⟩
    · rw [hsub']
      exact fun _ => nofun
    · intro x hx
      obtain rfl := Option.some.inj (hsub'.symm.trans hx)
      constructor
      · exact fun hl => nomatch hl.1
      · exact fun hr => absurd hcanceled hr.2
    · rw [hcalls]
      exact ⟨fun _ => Or.inr hcanceled, fun _ => List.mem_append_right _ List.mem_cons_self⟩
    · exact Or.inr hcalls
  · have hcalls : t.calls = s.calls := by
      rw [← ht]
      rcases hcalled with rfl | rfl | rfl <;> rfl
    have hsub : ∃ f : Subscription → Subscription, t.subscription = s.subscription.map f ∧
        ∀ sub, (f sub).canceled = sub.canceled ∧ (f sub).done = sub.done := by
      rw [← ht]
      rcases hcalled with rfl | rfl | rfl
      · exact ⟨id, Option.map_id.symm ▸ rfl, fun _ => ⟨rfl, rfl⟩⟩
      · exact ⟨_, rfl, fun _ => ⟨rfl, rfl⟩⟩
      · exact ⟨_, rfl, fun _ => ⟨rfl, rfl⟩⟩
    obtain ⟨f, hf, hkept⟩ := hsub
    apply h.turned hturn hcontext
    · rw [hsame, hf, Option.map_eq_none_iff]
      exact h.listened
    · rw [hf]
      exact fun hne hnone => h.started hne (Option.map_eq_none_iff.mp hnone)
    · intro sub' hsub'
      obtain ⟨sub, hsub, rfl⟩ := Option.map_eq_some_iff.mp (hf.symm.trans hsub')
      rw [hsame, (hkept sub).1, (hkept sub).2]
      exact h.live sub hsub
    · rw [hcalls, hsame]
      exact h.disposed
    · exact Or.inl hcalls

/-! Whole runs -/

/-- What the listener does to take what there is. -/
def Takes (e : Event ε) : Prop := e = .listener .resume ∨ e = .listener .take ∨ e = .listener .cancelDone

/-- What the source has ended with comes to a listener that doesn't cancel. -/
theorem Kept.drains (h : Kept cipher context es s .ended outputs) (hcancel : .listener .cancel ∉ es) :
    ∃ more t, (∀ e ∈ more, Takes e) ∧ (machine cipher).run s more = some t ∧
      t.controller.delivered = outputs.map .data ++ [.done] := by
  induction hn : s.controller.remaining using Nat.strong_induction_on generalizing s es with
  | _ n ih =>
    have hwhole := h.whole hcancel nofun
    by_cases hall : s.controller.delivered = s.controller.stream
    · exact ⟨[], s, nofun, rfl, hall.trans hwhole⟩
    · have hlistener : s.controller.listener ≠ .initial := by
        intro hinitial
        exact h.started nofun (h.listened.mp hinitial)
      obtain ⟨ev, c, called, htakes, hturn, hless⟩ := h.carries.progress hlistener hall
      have hstep : ∃ t, step cipher s (.listener ev) = some t :=
        ⟨_, Option.bind_eq_some_iff.mpr ⟨(c, called), hturn, rfl⟩⟩
      obtain ⟨t, ht⟩ := hstep
      obtain ⟨hkept, called', hturn'⟩ := h.listener ht
      have hc : t.controller = c := congrArg Prod.fst (Option.some.inj (hturn'.symm.trans hturn))
      have hnot : .listener .cancel ∉ es ++ [.listener ev] := by
        intro hmem
        apply hcancel (mem_of_concat hmem _)
        rcases htakes with rfl | rfl | rfl <;> nofun
      obtain ⟨more, u, hmore, hrun, hdelivered⟩ := ih _ (hn ▸ hc ▸ hless) hkept hnot rfl
      refine ⟨.listener ev :: more, u, ?_, ?_, hdelivered⟩
      · apply List.forall_mem_cons.mpr ⟨_, hmore⟩
        rcases htakes with rfl | rfl | rfl
        · exact Or.inl rfl
        · exact Or.inr (Or.inl rfl)
        · exact Or.inr (Or.inr rfl)
      · have hmachine : (machine cipher).step s (.listener ev) = some t := ht
        rw [Machine.run_step _ hmachine]
        exact hrun

/-- How the stream keeps to its ends. -/
structure EndsCleanly (cipher : AesCtrFfiCipher σ ε) (context : σ) (es : List (Event ε)) (s : State σ ε) : Prop where
  /-- What has been delivered: the output of the first chunks, then at most an error, then done. -/
  delivered : ∃ cs outputs next tail, cs <+: chunks es ∧ updates cipher context cs = .ok (outputs, next) ∧
    s.controller.delivered = outputs.map .data ++ tail ∧
      (tail = [] ∨ tail = [.done] ∨ ∃ e, tail = [.error e] ∨ tail = [.error e, .done])
  /-- All chunks' output comes where the source is done and the listener hasn't canceled. -/
  complete : .source .done ∈ es → .listener .cancel ∉ es → ∃ outputs next more t,
    updates cipher context (chunks es) = .ok (outputs, next) ∧
      s.controller.delivered <+: outputs.map .data ++ [.done] ∧ (∀ e ∈ more, Takes e) ∧
        (machine cipher).run s more = some t ∧ t.controller.delivered = outputs.map .data ++ [.done]
  used : NeverUsedAfterDispose s.calls
  released : .source .done ∈ es ∨ (∃ e, .source (.error e) ∈ es) ∨ (∃ e, .update (.error e) ∈ s.calls) ∨
    .listener .cancel ∈ es → .dispose ∈ s.calls ∧ ∃ sub, s.subscription = some sub ∧ (sub.canceled ∨ sub.done)

theorem Phase.take_tail (phase : Phase ε) (n : ℕ) : phase.tail.take n = [] ∨ phase.tail.take n = [.done] ∨
    ∃ e, phase.tail.take n = [.error e] ∨ phase.tail.take n = [.error e, .done] := by
  cases phase with
  | running => exact Or.inl List.take_nil
  | ended =>
    cases n with
    | zero => exact Or.inl rfl
    | succ n => exact Or.inr (Or.inl (by simp [tail]))
  | failed e =>
    match n with
    | 0 => exact Or.inl rfl
    | 1 => exact Or.inr (Or.inr ⟨e, Or.inl rfl⟩)
    | n + 2 => exact Or.inr (Or.inr ⟨e, Or.inr (by simp [tail])⟩)

theorem Kept.endsCleanly (h : Kept cipher context es s phase outputs) : EndsCleanly cipher context es s where
  delivered := by
    obtain ⟨cs, next, hcs, hupdates, -, -⟩ := h.updated
    have hprefix : s.controller.delivered <+: outputs.map .data ++ phase.tail :=
      (List.prefix_append _ _).trans h.carries.stream
    have htake := List.prefix_iff_eq_take.mp hprefix
    rw [List.take_append, ← List.map_take] at htake
    obtain ⟨next', hnext'⟩ := updates_take cipher hupdates s.controller.delivered.length
    exact ⟨cs.take _, outputs.take _, next', _, (List.take_prefix _ cs).trans hcs, hnext', htake, phase.take_tail _⟩
  complete hdone hcancel := by
    obtain rfl := h.sourceDone hdone
    obtain ⟨cs, next, -, hupdates, hall, -⟩ := h.updated
    obtain rfl := hall nofun
    obtain ⟨more, t, hmore, hrun, hdelivered⟩ := h.drains hcancel
    exact ⟨outputs, next, more, t, hupdates, (List.prefix_append _ _).trans h.carries.stream, hmore, hrun, hdelivered⟩
  used := h.used
  released hends := by
    -- each of these ends leads out of `running`, or has canceled the listener's end
    have hover : phase ≠ .running ∨ s.controller.listener = .canceled := by
      rcases hends with hdone | ⟨e, herror⟩ | ⟨e, hthrew⟩ | hcancel
      · rw [h.sourceDone hdone]
        exact Or.inl nofun
      · obtain ⟨e', rfl⟩ := h.sourceError e herror
        exact Or.inl nofun
      · obtain ⟨e', rfl⟩ := h.threw e hthrew
        exact Or.inl nofun
      · exact Or.inr (h.canceled hcancel)
    refine ⟨h.disposed.mpr hover, ?_⟩
    cases hsub : s.subscription with
    | none =>
      have hinitial := h.listened.mpr hsub
      rcases hover with hne | hcanceled
      · exact absurd hsub (h.started hne)
      · rw [hinitial] at hcanceled
        cases hcanceled
    | some sub =>
      refine ⟨sub, rfl, ?_⟩
      by_contra hnot
      obtain ⟨hcanceled, hdone⟩ := not_or.mp hnot
      obtain ⟨hrunning, hlistening⟩ := (h.live sub hsub).mp ⟨Bool.not_eq_true _ ▸ hcanceled, Bool.not_eq_true _ ▸ hdone⟩
      rcases hover with hne | hover
      · exact hne hrunning
      · exact hlistening hover

theorem kept_run (hr : (machine cipher).run (ffiTransform context) es = some s) :
    ∃ phase outputs, Kept cipher context es s phase outputs := by
  refine (machine cipher).run_induction (I := fun es s => ∃ phase outputs, Kept cipher context es s phase outputs)
    ⟨.running, [], kept_start cipher context⟩ (fun es e u v _ hu hstep => ?_) hr
  obtain ⟨phase, outputs, hk⟩ := hu
  cases e with
  | source ev => exact hk.source hstep
  | listener ev => exact ⟨phase, outputs, (hk.listener hstep).1⟩

/-- Whatever the source brings, at whatever chunk the cipher throws and whatever the listener does in between. -/
theorem ffiTransform_endsCleanly (hr : (machine cipher).run (ffiTransform context) es = some s) :
    EndsCleanly cipher context es s := by
  obtain ⟨phase, outputs, hk⟩ := kept_run hr
  exact hk.endsCleanly

end

/-- A cipher whose keystream is the position, that throws at an empty chunk. -/
def sampleCipher : AesCtrFfiCipher ℕ String where
  update pos chunk :=
    if chunk.isEmpty then .error "OpenSSL error"
    else .ok (chunk.mapIdx fun i b => b ^^^ UInt8.ofNat (pos + i), pos + chunk.length)

/-- The second chunk fails while the first still waits for the listener, which pauses. -/
def sampleRun : List (Event String) :=
  [.listener (.listen false), .source (.data [104, 105]), .source (.data []), .listener .pause, .listener .resume,
    .listener .take, .listener .take, .listener .take, .listener .cancelDone]

theorem ffiTransform_endsCleanly_sample : ∃ s, (machine sampleCipher).run (ffiTransform 0) sampleRun = some s ∧
    s.controller.delivered = [.data [104, 104], .error "OpenSSL error", .done] ∧
      EndsCleanly sampleCipher 0 sampleRun s := by
  refine ⟨_, rfl, rfl, ?_⟩
  exact ffiTransform_endsCleanly rfl

end NoPorts.AesCtrTransformer
