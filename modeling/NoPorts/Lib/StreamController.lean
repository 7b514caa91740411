import Mathlib.Data.List.Basic

/-! The controller of a stream that is listened to once, and its listener's end: what is added waits until
the listener takes it, an event at a time. A listener pauses and cancels when it likes. -/
namespace NoPorts.Lib

inductive StreamEvent (α ε : Type*) where
  | data (a : α)
  | error (e : ε)
  | done
  deriving DecidableEq, Repr

/-- What a controller calls of its owner. -/
inductive Callback where
  | onListen
  | onPause
  | onResume
  | onCancel
  deriving DecidableEq, Repr

inductive Listening where
  | initial
  | subscribed
  | canceled
  deriving DecidableEq, Repr

structure StreamController (α ε : Type*) where
  listener : Listening
  /-- An error cancels the listener's subscription. -/
  cancelOnError : Bool
  isClosed : Bool
  pending : List (StreamEvent α ε)
  /-- How often the listener has paused and not resumed. -/
  pauses : ℕ
  /-- The owner has been told to pause. -/
  inputPaused : Bool
  /-- The event that comes once the cancelling it has begun is over. -/
  awaited : Option (StreamEvent α ε)
  delivered : List (StreamEvent α ε)
  deriving DecidableEq, Repr

inductive ListenerEvent where
  | listen (cancelOnError : Bool)
  | pause
  | resume
  | cancel
  /-- The next event is delivered. -/
  | take
  /-- What `onCancel` has returned is done. -/
  | cancelDone
  deriving DecidableEq, Repr

namespace StreamController
variable {α ε : Type*}

def new : StreamController α ε := ⟨.initial, false, false, [], 0, false, none, []⟩

/-- What is added to a canceled controller is dropped. -/
def send (c : StreamController α ε) (e : StreamEvent α ε) : StreamController α ε :=
  match c.listener with
  | .canceled => c
  | _ => { c with pending := c.pending ++ [e] }

def close (c : StreamController α ε) : StreamController α ε :=
  if c.isClosed then c else { c.send .done with isClosed := true }

/-- `e` is delivered once the cancelling is over, `rest` never. -/
def cancelFor (c : StreamController α ε) (e : StreamEvent α ε) : StreamController α ε × Option Callback :=
  ({ c with listener := .canceled, pending := [], awaited := some e }, some .onCancel)

/-- The owner may go on once nothing is left of what came before the pause. -/
def pass (c : StreamController α ε) (e : StreamEvent α ε) (rest : List (StreamEvent α ε)) :
    StreamController α ε × Option Callback :=
  let c := { c with pending := rest, delivered := c.delivered ++ [e] }
  if rest.isEmpty && c.inputPaused then ({ c with inputPaused := false }, some .onResume) else (c, none)

def dispatch (c : StreamController α ε) (e : StreamEvent α ε) (rest : List (StreamEvent α ε)) :
    StreamController α ε × Option Callback :=
  match e with
  | .data _ => c.pass e rest
  | .error _ => if c.cancelOnError then c.cancelFor e else c.pass e rest
  | .done => c.cancelFor e

/-- The listener's end, with what the owner is called for. -/
def turn (c : StreamController α ε) : ListenerEvent → Option (StreamController α ε × Option Callback)
  | .listen cancelOnError =>
    match c.listener with
    | .initial => some ({ c with listener := .subscribed, cancelOnError }, some .onListen)
    | _ => none
  | .pause =>
    match c.listener with
    | .initial => none
    | .subscribed =>
      some ({ c with pauses := c.pauses + 1, inputPaused := true }, if c.inputPaused then none else some .onPause)
    | .canceled => some (c, none)
  | .resume =>
    match c.listener with
    | .initial => none
    | .subscribed =>
      if c.pauses = 1 ∧ c.pending.isEmpty then
        some ({ c with pauses := 0, inputPaused := false }, some .onResume)
      else some ({ c with pauses := c.pauses - 1 }, none)
    | .canceled => some (c, none)
  | .cancel =>
    match c.listener with
    | .initial => none
    | .subscribed => some ({ c with listener := .canceled, pending := [], awaited := none }, some .onCancel)
    | .canceled => some ({ c with awaited := none }, none)
  | .take =>
    match c.listener, c.pauses, c.pending with
    | .subscribed, 0, e :: rest => some (c.dispatch e rest)
    | _, _, _ => none
  | .cancelDone => c.awaited.map fun e => ({ c with awaited := none, delivered := c.delivered ++ [e] }, none)

/-- What has been delivered, and what is to come. -/
def stream (c : StreamController α ε) : List (StreamEvent α ε) := c.delivered ++ (c.awaited.toList ++ c.pending)

/-- All of `added` is or comes to the listener, unless it has canceled: then a prefix. -/
structure Carries (c : StreamController α ε) (added : List (StreamEvent α ε)) : Prop where
  stream : c.stream <+: added
  whole : c.listener ≠ .canceled → c.awaited = none ∧ c.stream = added
  canceled : c.listener = .canceled → c.pending = []

/-- Nothing is delivered or dropped. -/
structure Idle (c c' : StreamController α ε) (called : Option Callback) : Prop where
  delivered : c'.delivered = c.delivered
  awaited : c'.awaited = c.awaited
  pending : c'.pending = c.pending
  isClosed : c'.isClosed = c.isClosed
  listener : called = some .onListen ∧ c.listener = .initial ∧ c'.listener = .subscribed ∨
    (called = none ∨ called = some .onPause ∨ called = some .onResume) ∧ c'.listener = c.listener

/-- What a turn of the listener's does to the controller. -/
structure Turned (c : StreamController α ε) (e : ListenerEvent) (c' : StreamController α ε) (called : Option Callback) :
    Prop where
  isClosed : c'.isClosed = c.isClosed
  listener : called = some .onListen ∧ c.listener = .initial ∧ c'.listener = .subscribed ∨
    called = some .onCancel ∧ c.listener = .subscribed ∧ c'.listener = .canceled ∨
      (called = none ∨ called = some .onPause ∨ called = some .onResume) ∧ c'.listener = c.listener
  cancel : e = .cancel → c'.listener = .canceled

variable {c c' : StreamController α ε} {added : List (StreamEvent α ε)} {e : ListenerEvent} {called : Option Callback}

theorem carries_new : (new : StreamController α ε).Carries [] := ⟨List.prefix_refl [], fun _ => ⟨rfl, rfl⟩, nofun⟩

@[simp] theorem send_listener (c : StreamController α ε) (x : StreamEvent α ε) : (c.send x).listener = c.listener := by
  unfold send
  split <;> rfl

@[simp] theorem send_isClosed (c : StreamController α ε) (x : StreamEvent α ε) : (c.send x).isClosed = c.isClosed := by
  unfold send
  split <;> rfl

@[simp] theorem close_listener (c : StreamController α ε) : c.close.listener = c.listener := by
  unfold close
  split
  · rfl
  · exact send_listener c .done

@[simp] theorem close_isClosed (c : StreamController α ε) : c.close.isClosed = true := by
  unfold close
  split
  · assumption
  · rfl

theorem Carries.send (h : c.Carries added) (x : StreamEvent α ε) : (c.send x).Carries (added ++ [x]) := by
  -- a listening that was canceled takes no more, and what it has had stays a prefix
  by_cases hc : c.listener = .canceled
  · have hsame : c.send x = c := by simp only [StreamController.send, hc]
    rw [hsame]
    exact ⟨h.stream.trans (List.prefix_append added [x]), fun hne => absurd hc hne, h.canceled⟩
  · have hmore : c.send x = { c with pending := c.pending ++ [x] } := by
      unfold StreamController.send
      split
      · rename_i hcanceled
        exact absurd hcanceled hc
      · rfl
    obtain ⟨hawaited, hstream⟩ := h.whole hc
    have hsent : (c.send x).stream = added ++ [x] := by
      rw [hmore, ← hstream]
      simp only [StreamController.stream, List.append_assoc]
    refine ⟨hsent ▸ List.prefix_refl _, fun _ => ⟨?_, hsent⟩, fun hcanceled => ?_⟩
    · rw [hmore]
      exact hawaited
    · rw [send_listener] at hcanceled
      exact absurd hcanceled hc

theorem Carries.stream_send (h : c.Carries added) (hl : c.listener = .subscribed) (x : StreamEvent α ε) :
    (c.send x).stream = added ++ [x] :=
  ((h.send x).whole (by rw [send_listener, hl]; nofun)).2

theorem Carries.close (h : c.Carries added) (ho : c.isClosed = false) : c.close.Carries (added ++ [.done]) := by
  have hclose : c.close = { c.send .done with isClosed := true } := by
    unfold StreamController.close
    rw [ho]
    rfl
  have hsent := h.send .done
  rw [hclose]
  exact ⟨hsent.stream, hsent.whole, hsent.canceled⟩

/-- Only what comes after the event that ends the listening is lost. -/
theorem Carries.cancelFor (h : c.Carries added) {x : StreamEvent α ε} {rest : List (StreamEvent α ε)}
    (hl : c.listener = .subscribed) (hp : c.pending = x :: rest) : (c.cancelFor x).1.Carries added := by
  obtain ⟨hawaited, hstream⟩ := h.whole (by rw [hl]; nofun)
  -- `x` waits for the future of `onCancel`, the rest is dropped
  refine ⟨?_, fun hne => absurd rfl hne, fun _ => rfl⟩
  rw [← hstream]
  simp only [StreamController.cancelFor, StreamController.stream, hawaited, hp, Option.toList_some, Option.toList_none,
    List.append_nil, List.nil_append]
  exact ⟨rest, by simp only [List.append_assoc, List.singleton_append]⟩

theorem Carries.stream_pass (h : c.Carries added) {x : StreamEvent α ε} {rest : List (StreamEvent α ε)}
    (hl : c.listener = .subscribed) (hp : c.pending = x :: rest) : (c.pass x rest).1.stream = added := by
  obtain ⟨hawaited, hstream⟩ := h.whole (by rw [hl]; nofun)
  rw [← hstream]
  unfold StreamController.pass
  simp only
  split <;> simp [StreamController.stream, hawaited, hp]

theorem Carries.pass (h : c.Carries added) {x : StreamEvent α ε} {rest : List (StreamEvent α ε)}
    (hl : c.listener = .subscribed) (hp : c.pending = x :: rest) : (c.pass x rest).1.Carries added := by
  obtain ⟨hawaited, -⟩ := h.whole (by rw [hl]; nofun)
  have hstream := h.stream_pass hl hp
  have hlistener : (c.pass x rest).1.listener = c.listener := by
    unfold StreamController.pass
    simp only
    split <;> rfl
  refine ⟨hstream ▸ List.prefix_refl _, fun _ => ⟨?_, hstream⟩, fun hcanceled => ?_⟩
  · unfold StreamController.pass
    simp only
    split <;> exact hawaited
  · rw [hlistener, hl] at hcanceled
    cases hcanceled

theorem dispatch_cases (c : StreamController α ε) (x : StreamEvent α ε) (rest : List (StreamEvent α ε)) :
    c.dispatch x rest = c.pass x rest ∨ c.dispatch x rest = c.cancelFor x ∧ (x = .done ∨ ∃ e, x = .error e) := by
  cases x with
  | data a => exact Or.inl rfl
  | error e =>
    unfold dispatch
    simp only
    split
    · exact Or.inr ⟨rfl, Or.inr ⟨e, rfl⟩⟩
    · exact Or.inl rfl
  | done => exact Or.inr ⟨rfl, Or.inl rfl⟩

theorem turn_cases (h : c.turn e = some (c', called)) :
    e ≠ .cancel ∧ c.Idle c' called ∨
      e = .cancel ∧ (c.listener = .subscribed ∧ called = some .onCancel ∧
          c' = { c with listener := .canceled, pending := [], awaited := none } ∨
        c.listener = .canceled ∧ called = none ∧ c' = { c with awaited := none }) ∨
      (∃ x rest, e = .take ∧ c.listener = .subscribed ∧ c.pending = x :: rest ∧ c.dispatch x rest = (c', called)) ∨
      ∃ x, e = .cancelDone ∧ c.awaited = some x ∧ called = none ∧
        c' = { c with awaited := none, delivered := c.delivered ++ [x] } := by
  unfold turn at h
  cases e with
  | listen cancelOnError =>
    simp only at h
    split at h
    · rename_i hl
      obtain ⟨rfl, rfl⟩ := Prod.mk.inj (Option.some.inj h)
      exact Or.inl ⟨nofun, rfl, rfl, rfl, rfl, Or.inl ⟨rfl, hl, rfl⟩⟩
    · cases h
  | pause =>
    simp only at h
    split at h
    · cases h
    · obtain ⟨rfl, rfl⟩ := Prod.mk.inj (Option.some.inj h)
      refine Or.inl ⟨nofun, rfl, rfl, rfl, rfl, Or.inr ⟨?_, rfl⟩⟩
      split
      · exact Or.inl rfl
      · exact Or.inr (Or.inl rfl)
    · obtain ⟨rfl, rfl⟩ := Prod.mk.inj (Option.some.inj h)
      exact Or.inl ⟨nofun, rfl, rfl, rfl, rfl, Or.inr ⟨Or.inl rfl, rfl⟩⟩
  | resume =>
    simp only at h
    split at h
    · cases h
    · split at h
      · obtain ⟨rfl, rfl⟩ := Prod.mk.inj (Option.some.inj h)
        exact Or.inl ⟨nofun, rfl, rfl, rfl, rfl, Or.inr ⟨Or.inr (Or.inr rfl), rfl⟩⟩
      · obtain ⟨rfl, rfl⟩ := Prod.mk.inj (Option.some.inj h)
        exact Or.inl ⟨nofun, rfl, rfl, rfl, rfl, Or.inr ⟨Or.inl rfl, rfl⟩⟩
    · obtain ⟨rfl, rfl⟩ := Prod.mk.inj (Option.some.inj h)
      exact Or.inl ⟨nofun, rfl, rfl, rfl, rfl, Or.inr ⟨Or.inl rfl, rfl⟩⟩
  | cancel =>
    simp only at h
    split at h
    · cases h
    · rename_i hl
      obtain ⟨rfl, rfl⟩ := Prod.mk.inj (Option.some.inj h)
      exact Or.inr (Or.inl ⟨rfl, Or.inl ⟨hl, rfl, rfl⟩⟩)
    · rename_i hl
      obtain ⟨rfl, rfl⟩ := Prod.mk.inj (Option.some.inj h)
      exact Or.inr (Or.inl ⟨rfl, Or.inr ⟨hl, rfl, rfl⟩⟩)
  | take =>
    simp only at h
    split at h
    · rename_i x rest hl _ hp
      exact Or.inr (Or.inr (Or.inl ⟨x, rest, rfl, hl, hp, Option.some.inj h⟩))
    · cases h
  | cancelDone =>
    obtain ⟨x, hx, hc⟩ := Option.map_eq_some_iff.mp h
    obtain ⟨rfl, rfl⟩ := Prod.mk.inj hc
    exact Or.inr (Or.inr (Or.inr ⟨x, rfl, hx, rfl, rfl⟩))

theorem pass_turned (c : StreamController α ε) (x : StreamEvent α ε) (rest : List (StreamEvent α ε)) :
    c.Turned .take (c.pass x rest).1 (c.pass x rest).2 := by
  unfold pass
  simp only
  split
  · exact ⟨rfl, Or.inr (Or.inr ⟨Or.inr (Or.inr rfl), rfl⟩), nofun⟩
  · exact ⟨rfl, Or.inr (Or.inr ⟨Or.inl rfl, rfl⟩), nofun⟩

theorem turn_turned (h : c.turn e = some (c', called)) : c.Turned e c' called := by
  rcases turn_cases h with ⟨hne, hidle⟩ | ⟨rfl, ⟨hl, rfl, rfl⟩ | ⟨hl, rfl, rfl⟩⟩ | ⟨x, rest, rfl, hl, -, hdispatch⟩ |
    ⟨x, rfl, -, rfl, rfl⟩
  · refine ⟨hidle.isClosed, ?_, fun he => absurd he hne⟩
    rcases hidle.listener with hlisten | hsame
    · exact Or.inl hlisten
    · exact Or.inr (Or.inr hsame)
  · exact ⟨rfl, Or.inr (Or.inl ⟨rfl, hl, rfl⟩), fun _ => rfl⟩
  · exact ⟨rfl, Or.inr (Or.inr ⟨Or.inl rfl, rfl⟩), fun _ => hl⟩
  · rcases c.dispatch_cases x rest with hpass | ⟨hcancel, -⟩
    · obtain ⟨rfl, rfl⟩ := Prod.mk.inj (hpass.symm.trans hdispatch)
      exact pass_turned c x rest
    · obtain ⟨rfl, rfl⟩ := Prod.mk.inj (hcancel.symm.trans hdispatch)
      exact ⟨rfl, Or.inr (Or.inl ⟨rfl, hl, rfl⟩), nofun⟩
  · exact ⟨rfl, Or.inr (Or.inr ⟨Or.inl rfl, rfl⟩), nofun⟩

theorem Idle.stream (h : c.Idle c' called) : c'.stream = c.stream := by
  rw [StreamController.stream, StreamController.stream, h.delivered, h.awaited, h.pending]

theorem Idle.canceled (h : c.Idle c' called) : c'.listener = .canceled ↔ c.listener = .canceled := by
  rcases h.listener with ⟨-, hl, hl'⟩ | ⟨-, hl⟩
  · rw [hl, hl']
    exact ⟨nofun, nofun⟩
  · rw [hl]

/-- Nothing that is added is delivered out of its turn, or twice. -/
theorem Carries.turn (h : c.Carries added) (ht : c.turn e = some (c', called)) : c'.Carries added := by
  have hdelivered : c.delivered <+: added := (List.prefix_append _ _).trans h.stream
  rcases turn_cases ht with ⟨-, hidle⟩ | ⟨-, ⟨-, -, rfl⟩ | ⟨hl, -, rfl⟩⟩ | ⟨x, rest, -, hl, hp, hdispatch⟩ |
    ⟨x, -, hx, -, rfl⟩
  · refine ⟨hidle.stream ▸ h.stream, fun hne => ?_, fun hcanceled => ?_⟩
    · rw [hidle.awaited, hidle.stream]
      exact h.whole fun hcanceled => hne (hidle.canceled.mpr hcanceled)
    · rw [hidle.pending]
      exact h.canceled (hidle.canceled.mp hcanceled)
  · refine ⟨?_, fun hne => absurd rfl hne, fun _ => rfl⟩
    simpa only [StreamController.stream, Option.toList_none, List.append_nil] using hdelivered
  · refine ⟨?_, fun hne => absurd hl hne, fun _ => h.canceled hl⟩
    simpa only [StreamController.stream, h.canceled hl, Option.toList_none, List.append_nil] using hdelivered
  · rcases c.dispatch_cases x rest with hpass | ⟨hcancel, -⟩
    · obtain ⟨rfl, rfl⟩ := Prod.mk.inj (hpass.symm.trans hdispatch)
      exact h.pass hl hp
    · obtain ⟨rfl, rfl⟩ := Prod.mk.inj (hcancel.symm.trans hdispatch)
      exact h.cancelFor hl hp
  · refine ⟨?_, fun hne => ?_, h.canceled⟩
    · simpa [StreamController.stream, hx] using h.stream
    · have hnone := (h.whole hne).1
      rw [hx] at hnone
      cases hnone

/-- No event is lost where the listener doesn't cancel, none is an error, and none comes after done. -/
theorem Carries.stream_turn (h : c.Carries added) (ht : c.turn e = some (c', called)) (he : e ≠ .cancel)
    (herror : ∀ x, .error x ∉ added) (hdone : ∀ pre post, added = pre ++ .done :: post → post = []) :
    c'.stream = c.stream := by
  rcases turn_cases ht with ⟨-, hidle⟩ | ⟨rfl, -⟩ | ⟨x, rest, -, hl, hp, hdispatch⟩ | ⟨x, -, hx, -, rfl⟩
  · exact hidle.stream
  · exact absurd rfl he
  · obtain ⟨hawaited, hstream⟩ := h.whole (by rw [hl]; nofun)
    have hadded : added = c.delivered ++ x :: rest := by
      rw [← hstream, StreamController.stream, hawaited, hp]
      rfl
    rcases c.dispatch_cases x rest with hpass | ⟨hcancel, rfl | ⟨x, rfl⟩⟩
    · have hc : (c.pass x rest).1 = c' := congrArg Prod.fst (hpass.symm.trans hdispatch)
      rw [← hc, h.stream_pass hl hp, hstream]
    · obtain ⟨rfl, -⟩ := Prod.mk.inj (hcancel.symm.trans hdispatch)
      obtain rfl := hdone c.delivered rest hadded
      rw [hstream, hadded]
      simp only [StreamController.stream, Option.toList_some, List.append_nil]
    · apply absurd _ (herror x)
      rw [hadded]
      exact List.mem_append_right _ List.mem_cons_self
  · simp only [StreamController.stream, hx, Option.toList_none, Option.toList_some, List.nil_append, List.append_assoc]

/-- How much is left for the listener to do. -/
def remaining (c : StreamController α ε) : ℕ := c.pauses + 2 * c.pending.length + c.awaited.toList.length

theorem remaining_pass (c : StreamController α ε) (x : StreamEvent α ε) {rest : List (StreamEvent α ε)}
    (hp : c.pending = x :: rest) : (c.pass x rest).1.remaining < c.remaining := by
  unfold pass
  simp only
  split <;> simp only [remaining, hp, List.length_cons] <;> omega

theorem remaining_cancelFor {x : StreamEvent α ε} {rest : List (StreamEvent α ε)} (ha : c.awaited = none)
    (hp : c.pending = x :: rest) : (c.cancelFor x).1.remaining < c.remaining := by
  simp only [remaining, cancelFor, ha, hp, List.length_nil, List.length_cons, Option.toList_some, Option.toList_none]
  omega

/-- While something is to come, the listener can take it, once it resumes. -/
theorem Carries.progress (h : c.Carries added) (hl : c.listener ≠ .initial) (hmore : c.delivered ≠ c.stream) :
    ∃ e c' called, (e = .resume ∨ e = .take ∨ e = .cancelDone) ∧ c.turn e = some (c', called) ∧
      c'.remaining < c.remaining := by
  cases ha : c.awaited with
  | some x =>
    refine ⟨.cancelDone, { c with awaited := none, delivered := c.delivered ++ [x] }, none, Or.inr (Or.inr rfl), ?_, ?_⟩
    · simp only [StreamController.turn, ha, Option.map_some]
    · simp only [remaining, ha, Option.toList_none, Option.toList_some, List.length_nil, List.length_singleton]
      omega
  | none =>
    cases hp : c.pending with
    | nil =>
      apply absurd _ hmore
      simp only [StreamController.stream, ha, hp, Option.toList_none, List.append_nil]
    | cons x rest =>
      have hsub : c.listener = .subscribed := by
        cases hc : c.listener with
        | initial => exact absurd hc hl
        | subscribed => rfl
        | canceled =>
          have hnil := h.canceled hc
          rw [hp] at hnil
          cases hnil
      by_cases hpaused : c.pauses = 0
      · have hturn : c.turn .take = some (c.dispatch x rest) := by
          simp only [StreamController.turn, hsub, hpaused, hp]
        refine ⟨.take, (c.dispatch x rest).1, (c.dispatch x rest).2, Or.inr (Or.inl rfl), hturn, ?_⟩
        rcases c.dispatch_cases x rest with hpass | ⟨hcancel, -⟩
        · rw [hpass]
          exact c.remaining_pass x hp
        · rw [hcancel]
          exact remaining_cancelFor ha hp
      · refine ⟨.resume, { c with pauses := c.pauses - 1 }, none, Or.inl rfl, ?_, ?_⟩
        · simp only [StreamController.turn, hsub, hp, List.isEmpty_cons, Bool.false_eq_true, and_false, if_false]
        · simp only [remaining]
          omega

end StreamController
end NoPorts.Lib
