import NoPorts.Lib.Machine
import NoPorts.Lib.Table

/-! `stop` and the ephemeral keys: those that wait for their timers, those being removed, and what `stop` does
about both. -/
namespace NoPorts.SshnpdStop
open Lib

inductive TimerState where
  | active
  | fired
  | cancelled
  deriving DecidableEq, Repr

/-- A call of `deauthorizeAfter`, with its timer. -/
structure Registration where
  sessionId : String
  delay : ℕ
  registered : ℕ
  /-- When the timer is due. -/
  due : ℕ
  beforeStop : Bool
  timer : TimerState
  deriving DecidableEq, Repr

/-- A call of `deauthorizePublicKey`. -/
structure Deauthorization where
  sessionId : String
  begun : ℕ
  /-- `stop` had been called. -/
  stopped : Bool
  finished : Bool
  deriving DecidableEq, Repr

/-- Where `stop` is. -/
inductive Stop where
  | notCalled
  /-- At the cancelling of one subscription, with so many left, itself included. -/
  | cancelling (left : ℕ)
  /-- At `Future.wait`, for these deauthorizations. -/
  | waiting (deauthorizing : List ℕ)
  | completed
  | threw
  deriving DecidableEq, Repr

structure Sshnpd where
  now : ℕ
  stopped : Bool
  stop : Stop
  subscriptions : ℕ
  registrations : List Registration
  /-- The registration that stands under each session id. -/
  pendingDeauthorizations : Table String ℕ
  deauthorizations : List Deauthorization
  /-- `_deauthorizing`, each by its place among `deauthorizations`. -/
  deauthorizing : List ℕ

inductive Event where
  | deauthorizeAfter (delay : ℕ) (sessionId : String)
  /-- Time passes. -/
  | passes (n : ℕ)
  /-- A registration's timer fires. -/
  | fires (i : ℕ)
  /-- A deauthorization has been made, or has failed. -/
  | finishes (j : ℕ)
  | addSubscription
  | stop
  /-- The subscription being cancelled is, or its `cancel()` fails. -/
  | cancelled (ok : Bool)
  /-- All that `Future.wait` waits for is there. -/
  | stopCompletes
  deriving DecidableEq, Repr

def initial : Sshnpd := ⟨0, false, .notCalled, 0, [], .empty, [], []⟩

namespace Sshnpd
variable (s : Sshnpd)

/-- What `deauthorize` does at once, tracked by `_trackDeauthorization`. -/
def deauthorize (sessionId : String) : Sshnpd :=
  match s.pendingDeauthorizations.get? sessionId with
  -- there is nothing to remove, and the future is done
  | none => s
  | some _ =>
    { s with
      pendingDeauthorizations := s.pendingDeauthorizations.erase sessionId
      deauthorizing := s.deauthorizing ++ [s.deauthorizations.length]
      deauthorizations := s.deauthorizations ++ [⟨sessionId, s.now, s.stopped, false⟩] }

def setTimer (i : ℕ) (timer : TimerState) : Sshnpd :=
  { s with registrations := s.registrations.modify i fun r => { r with timer } }

/-- What `stop` does with one of `_pendingDeauthorizations`. -/
def deauthorizeNow (pending : String × ℕ) : Sshnpd := (s.setTimer pending.2 .cancelled).deauthorize pending.1

/-- `stop` once the subscriptions are cancelled. -/
def deauthorizeAll : Sshnpd :=
  let t := s.pendingDeauthorizations.entries.foldl deauthorizeNow s
  { t with subscriptions := 0, stop := .waiting t.deauthorizing }

/-- `stop` with so many subscriptions left to cancel. -/
def cancelNext (left : ℕ) : Sshnpd :=
  if left = 0 then s.deauthorizeAll else { s with stop := .cancelling left }

end Sshnpd

def step (s : Sshnpd) : Event → Option Sshnpd
  | .deauthorizeAfter delay sessionId =>
    let due := s.now + if s.stopped then 0 else delay
    some { s with
      registrations := s.registrations ++ [⟨sessionId, delay, s.now, due, !s.stopped, .active⟩]
      pendingDeauthorizations := s.pendingDeauthorizations.set sessionId s.registrations.length }
  | .passes n => some { s with now := s.now + n }
  | .fires i =>
    match s.registrations[i]? with
    | none => none
    | some r =>
      if r.timer = .active ∧ r.due ≤ s.now then some ((s.setTimer i .fired).deauthorize r.sessionId) else none
  | .finishes j =>
    if j ∈ s.deauthorizing then
      some { s with
        deauthorizations := s.deauthorizations.modify j fun d => { d with finished := true }
        deauthorizing := s.deauthorizing.erase j }
    else none
  | .addSubscription => some (if s.stopped then s else { s with subscriptions := s.subscriptions + 1 })
  | .stop => if s.stop = .notCalled then some ({ s with stopped := true }.cancelNext s.subscriptions) else none
  | .cancelled ok =>
    match s.stop with
    | .cancelling left => if ok then some (s.cancelNext (left - 1)) else some { s with stop := .threw }
    | _ => none
  | .stopCompletes =>
    match s.stop with
    | .waiting deauthorizing =>
      if ∀ j ∈ deauthorizing, j ∉ s.deauthorizing then some { s with stop := .completed } else none
    | _ => none

def machine : Machine Sshnpd Event := ⟨step⟩

/-- The session ids of the keys that come to be registered. -/
def sessionIds (es : List Event) : List String :=
  es.filterMap fun
    | .deauthorizeAfter _ sessionId => some sessionId
    | _ => none

/-- How often a session's key has been deauthorised. -/
def Sshnpd.times (s : Sshnpd) (sessionId : String) : ℕ := s.deauthorizations.countP (·.sessionId = sessionId)

structure OnTime (s : Sshnpd) : Prop where
  /-- A session's key is deauthorised once its timer is no longer there, and then once. -/
  once : ∀ r ∈ s.registrations, s.times r.sessionId = if r.timer = .active then 0 else 1
  /-- A timer that is there fires once it is due, and that is in its delay at the latest. -/
  fires : ∀ (i : ℕ) (r : Registration), s.registrations[i]? = some r → r.timer = .active →
    ∃ t, machine.run s [.passes r.delay, .fires i] = some t ∧ t.times r.sessionId = 1
  notBefore : ∀ d ∈ s.deauthorizations, ∃ r ∈ s.registrations, r.sessionId = d.sessionId ∧
    (r.registered + r.delay ≤ d.begun ∨ d.stopped = true)
  /-- When `stop` completes every key registered before it was called is removed, or has failed to be. -/
  stop : s.stop = .completed → ∀ r ∈ s.registrations, r.beforeStop = true →
    ∃ d ∈ s.deauthorizations, d.sessionId = r.sessionId ∧ d.finished = true

/-! ### What a change leaves as it is -/

section Modify
variable {α β : Type*} {f : α → α}

theorem countP_modify {p : α → Bool} (hp : ∀ a, p (f a) = p a) (xs : List α) (j : ℕ) :
    (xs.modify j f).countP p = xs.countP p := by
  induction xs generalizing j with
  | nil => simp
  | cons a xs ih =>
    cases j with
    | zero => simp [List.countP_cons, hp]
    | succ j => simp [List.countP_cons, ih j]

theorem map_modify_of_eq {g : α → β} (hg : ∀ a, g (f a) = g a) (xs : List α) (j : ℕ) :
    (xs.modify j f).map g = xs.map g := by
  induction xs generalizing j with
  | nil => simp
  | cons a xs ih =>
    cases j with
    | zero => simp [hg]
    | succ j => simp [ih j]

end Modify

namespace Sshnpd
variable (s : Sshnpd)

theorem sessionIds_setTimer (i : ℕ) (timer : TimerState) :
    (s.setTimer i timer).registrations.map Registration.sessionId =
      s.registrations.map Registration.sessionId :=
  map_modify_of_eq (f := fun r : Registration => { r with timer }) (fun _ => rfl) _ i

@[simp] theorem registrations_deauthorize (sessionId : String) :
    (s.deauthorize sessionId).registrations = s.registrations := by
  unfold deauthorize
  split <;> rfl

theorem sessionIds_deauthorizeNow (entries : List (String × ℕ)) :
    (entries.foldl deauthorizeNow s).registrations.map Registration.sessionId =
      s.registrations.map Registration.sessionId := by
  induction entries generalizing s with
  | nil => rfl
  | cons e entries ih =>
    rw [List.foldl_cons, ih, deauthorizeNow, registrations_deauthorize, sessionIds_setTimer]

theorem sessionIds_cancelNext (left : ℕ) :
    (s.cancelNext left).registrations.map Registration.sessionId =
      s.registrations.map Registration.sessionId := by
  unfold cancelNext
  split
  · exact s.sessionIds_deauthorizeNow _
  · rfl

end Sshnpd

/-- The registrations are those of the calls so far, in their order. -/
theorem sessionIds_step {s t : Sshnpd} {e : Event} (hstep : step s e = some t) :
    t.registrations.map Registration.sessionId = s.registrations.map Registration.sessionId ++ sessionIds [e] := by
  cases e with
  | deauthorizeAfter delay sessionId =>
    cases hstep
    exact List.map_append
  | passes n =>
    cases hstep
    exact (List.append_nil _).symm
  | fires i =>
    simp only [step] at hstep
    split at hstep
    · cases hstep
    · obtain ⟨-, rfl⟩ := of_guarded hstep
      rw [Sshnpd.registrations_deauthorize, Sshnpd.sessionIds_setTimer]
      exact (List.append_nil _).symm
  | finishes j =>
    obtain ⟨-, rfl⟩ := of_guarded hstep
    exact (List.append_nil _).symm
  | addSubscription =>
    cases hstep
    split <;> exact (List.append_nil _).symm
  | stop =>
    obtain ⟨-, rfl⟩ := of_guarded hstep
    rw [Sshnpd.sessionIds_cancelNext]
    exact (List.append_nil _).symm
  | cancelled ok =>
    simp only [step] at hstep
    split at hstep
    · cases ok with
      | true =>
        cases hstep
        rw [Sshnpd.sessionIds_cancelNext]
        exact (List.append_nil _).symm
      | false =>
        cases hstep
        exact (List.append_nil _).symm
    · cases hstep
  | stopCompletes =>
    simp only [step] at hstep
    split at hstep
    · obtain ⟨-, rfl⟩ := of_guarded hstep
      exact (List.append_nil _).symm
    · cases hstep

/-! ### The two collections -/

/-- What holds of the registrations, the pending map and the deauthorizations, wherever `stop` is. -/
structure Base (s : Sshnpd) : Prop where
  distinct : (s.registrations.map Registration.sessionId).Nodup
  held : ∀ (sessionId : String) (i : ℕ), s.pendingDeauthorizations.get? sessionId = some i →
    ∃ r, s.registrations[i]? = some r ∧ r.sessionId = sessionId ∧ r.timer = .active
  pending : ∀ (i : ℕ) (r : Registration), s.registrations[i]? = some r → r.timer = .active →
    s.pendingDeauthorizations.get? r.sessionId = some i
  once : ∀ r ∈ s.registrations, s.times r.sessionId = if r.timer = .active then 0 else 1
  notBefore : ∀ d ∈ s.deauthorizations, ∃ r ∈ s.registrations, r.sessionId = d.sessionId ∧
    (r.registered + r.delay ≤ d.begun ∨ d.stopped = true)
  due : ∀ r ∈ s.registrations, r.due = r.registered + (if r.beforeStop then r.delay else 0) ∧ r.registered ≤ s.now
  late : ∀ r ∈ s.registrations, r.beforeStop = false → s.stopped = true
  /-- A deauthorization under way is in `_deauthorizing`. -/
  running : ∀ (j : ℕ) (d : Deauthorization), s.deauthorizations[j]? = some d → d.finished = false →
    j ∈ s.deauthorizing

section Release
variable {s : Sshnpd} {i : ℕ} {r : Registration}

theorem Base.index_inj (h : Base s) {k : ℕ} {r' : Registration} (hr : s.registrations[i]? = some r)
    (hr' : s.registrations[k]? = some r') (hid : r.sessionId = r'.sessionId) : i = k := by
  have hlt : i < (s.registrations.map Registration.sessionId).length := by
    rw [List.length_map]
    exact (List.getElem?_eq_some_iff.mp hr).1
  apply (List.getElem?_inj hlt h.distinct).mp
  rw [List.getElem?_map, List.getElem?_map, hr, hr', Option.map_some, Option.map_some, hid]

theorem getElem?_setTimer {timer : TimerState} (hr : s.registrations[i]? = some r) :
    (s.setTimer i timer).registrations[i]? = some { r with timer } := by
  rw [Sshnpd.setTimer, List.getElem?_modify_eq, hr]
  rfl

theorem getElem?_setTimer_ne {timer : TimerState} {k : ℕ} (hk : k ≠ i) :
    (s.setTimer i timer).registrations[k]? = s.registrations[k]? :=
  List.getElem?_modify_ne _ _ hk.symm

/-- A registration of the daemon whose timer `i` has been set. -/
theorem setTimer_cases {timer : TimerState} {k : ℕ} {r' : Registration} (hr : s.registrations[i]? = some r)
    (h : (s.setTimer i timer).registrations[k]? = some r') :
    (k = i ∧ r' = { r with timer }) ∨ (k ≠ i ∧ s.registrations[k]? = some r') := by
  by_cases hk : k = i
  · rw [hk, getElem?_setTimer hr] at h
    exact Or.inl ⟨hk, (Option.some.inj h).symm⟩
  · rw [getElem?_setTimer_ne hk] at h
    exact Or.inr ⟨hk, h⟩

/-- A registration whose timer is taken off it goes from the one collection to the other. -/
theorem Base.release_eq (h : Base s) (timer : TimerState) (hr : s.registrations[i]? = some r) (hactive : r.timer = .active) :
    (s.setTimer i timer).deauthorize r.sessionId =
      { s.setTimer i timer with
        pendingDeauthorizations := s.pendingDeauthorizations.erase r.sessionId
        deauthorizing := s.deauthorizing ++ [s.deauthorizations.length]
        deauthorizations := s.deauthorizations ++ [⟨r.sessionId, s.now, s.stopped, false⟩] } := by
  have hpending : (s.setTimer i timer).pendingDeauthorizations.get? r.sessionId = some i := h.pending i r hr hactive
  simp only [Sshnpd.deauthorize, hpending]
  rfl

theorem Base.release (h : Base s) {timer : TimerState} (hr : s.registrations[i]? = some r) (hactive : r.timer = .active)
    (htimer : timer ≠ .active) (hdue : r.due ≤ s.now ∨ s.stopped = true) :
    Base ((s.setTimer i timer).deauthorize r.sessionId) := by
  have hmem : r ∈ s.registrations := List.mem_of_getElem? hr
  have hother {k : ℕ} {r' : Registration} (hk : k ≠ i) (hr' : s.registrations[k]? = some r') :
      r.sessionId ≠ r'.sessionId := fun hid => hk (h.index_inj hr hr' hid).symm
  -- every registration keeps all but its timer
  have hkept (r' : Registration) (hr' : r' ∈ s.registrations) :
      ∃ r'' ∈ (s.setTimer i timer).registrations, r''.sessionId = r'.sessionId ∧ r''.registered = r'.registered ∧
        r''.delay = r'.delay := by
    obtain ⟨k, hk⟩ := List.mem_iff_getElem?.mp hr'
    by_cases hik : i = k
    · subst hik
      obtain rfl := Option.some.inj (hr.symm.trans hk)
      exact ⟨{ r with timer }, List.mem_of_getElem? (getElem?_setTimer hr), rfl, rfl, rfl⟩
    · refine ⟨r', List.mem_of_getElem? (i := k) ?_, rfl, rfl, rfl⟩
      rw [getElem?_setTimer_ne fun hki => hik hki.symm]
      exact hk
  rw [h.release_eq timer hr hactive]
  refine ⟨?_, ?_, ?_, ?_, ?_, ?_, ?_, ?_⟩
  · rw [Sshnpd.sessionIds_setTimer]
    exact h.distinct
  · intro sessionId k hk
    rw [Table.get?_erase] at hk
    split at hk
    · cases hk
    · rename_i hne
      obtain ⟨r', hr', hid, hactive'⟩ := h.held sessionId k hk
      have hki : k ≠ i := by
        rintro rfl
        obtain rfl := Option.some.inj (hr.symm.trans hr')
        exact hne hid.symm
      refine ⟨r', ?_, hid, hactive'⟩
      exact (getElem?_setTimer_ne hki).trans hr'
  · intro k r' hr' hactive'
    rcases setTimer_cases hr hr' with ⟨-, rfl⟩ | ⟨hk, hr'⟩
    · exact absurd hactive' htimer
    · rw [Table.get?_erase, if_neg fun hid => hother hk hr' hid.symm]
      exact h.pending k r' hr' hactive'
  · intro r' hr'
    obtain ⟨k, hk⟩ := List.mem_iff_getElem?.mp hr'
    simp only [Sshnpd.times, List.countP_append, List.countP_singleton]
    rcases setTimer_cases hr hk with ⟨-, rfl⟩ | ⟨hki, hk⟩
    · have hnone := h.once r hmem
      rw [if_pos hactive, Sshnpd.times] at hnone
      rw [hnone, if_neg htimer]
      simp
    · have hcount := h.once r' (List.mem_of_getElem? hk)
      rw [Sshnpd.times] at hcount
      rw [hcount]
      simp [hother hki hk]
  · intro d hd
    rcases List.mem_append.mp hd with hd | hd
    · obtain ⟨r', hr', hid, hbegun⟩ := h.notBefore d hd
      obtain ⟨r'', hr'', hid', hregistered, hdelay⟩ := hkept r' hr'
      exact ⟨r'', hr'', hid'.trans hid, by rwa [hregistered, hdelay]⟩
    · obtain rfl := List.mem_singleton.mp hd
      obtain ⟨r'', hr'', hid', hregistered, hdelay⟩ := hkept r hmem
      refine ⟨r'', hr'', hid', ?_⟩
      rw [hregistered, hdelay]
      -- a timer is due when its delay has passed, or was registered after `stop` was called
      rcases hdue with hdue | hstopped
      · cases hbefore : r.beforeStop with
        | true =>
          left
          rw [(h.due r hmem).1, hbefore, if_pos rfl] at hdue
          exact hdue
        | false => exact Or.inr (h.late r hmem hbefore)
      · exact Or.inr hstopped
  · intro r' hr'
    obtain ⟨k, hk⟩ := List.mem_iff_getElem?.mp hr'
    rcases setTimer_cases hr hk with ⟨-, rfl⟩ | ⟨-, hk⟩
    · exact h.due r hmem
    · exact h.due r' (List.mem_of_getElem? hk)
  · intro r' hr'
    obtain ⟨k, hk⟩ := List.mem_iff_getElem?.mp hr'
    rcases setTimer_cases hr hk with ⟨-, rfl⟩ | ⟨-, hk⟩
    · exact h.late r hmem
    · exact h.late r' (List.mem_of_getElem? hk)
  · intro j d hd hunfinished
    rcases getElem?_concat_cases hd with hd | ⟨rfl, -⟩
    · exact List.mem_append_left _ (h.running j d hd hunfinished)
    · exact List.mem_append_right _ (List.mem_singleton_self _)

/-- The keys registered before `stop` was called have been deauthorised, all but those of `js` to their end. -/
def Covered (s : Sshnpd) (js : List ℕ) : Prop :=
  ∀ r ∈ s.registrations, r.beforeStop = true → r.timer ≠ .active ∧
    ∀ (j : ℕ) (d : Deauthorization), s.deauthorizations[j]? = some d → d.sessionId = r.sessionId →
      d.finished = true ∨ j ∈ js

/-- A timer that is still there is one of a key registered later. -/
theorem Covered.release {js : List ℕ} {timer : TimerState} (hcovered : Covered s js) (h : Base s) (hr : s.registrations[i]? = some r)
    (hactive : r.timer = .active) : Covered ((s.setTimer i timer).deauthorize r.sessionId) js := by
  have hlater : r.beforeStop ≠ true :=
    fun hbefore => (hcovered r (List.mem_of_getElem? hr) hbefore).1 hactive
  rw [h.release_eq timer hr hactive]
  intro r' hr' hbefore
  obtain ⟨k, hk⟩ := List.mem_iff_getElem?.mp hr'
  rcases setTimer_cases hr hk with ⟨-, rfl⟩ | ⟨hki, hk⟩
  · exact absurd hbefore hlater
  · obtain ⟨hnot, hfinished⟩ := hcovered r' (List.mem_of_getElem? hk) hbefore
    refine ⟨hnot, fun j d hd hid => ?_⟩
    rcases getElem?_concat_cases hd with hd | ⟨-, rfl⟩
    · exact hfinished j d hd hid
    · exact absurd (h.index_inj hr hk hid).symm hki

/-- What `Future.wait` waits for covers every key whose timer is no longer there. -/
theorem Base.covered (h : Base s) (hnone : s.pendingDeauthorizations.entries = []) :
    Covered s s.deauthorizing := by
  intro r hr _
  obtain ⟨i, hi⟩ := List.mem_iff_getElem?.mp hr
  constructor
  · intro hactive
    have hin := Table.mem_entries_iff.mpr (h.pending i r hi hactive)
    rw [hnone] at hin
    cases hin
  · intro j d hd _
    cases hfinished : d.finished with
    | true => exact Or.inl rfl
    | false => exact Or.inr (h.running j d hd hfinished)

/-- `stop` takes every pending key's timer off it. -/
theorem Base.foldl_deauthorizeNow (h : Base s) (hstopped : s.stopped = true) {entries : List (String × ℕ)}
    (hentries : s.pendingDeauthorizations.entries = entries) :
    Base (entries.foldl Sshnpd.deauthorizeNow s) ∧
      (entries.foldl Sshnpd.deauthorizeNow s).pendingDeauthorizations.entries = [] ∧
      (entries.foldl Sshnpd.deauthorizeNow s).stopped = true := by
  induction entries generalizing s with
  | nil => exact ⟨h, hentries, hstopped⟩
  | cons e entries ih =>
    obtain ⟨sessionId, k⟩ := e
    have hget : s.pendingDeauthorizations.get? sessionId = some k := by
      rw [← Table.mem_entries_iff, hentries]
      exact List.mem_cons_self
    obtain ⟨r', hr', rfl, hactive⟩ := h.held sessionId k hget
    rw [List.foldl_cons, Sshnpd.deauthorizeNow]
    have hbase := h.release hr' hactive (TimerState.noConfusion : TimerState.cancelled ≠ .active) (Or.inr hstopped)
    have heq := h.release_eq .cancelled hr' hactive
    apply ih hbase
    · rw [heq]
      exact hstopped
    · -- the entries left are those under other keys
      have hnodup := s.pendingDeauthorizations.nodup
      rw [hentries, List.map_cons, List.nodup_cons] at hnodup
      rw [heq, Table.erase]
      simp only [hentries, ne_eq, not_true_eq_false, decide_false, Bool.false_eq_true, not_false_eq_true,
        List.filter_cons_of_neg, List.filter_eq_self, decide_eq_true_eq]
      intro e he hid
      exact hnodup.1 (List.mem_map.mpr ⟨e, he, hid⟩)

end Release

/-! ### The steps -/

structure Inv (s : Sshnpd) : Prop where
  base : Base s
  called : s.stop ≠ .notCalled → s.stopped = true
  waiting : ∀ js, s.stop = .waiting js → Covered s js
  completed : s.stop = .completed → Covered s []

theorem initial_inv : Inv initial where
  base :=
    { distinct := List.nodup_nil
      held := fun _ _ h => absurd h (by simp [initial])
      pending := fun _ _ h _ => absurd h (by simp [initial])
      once := fun _ h => absurd h List.not_mem_nil
      notBefore := fun _ h => absurd h List.not_mem_nil
      due := fun _ h => absurd h List.not_mem_nil
      late := fun _ h => absurd h List.not_mem_nil
      running := fun _ _ h _ => absurd h (by simp [initial]) }
  called h := absurd rfl h
  waiting _ h := Stop.noConfusion h
  completed h := Stop.noConfusion h

section Steps
variable {s t : Sshnpd}

theorem Inv.deauthorizeAfter (h : Inv s) {delay : ℕ} {sessionId : String}
    (hnew : sessionId ∉ s.registrations.map Registration.sessionId)
    (hstep : step s (.deauthorizeAfter delay sessionId) = some t) : Inv t := by
  obtain ⟨hbase, hcalled, hwaiting, hcompleted⟩ := h
  cases hstep
  have hnone : s.times sessionId = 0 := by
    rw [Sshnpd.times, List.countP_eq_zero]
    intro d hd hid
    obtain ⟨r, hr, hsame, -⟩ := hbase.notBefore d hd
    exact hnew (List.mem_map.mpr ⟨r, hr, hsame.trans (of_decide_eq_true hid)⟩)
  have hcovered {js : List ℕ} (hcovered : Covered s js) (hstop : s.stop ≠ .notCalled) :
      Covered { s with
        registrations := s.registrations ++
          [⟨sessionId, delay, s.now, s.now + if s.stopped then 0 else delay, !s.stopped, .active⟩]
        pendingDeauthorizations := s.pendingDeauthorizations.set sessionId s.registrations.length } js := by
    intro r hr hbefore
    rcases List.mem_append.mp hr with hr | hr
    · exact hcovered r hr hbefore
    · rw [List.mem_singleton.mp hr, hcalled hstop] at hbefore
      cases hbefore
  refine ⟨⟨?_, ?_, ?_, ?_, ?_, ?_, ?_, hbase.running⟩, hcalled, fun js hjs => hcovered (hwaiting js hjs) ?_,
    fun hdone => hcovered (hcompleted hdone) ?_⟩
  · rw [List.map_append, List.map_singleton]
    refine List.nodup_append.mpr ⟨hbase.distinct, List.nodup_singleton sessionId, fun x hx y hy hxy => ?_⟩
    rw [List.mem_singleton.mp hy] at hxy
    have hx' : x = sessionId := hxy
    exact hnew (hx' ▸ hx)
  · intro id k hk
    rw [Table.get?_set] at hk
    split at hk
    · rename_i hid
      obtain rfl := Option.some.inj hk
      exact ⟨_, List.getElem?_concat_length, hid.symm, rfl⟩
    · obtain ⟨r, hr, hid, hactive⟩ := hbase.held id k hk
      refine ⟨r, ?_, hid, hactive⟩
      rw [List.getElem?_append_left (List.getElem?_eq_some_iff.mp hr).1]
      exact hr
  · intro k r hr hactive
    rw [Table.get?_set]
    rcases getElem?_concat_cases hr with hold | ⟨rfl, rfl⟩
    · have hne : r.sessionId ≠ sessionId := by
        intro hid
        exact hnew (List.mem_map.mpr ⟨r, List.mem_of_getElem? hold, hid⟩)
      rw [if_neg hne]
      exact hbase.pending k r hold hactive
    · exact if_pos rfl
  · intro r hr
    rcases List.mem_append.mp hr with hr | hr
    · exact hbase.once r hr
    · rw [List.mem_singleton.mp hr]
      exact hnone
  · intro d hd
    obtain ⟨r, hr, hr'⟩ := hbase.notBefore d hd
    exact ⟨r, List.mem_append_left _ hr, hr'⟩
  · intro r hr
    rcases List.mem_append.mp hr with hr | hr
    · exact hbase.due r hr
    · rw [List.mem_singleton.mp hr]
      refine ⟨?_, Nat.le_refl _⟩
      cases s.stopped <;> rfl
  · intro r hr hbefore
    rcases List.mem_append.mp hr with hr | hr
    · exact hbase.late r hr hbefore
    · rw [List.mem_singleton.mp hr] at hbefore
      simpa using hbefore
  · rw [hjs]
    exact Stop.noConfusion
  · rw [hdone]
    exact Stop.noConfusion

theorem Inv.passes (h : Inv s) (n : ℕ) : Inv { s with now := s.now + n } where
  base :=
    { h.base with
      due := fun r hr => ⟨(h.base.due r hr).1, Nat.le_add_right_of_le (h.base.due r hr).2⟩ }
  called := h.called
  waiting := h.waiting
  completed := h.completed

/-- A timer that fires is due: its key goes from the one collection to the other. -/
theorem Inv.fires (h : Inv s) {i : ℕ} (hstep : step s (.fires i) = some t) : Inv t := by
  simp only [step] at hstep
  split at hstep
  · cases hstep
  · rename_i r hr
    obtain ⟨⟨hactive, hdue⟩, rfl⟩ := of_guarded hstep
    have hbase := h.base.release hr hactive (TimerState.noConfusion : TimerState.fired ≠ .active) (Or.inl hdue)
    have heq := h.base.release_eq .fired hr hactive
    have hstop : ((s.setTimer i .fired).deauthorize r.sessionId).stop = s.stop := by rw [heq]; rfl
    have hstopped : ((s.setTimer i .fired).deauthorize r.sessionId).stopped = s.stopped := by rw [heq]; rfl
    refine ⟨hbase, ?_, ?_, ?_⟩
    · rw [hstop, hstopped]
      exact h.called
    · intro js hjs
      exact (h.waiting js (hstop.symm.trans hjs)).release h.base hr hactive
    · intro hdone
      exact (h.completed (hstop.symm.trans hdone)).release h.base hr hactive

theorem Inv.finishes (h : Inv s) {j : ℕ} (hstep : step s (.finishes j) = some t) : Inv t := by
  obtain ⟨-, rfl⟩ := of_guarded hstep
  have hcases {k : ℕ} {d : Deauthorization}
      (hd : (s.deauthorizations.modify j fun d => { d with finished := true })[k]? = some d) :
      ∃ d', s.deauthorizations[k]? = some d' ∧ d.sessionId = d'.sessionId ∧ d.begun = d'.begun ∧
        d.stopped = d'.stopped ∧ (d'.finished = true → d.finished = true) ∧ (k = j → d.finished = true) := by
    by_cases hk : k = j
    · subst hk
      rw [List.getElem?_modify_eq] at hd
      obtain ⟨d', hd', rfl⟩ := Option.map_eq_some_iff.mp hd
      exact ⟨d', hd', rfl, rfl, rfl, fun _ => rfl, fun _ => rfl⟩
    · rw [List.getElem?_modify_ne _ _ (Ne.symm hk)] at hd
      exact ⟨d, hd, rfl, rfl, rfl, id, fun hkj => absurd hkj hk⟩
  have hcovered {js : List ℕ} (hcovered : Covered s js) : Covered { s with
      deauthorizations := s.deauthorizations.modify j fun d => { d with finished := true }
      deauthorizing := s.deauthorizing.erase j } js := by
    intro r hr hbefore
    obtain ⟨hnot, hfinished⟩ := hcovered r hr hbefore
    refine ⟨hnot, fun k d hd hid => ?_⟩
    obtain ⟨d', hd', hsame, -, -, hkept, -⟩ := hcases hd
    exact (hfinished k d' hd' (hsame.symm.trans hid)).imp hkept id
  refine ⟨{ h.base with once := ?_, notBefore := ?_, running := ?_ }, h.called, fun js hjs => hcovered (h.waiting js hjs),
    fun hdone => hcovered (h.completed hdone)⟩
  · intro r hr
    exact (countP_modify (f := fun d : Deauthorization => { d with finished := true }) (fun _ => rfl) _ j).trans
      (h.base.once r hr)
  · intro d hd
    obtain ⟨k, hk⟩ := List.mem_iff_getElem?.mp hd
    obtain ⟨d', hd', hsame, hbegun, hstopped, -, -⟩ := hcases hk
    obtain ⟨r, hr, hid, hr'⟩ := h.base.notBefore d' (List.mem_of_getElem? hd')
    refine ⟨r, hr, hid.trans hsame.symm, ?_⟩
    rw [hbegun, hstopped]
    exact hr'
  · intro k d hd hunfinished
    obtain ⟨d', hd', -, -, -, hkept, hj⟩ := hcases hd
    have hkj : k ≠ j := fun hkj => Bool.noConfusion (hunfinished.symm.trans (hj hkj))
    apply (List.mem_erase_of_ne hkj).mpr
    apply h.base.running k d' hd'
    cases hf : d'.finished with
    | false => rfl
    | true => exact Bool.noConfusion (hunfinished.symm.trans (hkept hf))

theorem Inv.cancelNext (h : Base s) (hstopped : s.stopped = true) (left : ℕ) : Inv (s.cancelNext left) := by
  unfold Sshnpd.cancelNext
  split
  · obtain ⟨hbase, hnone, hstopped⟩ := h.foldl_deauthorizeNow hstopped rfl
    refine ⟨{ hbase with }, fun _ => hstopped, fun js hjs => ?_, fun hdone => Stop.noConfusion hdone⟩
    obtain rfl := Stop.waiting.inj hjs
    exact hbase.covered hnone
  · exact ⟨{ h with }, fun _ => hstopped, fun js hjs => Stop.noConfusion hjs, fun hdone => Stop.noConfusion hdone⟩

theorem Inv.stop (h : Inv s) (hstep : step s .stop = some t) : Inv t := by
  obtain ⟨-, rfl⟩ := of_guarded hstep
  have hbase : Base { s with stopped := true } := { h.base with late := fun _ _ _ => rfl }
  exact Inv.cancelNext hbase rfl _

theorem Inv.cancelled (h : Inv s) {ok : Bool} (hstep : step s (.cancelled ok) = some t) : Inv t := by
  simp only [step] at hstep
  split at hstep
  on_goal 2 => cases hstep
  rename_i left hcancelling
  have hstopped : s.stopped = true := by
    apply h.called
    rw [hcancelling]
    exact Stop.noConfusion
  cases ok with
  | true =>
    cases hstep
    exact Inv.cancelNext h.base hstopped _
  | false =>
    cases hstep
    exact ⟨{ h.base with }, fun _ => hstopped, fun js hjs => Stop.noConfusion hjs,
      fun hdone => Stop.noConfusion hdone⟩

theorem Inv.stopCompletes (h : Inv s) (hstep : step s .stopCompletes = some t) : Inv t := by
  simp only [step] at hstep
  split at hstep
  on_goal 2 => cases hstep
  rename_i js hwaiting
  obtain ⟨hall, rfl⟩ := of_guarded hstep
  have hstopped : s.stopped = true := by
    apply h.called
    rw [hwaiting]
    exact Stop.noConfusion
  refine ⟨{ h.base with }, fun _ => hstopped, fun js hjs => Stop.noConfusion hjs, fun _ r hr hbefore => ?_⟩
  obtain ⟨hnot, hfinished⟩ := h.waiting js hwaiting r hr hbefore
  refine ⟨hnot, fun j d hd hid => ?_⟩
  rcases hfinished j d hd hid with hdone | hj
  · exact Or.inl hdone
  · -- one that is no longer in `_deauthorizing` is over
    left
    by_contra hunfinished
    exact hall j hj (h.base.running j d hd (eq_false_of_ne_true hunfinished))

theorem Inv.step {e : Event} (h : Inv s) (hnew : ∀ sessionId ∈ sessionIds [e],
    sessionId ∉ s.registrations.map Registration.sessionId) (hstep : step s e = some t) : Inv t := by
  cases e with
  | deauthorizeAfter delay sessionId => exact h.deauthorizeAfter (hnew sessionId List.mem_cons_self) hstep
  | passes n =>
    cases hstep
    exact h.passes n
  | fires i => exact h.fires hstep
  | finishes j => exact h.finishes hstep
  | addSubscription =>
    cases hstep
    split
    · exact h
    · exact ⟨{ h.base with }, h.called, h.waiting, h.completed⟩
  | stop => exact h.stop hstep
  | cancelled ok => exact h.cancelled hstep
  | stopCompletes => exact h.stopCompletes hstep

end Steps

theorem Inv.onTime {s : Sshnpd} (h : Inv s) : OnTime s where
  once := h.base.once
  notBefore := h.base.notBefore
  stop hdone r hr hbefore := by
    obtain ⟨hnot, hfinished⟩ := h.completed hdone r hr hbefore
    have hone := h.base.once r hr
    rw [if_neg hnot] at hone
    have hpos : 0 < s.deauthorizations.countP (·.sessionId = r.sessionId) := by
      rw [Sshnpd.times] at hone
      omega
    obtain ⟨d, hd, hid⟩ := List.countP_pos_iff.mp hpos
    have hid := of_decide_eq_true hid
    obtain ⟨j, hj⟩ := List.mem_iff_getElem?.mp hd
    exact ⟨d, hd, hid, (hfinished j d hj hid).resolve_right List.not_mem_nil⟩
  fires i r hr hactive := by
    have hpassed := h.passes r.delay
    obtain ⟨hdue, hregistered⟩ := h.base.due r (List.mem_of_getElem? hr)
    have hreached : r.due ≤ s.now + r.delay := by
      rw [hdue]
      split <;> omega
    have hstep : SshnpdStop.step { s with now := s.now + r.delay } (.fires i) =
        some (({ s with now := s.now + r.delay }.setTimer i .fired).deauthorize r.sessionId) := by
      simp only [SshnpdStop.step, hr, hactive, hreached, and_self, if_true]
    refine ⟨({ s with now := s.now + r.delay }.setTimer i .fired).deauthorize r.sessionId, ?_, ?_⟩
    · have hpass : machine.step s (.passes r.delay) = some { s with now := s.now + r.delay } := rfl
      have hfire : machine.step { s with now := s.now + r.delay } (.fires i) = some _ := hstep
      rw [machine.run_step hpass, machine.run_step hfire, machine.run_nil]
    · have hfired := hpassed.fires hstep
      have heq := hpassed.base.release_eq .fired hr hactive
      have hmem : { r with timer := .fired } ∈
          (({ s with now := s.now + r.delay }.setTimer i .fired).deauthorize r.sessionId).registrations := by
        rw [heq]
        exact List.mem_of_getElem? (getElem?_setTimer hr)
      exact hfired.base.once _ hmem

/-- For session ids that are all different, in any order of the steps: each key is deauthorised once, not before
its delay has passed unless `stop` was called, and by the time `stop` completes if it was registered before. -/
theorem keys_removed_on_time {es : List Event} {t : Sshnpd} (hdistinct : (sessionIds es).Nodup)
    (hr : machine.run initial es = some t) : OnTime t := by
  have hrun : t.registrations.map Registration.sessionId = sessionIds es ∧ ((sessionIds es).Nodup → Inv t) := by
    apply machine.run_induction (I := fun es t => t.registrations.map Registration.sessionId = sessionIds es ∧
      ((sessionIds es).Nodup → Inv t)) _ _ hr
    · exact ⟨rfl, fun _ => initial_inv⟩
    · intro es e u v _ ⟨hids, hinv⟩ hstep
      have happend : sessionIds (es ++ [e]) = sessionIds es ++ sessionIds [e] := List.filterMap_append
      refine ⟨?_, fun hnodup => ?_⟩
      · rw [sessionIds_step hstep, hids, happend]
      · rw [happend, List.nodup_append] at hnodup
        apply (hinv hnodup.1).step _ hstep
        intro sessionId hnew hold
        rw [hids] at hold
        exact hnodup.2.2 sessionId hold sessionId hnew rfl
  exact (hrun.2 hdistinct).onTime

/-- Two keys registered before `stop` is called, one of them removed by its timer, and a third registered while
`stop` cancels a subscription. -/
def threeKeys : List Event :=
  [.addSubscription, .deauthorizeAfter 15 "a", .passes 5, .deauthorizeAfter 15 "b", .passes 10, .stop, .fires 0,
    .deauthorizeAfter 15 "c", .cancelled true, .finishes 1, .finishes 0, .finishes 2, .stopCompletes]

theorem threeKeys_removed : ∃ t, machine.run initial threeKeys = some t ∧ t.stop = .completed ∧ OnTime t := by
  have hdistinct : (sessionIds threeKeys).Nodup := by decide
  exact ⟨_, rfl, rfl, keys_removed_on_time hdistinct rfl⟩

end NoPorts.SshnpdStop
