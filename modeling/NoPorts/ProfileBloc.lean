import Mathlib.Data.Option.Basic
import NoPorts.Lib.Machine

/-! A profile's bloc in the desktop app: handlers that run concurrently, one of them with a session's keep-alive
loop in it. -/
namespace NoPorts.ProfileBloc
open Lib

structure Profile where
  keepAlive : Bool
  deriving DecidableEq, Repr

inductive ProfileState where
  | initial
  | loading
  | failedLoad
  | loaded (profile : Profile)
  | failedSave (profile : Profile)
  | starting (profile : Profile)
  | started (profile : Profile)
  | stopping (profile : Profile)
  | failedStart (profile : Profile)
  deriving DecidableEq, Repr

namespace ProfileState

/-- The profile that `_onStart` starts, where it goes on. -/
def startable : ProfileState → Option Profile
  | .loaded profile | .failedSave profile | .failedStart profile => some profile
  | _ => none

/-- The profile that `_onStop` stops. -/
def stoppable : ProfileState → Option Profile
  | .starting profile | .started profile => some profile
  | _ => none

def editable : ProfileState → Bool
  | .loaded _ | .failedSave _ => true
  | _ => false

end ProfileState

structure Npt where
  /-- `close()` has been called. -/
  closing : Bool
  /-- And it has come to its end. -/
  closed : Bool
  done : Bool
  deriving DecidableEq, Repr

/-- Where a start's handler is, in `_runSession` and around it. `failure` is whether `_runSession` is to return a
reason. -/
inductive Pc where
  | runInline (npt : ℕ)
  /-- At `npt.done`. -/
  | done (npt : ℕ)
  /-- At `npt?.close()`, in the `finally`. -/
  | close (npt : Option ℕ) (failure : Bool)
  | cancelProgress (npt : Option ℕ) (failure : Bool)
  | cancelError (failure : Bool)
  /-- `_runSession` is over, and `_onStart` yet to go on. -/
  | returned (failure : Bool)
  /-- In `_waitBeforeRetry`, its completer completed or the timer pending. -/
  | waiting (woken : Bool)
  /-- That is over, and `_onStart` yet to go on. -/
  | waited
  | ended
  deriving DecidableEq, Repr

structure Loop where
  profile : Profile
  pc : Pc
  deriving DecidableEq, Repr

/-- Where `close()` is. -/
inductive Closer where
  | notCalled
  /-- In `_abandonSession`, at the `close()` of the Npt there was. -/
  | abandoning (npt : Option ℕ)
  /-- No event comes to a handler any more. -/
  | noEvents
  /-- The handlers' emitters are done. -/
  | noEmits
  deriving DecidableEq, Repr

structure Bloc where
  state : ProfileState
  /-- `_activeNpt` -/
  activeNpt : Option ℕ
  stopRequested : Bool
  /-- `_closing` -/
  closing : Bool
  /-- `_retryWake`, by the loop that waits for it. -/
  retryWake : Option ℕ
  /-- All that were created. -/
  npts : List Npt
  loops : List Loop
  /-- How many loads await the repository. -/
  loads : ℕ
  /-- What the saves that await the repository save. -/
  saves : List Profile
  closer : Closer
  deriving DecidableEq, Repr

/-- What `runInline` settles with: a connector, or a throw. -/
inductive RunInline where
  | connector (closed : Bool)
  | throw
  deriving DecidableEq, Repr

inductive LoopEvent where
  | runInline (res : RunInline)
  /-- `npt.done` is a value or a throw. -/
  | done (threw : Bool)
  /-- The next await of the `finally` is over. -/
  | unwind
  /-- `_onStart` goes on after `_runSession`. -/
  | resume
  | timer
  | wake
  /-- And after `_waitBeforeRetry`; `created` is whether an Npt could be made. -/
  | retry (created : Bool)
  /-- A message of the Npt's progress or log. -/
  | progress
  deriving DecidableEq, Repr

inductive Event where
  | load
  /-- What the repository gives for it, `none` too when it throws. -/
  | loadDone (profile : Option Profile)
  | edit (profile : Profile)
  | save (profile : Profile)
  | saveDone (i : ℕ) (ok : Bool)
  /-- `ready` is whether there is an atSign and the settings are loaded. -/
  | start (ready created : Bool)
  | stop
  | close
  /-- `close()` goes on to its next await. -/
  | closeStep
  | loop (k : ℕ) (e : LoopEvent)
  /-- An Npt's `close()` comes to its end. -/
  | nptClosed (n : ℕ)
  /-- An Npt's session ends of itself. -/
  | nptDone (n : ℕ)
  deriving DecidableEq, Repr

namespace Bloc
variable (s : Bloc)

def acceptsEvents : Bool := match s.closer with | .notCalled | .abandoning _ => true | _ => false

/-- `emit.isDone`, of a handler that is running. -/
def isDone : Bool := s.closer = .noEmits

def emit (state : ProfileState) : Bloc := { s with state := if s.isDone then s.state else state }

def setPc (k : ℕ) (pc : Pc) : Bloc := { s with loops := s.loops.modify k fun l => { l with pc } }

/-- `_runSession` up to its first await. -/
def runSession (k : ℕ) (created : Bool) : Bloc :=
  if created then
    let npts := s.npts ++ [⟨false, false, false⟩]
    setPc { s with npts, activeNpt := some s.npts.length } k (.runInline s.npts.length)
  else s.setPc k (.close none true)

/-- The call of an Npt's `close()`. -/
def callClose (npt : Option ℕ) : Bloc :=
  { s with npts := npt.elim s.npts fun n => s.npts.modify n fun npt => { npt with closing := true } }

/-- To the `finally` of `_runSession`. -/
def leave (k n : ℕ) (failure : Bool) : Bloc := (s.callClose (some n)).setPc k (.close (some n) failure)

/-- The completer in `_retryWake` is completed, if a loop still waits for it. -/
def wake : Bloc :=
  match s.retryWake with
  | none => s
  | some k => if s.loops[k]?.map Loop.pc = some (.waiting false) then s.setPc k (.waiting true) else s

/-- `_abandonSession` up to its await. -/
def abandonSession : Bloc :=
  let s := wake { s with stopRequested := true }
  s.callClose s.activeNpt

/-- The loop is left: what `_onStart` does after it. -/
def finish (k : ℕ) (profile : Profile) : Bloc := (s.emit (.loaded profile)).setPc k .ended

def nptIsClosed (npt : Option ℕ) : Bool :=
  match npt with
  | none => true
  | some n => (s.npts[n]?.map Npt.closed).getD false

def loopStep (k : ℕ) (l : Loop) (e : LoopEvent) : Option Bloc :=
  match l.pc, e with
  | .runInline n, .runInline res =>
    match res with
    | .throw => some (s.leave k n true)
    | .connector closed =>
      if s.stopRequested then some (s.leave k n false)
      else if closed then some (s.leave k n true)
      else some ((s.emit (.started l.profile)).setPc k (.done n))
  | .done n, .done threw =>
    if (s.npts[n]?.map Npt.done).getD false then some (s.leave k n threw) else none
  | .close npt failure, .unwind => if s.nptIsClosed npt then some (s.setPc k (.cancelProgress npt failure)) else none
  | .cancelProgress _ failure, .unwind => some (s.setPc k (.cancelError failure))
  | .cancelError failure, .unwind => some (setPc { s with activeNpt := none } k (.returned failure))
  | .returned failure, .resume =>
    if s.stopRequested || s.isDone then some (s.finish k l.profile)
    else if !l.profile.keepAlive then
      if failure then some ((s.emit (.failedStart l.profile)).setPc k .ended) else some (s.finish k l.profile)
    else some (setPc { s.emit (.starting l.profile) with retryWake := some k } k (.waiting false))
  | .waiting false, .timer => some (s.setPc k (.waiting true))
  | .waiting true, .wake => some (setPc { s with retryWake := none } k .waited)
  | .waited, .retry created =>
    if s.stopRequested || s.isDone then some (s.finish k l.profile)
    else some ((s.emit (.starting l.profile)).runSession k created)
  | .runInline _, .progress | .done _, .progress | .close (some _) _, .progress
  | .cancelProgress (some _) _, .progress =>
    if s.stopRequested || s.isDone then some s else some (s.emit (.starting l.profile))
  | _, _ => none

/-- `_onStart` up to its first await, in `_runSession`. -/
def onStart (ready created : Bool) : Bloc :=
  match s.state.startable with
  | none => s
  | some profile =>
    if s.closing then s
    else
      let s := emit { s with stopRequested := false } (.starting profile)
      if ready then
        let loops := s.loops ++ [⟨profile, .ended⟩]
        runSession { s with loops } s.loops.length created
      else s.emit (.failedStart profile)

def onStop : Bloc :=
  match s.state.stoppable with
  | none => s
  | some profile => (s.emit (.stopping profile)).abandonSession

def close : Bloc :=
  let s := abandonSession { s with closing := true }
  { s with closer := .abandoning s.activeNpt }

def step (e : Event) : Option Bloc :=
  match e with
  | .load => if s.acceptsEvents then some { s.emit .loading with loads := s.loads + 1 } else none
  | .loadDone profile =>
    if s.loads = 0 then none
    else some { s.emit ((profile.map .loaded).getD .failedLoad) with loads := s.loads - 1 }
  | .edit profile =>
    if s.acceptsEvents then some (if s.state.editable then s.emit (.loaded profile) else s) else none
  | .save profile => if s.acceptsEvents then some { s.emit .loading with saves := s.saves ++ [profile] } else none
  | .saveDone i ok => s.saves[i]?.map fun profile =>
      { s.emit (if ok then .loaded profile else .failedSave profile) with saves := s.saves.eraseIdx i }
  | .start ready created => if s.acceptsEvents then some (s.onStart ready created) else none
  | .stop => if s.acceptsEvents then some s.onStop else none
  | .close => if s.closer = .notCalled then some s.close else none
  | .closeStep =>
    match s.closer with
    | .abandoning npt => if s.nptIsClosed npt then some { s with closer := .noEvents } else none
    | .noEvents => some { s with closer := .noEmits }
    | _ => none
  | .loop k e => s.loops[k]?.bind fun l => s.loopStep k l e
  | .nptClosed n => s.npts[n]?.bind fun npt =>
      if npt.closing then some { s with npts := s.npts.set n { npt with closed := true, done := true } } else none
  | .nptDone n => s.npts[n]?.map fun npt => { s with npts := s.npts.set n { npt with done := true } }

end Bloc

def machine : Machine Bloc Event := ⟨Bloc.step⟩

def initial : Bloc := ⟨.initial, none, false, false, none, [], [], 0, [], .notCalled⟩

/-! ### What the bloc's own steps change -/

namespace Bloc
variable {s t : Bloc} {k n : ℕ} {l : Loop}

theorem state_emit {state : ProfileState} (h : (s.emit state).isDone = false) : (s.emit state).state = state := by
  have hs : s.isDone = false := h
  rw [emit, hs]
  rfl

theorem getElem?_setPc (k m : ℕ) (pc : Pc) :
    (s.setPc k pc).loops[m]? = if k = m then s.loops[m]?.map fun l => { l with pc } else s.loops[m]? := by
  rw [setPc, List.getElem?_modify]
  split
  · rfl
  · exact Option.map_id' ..

theorem getElem?_callClose (npt : Option ℕ) (m : ℕ) :
    (s.callClose npt).npts[m]? = s.npts[m]?.map fun x => if npt = some m then { x with closing := true } else x := by
  cases npt with
  | none => simp [callClose]
  | some n =>
    refine (List.getElem?_modify ..).trans ?_
    by_cases hn : n = m
    · simp [hn]
    · simp [hn]

theorem length_callClose (npt : Option ℕ) : (s.callClose npt).npts.length = s.npts.length := by
  cases npt with
  | none => rfl
  | some n => exact List.length_modify ..

/-- Only a loop that waits is woken. -/
theorem wake_cases (s : Bloc) :
    (s.wake = s ∧ ∀ k l, s.retryWake = some k → s.loops[k]? = some l → l.pc ≠ .waiting false) ∨
    ∃ k l, s.retryWake = some k ∧ s.loops[k]? = some l ∧ l.pc = .waiting false ∧ s.wake = s.setPc k (.waiting true) := by
  unfold wake
  split
  · rename_i hnone
    refine .inl ⟨rfl, fun k l hk => ?_⟩
    rw [hnone] at hk
    cases hk
  · rename_i k hk
    split
    · rename_i hwaiting
      obtain ⟨l, hl, hpc⟩ := Option.map_eq_some_iff.mp hwaiting
      exact .inr ⟨k, l, hk, hl, hpc, rfl⟩
    · rename_i hnot
      refine .inl ⟨rfl, fun m l hm hl hpc => hnot ?_⟩
      obtain rfl := Option.some.inj (hk.symm.trans hm)
      rw [hl, Option.map_some, hpc]

/-! ### What a loop's steps leave -/

/-- What no step of a loop touches; and once a stop is requested, no Npt is created. -/
structure Kept (s t : Bloc) : Prop where
  closing : t.closing = s.closing
  stopRequested : t.stopRequested = s.stopRequested
  closer : t.closer = s.closer
  done : (∀ x ∈ s.npts, x.closed = true → x.done = true) → ∀ x ∈ t.npts, x.closed = true → x.done = true
  length : s.stopRequested = true → t.npts.length = s.npts.length
  stopping : ∀ profile, t.state = .stopping profile → s.state = .stopping profile

theorem Kept.trans {u : Bloc} (h : Kept s t) (h' : Kept t u) : Kept s u := by
  refine ⟨h'.closing.trans h.closing, h'.stopRequested.trans h.stopRequested, h'.closer.trans h.closer,
    fun hdone => h'.done (h.done hdone), fun hrequested => ?_, fun profile hu => h.stopping _ (h'.stopping _ hu)⟩
  exact (h'.length (h.stopRequested.trans hrequested)).trans (h.length hrequested)

theorem kept_refl (s : Bloc) : Kept s s := ⟨rfl, rfl, rfl, id, fun _ => rfl, fun _ => id⟩

theorem kept_emit {state : ProfileState} (hne : ∀ profile, state ≠ .stopping profile) : Kept s (s.emit state) := by
  refine ⟨rfl, rfl, rfl, id, fun _ => rfl, fun profile h => ?_⟩
  have h : (if s.isDone then s.state else state) = .stopping profile := h
  split at h
  · exact h
  · exact absurd h (hne profile)

theorem kept_setPc {pc : Pc} : Kept s (s.setPc k pc) := ⟨rfl, rfl, rfl, id, fun _ => rfl, fun _ => id⟩

theorem kept_starting (profile : Profile) : Kept s (s.emit (.starting profile)) := kept_emit fun _ h => by cases h

theorem kept_finish (profile : Profile) : Kept s (s.finish k profile) :=
  (kept_emit fun _ h => by cases h).trans kept_setPc

theorem done_callClose (npt : Option ℕ) (h : ∀ x ∈ s.npts, x.closed = true → x.done = true) :
    ∀ x ∈ (s.callClose npt).npts, x.closed = true → x.done = true := by
  intro x hx hclosed
  obtain ⟨m, hx⟩ := List.getElem?_of_mem hx
  rw [getElem?_callClose] at hx
  obtain ⟨y, hy, rfl⟩ := Option.map_eq_some_iff.mp hx
  split at hclosed
  · rw [if_pos (by assumption)]
    exact h y (List.mem_of_getElem? hy) hclosed
  · rw [if_neg (by assumption)]
    exact h y (List.mem_of_getElem? hy) hclosed

theorem kept_callClose (npt : Option ℕ) : Kept s (s.callClose npt) :=
  ⟨rfl, rfl, rfl, done_callClose npt, fun _ => length_callClose npt, fun _ => id⟩

theorem kept_leave (failure : Bool) : Kept s (s.leave k n failure) := (kept_callClose (some n)).trans kept_setPc

theorem kept_runSession (created : Bool) (hrequested : s.stopRequested = false) : Kept s (s.runSession k created) := by
  cases created with
  | false => exact kept_setPc
  | true =>
    refine ⟨rfl, rfl, rfl, fun h x hx hclosed => ?_, fun h => ?_, fun _ => id⟩
    · rcases List.mem_append.mp hx with hx | hx
      · exact h x hx hclosed
      · rw [List.mem_singleton.mp hx] at hclosed
        cases hclosed
    · rw [hrequested] at h
      cases h

theorem kept_set {npt : Npt} (hnpt : npt.closed = true → npt.done = true) : Kept s { s with npts := s.npts.set n npt } := by
  refine ⟨rfl, rfl, rfl, fun h x hx => ?_, fun _ => List.length_set, fun _ => id⟩
  rcases List.mem_or_eq_of_mem_set hx with hx | rfl
  · exact h x hx
  · exact hnpt

theorem kept_wake : Kept s s.wake := by
  rcases wake_cases s with ⟨hwake, -⟩ | ⟨k, l, -, -, -, hwake⟩
  · rw [hwake]
    exact kept_refl s
  · rw [hwake]
    exact kept_setPc

theorem kept_abandonSession : Kept { s with stopRequested := true } s.abandonSession := kept_wake.trans (kept_callClose _)

theorem kept_progress {profile : Profile}
    (hstep : (if s.stopRequested || s.isDone then some s else some (s.emit (.starting profile))) = some t) : Kept s t := by
  split at hstep
  · obtain rfl := Option.some.inj hstep
    exact kept_refl s
  · obtain rfl := Option.some.inj hstep
    exact kept_starting profile

theorem kept_loopStep {e : LoopEvent} (hstep : s.loopStep k l e = some t) : Kept s t := by
  unfold loopStep at hstep
  split at hstep
  · split at hstep
    · obtain rfl := Option.some.inj hstep
      exact kept_leave true
    · split at hstep
      · obtain rfl := Option.some.inj hstep
        exact kept_leave false
      · split at hstep
        · obtain rfl := Option.some.inj hstep
          exact kept_leave true
        · obtain rfl := Option.some.inj hstep
          exact (kept_emit fun _ h => by cases h).trans kept_setPc
  · obtain ⟨-, rfl⟩ := of_guarded hstep
    exact kept_leave _
  · obtain ⟨-, rfl⟩ := of_guarded hstep
    exact kept_setPc
  · obtain rfl := Option.some.inj hstep
    exact kept_setPc
  · obtain rfl := Option.some.inj hstep
    exact ⟨rfl, rfl, rfl, id, fun _ => rfl, fun _ => id⟩
  · split at hstep
    · obtain rfl := Option.some.inj hstep
      exact kept_finish l.profile
    · split at hstep
      · split at hstep
        · obtain rfl := Option.some.inj hstep
          exact (kept_emit fun _ h => by cases h).trans kept_setPc
        · obtain rfl := Option.some.inj hstep
          exact kept_finish l.profile
      · obtain rfl := Option.some.inj hstep
        have hsetPc : Kept (s.emit (.starting l.profile))
            (setPc { s.emit (.starting l.profile) with retryWake := some k } k (.waiting false)) :=
          ⟨rfl, rfl, rfl, id, fun _ => rfl, fun _ => id⟩
        exact (kept_starting l.profile).trans hsetPc
  · obtain rfl := Option.some.inj hstep
    exact kept_setPc
  · obtain rfl := Option.some.inj hstep
    exact ⟨rfl, rfl, rfl, id, fun _ => rfl, fun _ => id⟩
  · split at hstep
    · obtain rfl := Option.some.inj hstep
      exact kept_finish l.profile
    · rename_i hnot
      obtain rfl := Option.some.inj hstep
      obtain ⟨hrequested, -⟩ := Bool.or_eq_false_iff.mp (Bool.eq_false_iff.mpr hnot)
      exact (kept_starting l.profile).trans (kept_runSession _ hrequested)
  · exact kept_progress hstep
  · exact kept_progress hstep
  · exact kept_progress hstep
  · exact kept_progress hstep
  · cases hstep

/-! ### What one event changes -/

theorem isDone_of_acceptsEvents (h : s.acceptsEvents = true) : s.isDone = false := by
  unfold acceptsEvents at h
  cases hcloser : s.closer with
  | notCalled => exact decide_eq_false (by rw [hcloser]; decide)
  | abandoning npt => exact decide_eq_false fun heq => by rw [hcloser] at heq; cases heq
  | noEvents =>
    rw [hcloser] at h
    cases h
  | noEmits =>
    rw [hcloser] at h
    cases h

theorem loopStep_ended {e : LoopEvent} (h : l.pc = .ended) : s.loopStep k l e = none := by
  unfold loopStep
  rw [h]

/-- A start, a stop and the two parts of the close are the events that touch what the others keep. -/
theorem step_cases {e : Event} (hstep : s.step e = some t) : Kept s t ∨
    (∃ ready created, e = .start ready created ∧ t = s.onStart ready created) ∨
    e = .stop ∧ s.acceptsEvents = true ∧ t = s.onStop ∨ e = .close ∧ t = s.close ∨
    e = .closeStep ∧ s.closer ≠ .notCalled ∧ ∃ closer, t = { s with closer } := by
  unfold step at hstep
  cases e with
  | load =>
    obtain ⟨-, rfl⟩ := of_guarded hstep
    have hemit : Kept s (s.emit .loading) := kept_emit fun _ h => by cases h
    exact .inl (hemit.trans ⟨rfl, rfl, rfl, id, fun _ => rfl, fun _ => id⟩)
  | loadDone profile =>
    dsimp only at hstep
    split at hstep
    · cases hstep
    · obtain rfl := Option.some.inj hstep
      have hemit : Kept s (s.emit ((profile.map .loaded).getD .failedLoad)) := by
        cases profile with
        | none => exact kept_emit fun _ h => by cases h
        | some profile => exact kept_emit fun _ h => by cases h
      exact .inl (hemit.trans ⟨rfl, rfl, rfl, id, fun _ => rfl, fun _ => id⟩)
  | edit profile =>
    obtain ⟨-, rfl⟩ := of_guarded hstep
    left
    split
    · exact kept_emit fun _ h => by cases h
    · exact kept_refl s
  | save profile =>
    obtain ⟨-, rfl⟩ := of_guarded hstep
    have hemit : Kept s (s.emit .loading) := kept_emit fun _ h => by cases h
    exact .inl (hemit.trans ⟨rfl, rfl, rfl, id, fun _ => rfl, fun _ => id⟩)
  | saveDone i ok =>
    obtain ⟨profile, -, rfl⟩ := Option.map_eq_some_iff.mp hstep
    have hemit : Kept s (s.emit (if ok then .loaded profile else .failedSave profile)) := by
      cases ok with
      | false => exact kept_emit fun _ h => by cases h
      | true => exact kept_emit fun _ h => by cases h
    exact .inl (hemit.trans ⟨rfl, rfl, rfl, id, fun _ => rfl, fun _ => id⟩)
  | start ready created =>
    obtain ⟨-, rfl⟩ := of_guarded hstep
    exact .inr (.inl ⟨ready, created, rfl, rfl⟩)
  | stop =>
    obtain ⟨haccepts, rfl⟩ := of_guarded hstep
    exact .inr (.inr (.inl ⟨rfl, haccepts, rfl⟩))
  | close =>
    obtain ⟨-, rfl⟩ := of_guarded hstep
    exact .inr (.inr (.inr (.inl ⟨rfl, rfl⟩)))
  | closeStep =>
    dsimp only at hstep
    split at hstep
    · rename_i npt hcloser
      have hne : s.closer ≠ .notCalled := fun h => by rw [hcloser] at h; cases h
      obtain ⟨-, rfl⟩ := of_guarded hstep
      exact .inr (.inr (.inr (.inr ⟨rfl, hne, _, rfl⟩)))
    · rename_i hcloser
      have hne : s.closer ≠ .notCalled := fun h => by rw [hcloser] at h; cases h
      obtain rfl := Option.some.inj hstep
      exact .inr (.inr (.inr (.inr ⟨rfl, hne, _, rfl⟩)))
    · cases hstep
  | loop k e =>
    obtain ⟨l, -, hstep⟩ := Option.bind_eq_some_iff.mp hstep
    exact .inl (kept_loopStep hstep)
  | nptClosed n =>
    obtain ⟨npt, -, hstep⟩ := Option.bind_eq_some_iff.mp hstep
    obtain ⟨-, rfl⟩ := of_guarded hstep
    exact .inl (kept_set fun _ => rfl)
  | nptDone n =>
    obtain ⟨npt, -, rfl⟩ := Option.map_eq_some_iff.mp hstep
    exact .inl (kept_set fun _ => rfl)

/-- A start is refused, or it takes back the stop that was requested. -/
theorem onStart_cases (ready created : Bool) : s.onStart ready created = s ∨ s.state.startable.isSome = true ∧
    s.closing = false ∧ Kept { s with stopRequested := false } (s.onStart ready created) := by
  unfold onStart
  split
  · exact .inl rfl
  · rename_i profile hstartable
    split
    · exact .inl rfl
    · rename_i hclosing
      refine .inr ⟨Option.isSome_of_eq_some hstartable, Bool.eq_false_iff.mpr hclosing, ?_⟩
      let u : Bloc := emit { s with stopRequested := false } (.starting profile)
      have hstarting : Kept { s with stopRequested := false } u := kept_starting profile
      cases ready with
      | false => exact hstarting.trans (kept_emit fun _ h => by cases h)
      | true =>
        have hloop : Kept u { u with loops := u.loops ++ [⟨profile, .ended⟩] } :=
          ⟨rfl, rfl, rfl, id, fun _ => rfl, fun _ => id⟩
        exact (hstarting.trans hloop).trans (kept_runSession created rfl)

theorem onStop_cases : s.state.stoppable = none ∧ s.onStop = s ∨
    ∃ profile, s.state.stoppable = some profile ∧ s.onStop = (s.emit (.stopping profile)).abandonSession := by
  unfold onStop
  split
  · rename_i hstoppable
    exact .inl ⟨hstoppable, rfl⟩
  · rename_i profile hstoppable
    exact .inr ⟨profile, hstoppable, rfl⟩

/-- An event that is no start leaves a stop requested. -/
theorem stopRequested_of_step {e : Event} (hstep : s.step e = some t) (he : ∀ ready created, e ≠ .start ready created)
    (hrequested : s.stopRequested = true) : t.stopRequested = true := by
  rcases step_cases hstep with hkept | ⟨ready, created, rfl, -⟩ | ⟨-, -, rfl⟩ | ⟨-, rfl⟩ | ⟨-, -, closer, rfl⟩
  · exact hkept.stopRequested.trans hrequested
  · exact absurd rfl (he ready created)
  · rcases onStop_cases (s := s) with ⟨-, heq⟩ | ⟨profile, -, heq⟩
    · rw [heq]
      exact hrequested
    · rw [heq]
      exact kept_abandonSession.stopRequested
  · exact kept_abandonSession.stopRequested
  · exact hrequested

/-- The bloc comes to be stopping through a stop only. -/
theorem stopping_of_step {e : Event} (hstep : s.step e = some t) (he : e ≠ .stop) {profile : Profile}
    (hstopping : t.state = .stopping profile) : s.state = .stopping profile := by
  rcases step_cases hstep with hkept | ⟨ready, created, -, rfl⟩ | ⟨hstop, -⟩ | ⟨-, rfl⟩ | ⟨-, -, closer, rfl⟩
  · exact hkept.stopping profile hstopping
  · rcases onStart_cases (s := s) ready created with heq | ⟨-, -, hkept⟩
    · rwa [heq] at hstopping
    · exact hkept.stopping profile hstopping
  · exact absurd hstop he
  · exact (kept_abandonSession (s := { s with closing := true })).stopping profile hstopping
  · exact hstopping

/-- After `close()` is called a stop is requested for good, and no Npt is created. -/
theorem closing_of_step {e : Event} (hstep : s.step e = some t) (hclosing : s.closing = true)
    (hrequested : s.stopRequested = true) :
    t.closing = true ∧ t.stopRequested = true ∧ t.npts.length = s.npts.length := by
  rcases step_cases hstep with hkept | ⟨ready, created, -, rfl⟩ | ⟨-, -, rfl⟩ | ⟨-, rfl⟩ | ⟨-, -, closer, rfl⟩
  · exact ⟨hkept.closing.trans hclosing, hkept.stopRequested.trans hrequested, hkept.length hrequested⟩
  · rcases onStart_cases (s := s) ready created with heq | ⟨-, hopen, -⟩
    · rw [heq]
      exact ⟨hclosing, hrequested, rfl⟩
    · rw [hclosing] at hopen
      cases hopen
  · rcases onStop_cases (s := s) with ⟨-, heq⟩ | ⟨profile, -, heq⟩
    · rw [heq]
      exact ⟨hclosing, hrequested, rfl⟩
    · rw [heq]
      exact ⟨kept_abandonSession.closing.trans hclosing, kept_abandonSession.stopRequested, kept_abandonSession.length rfl⟩
  · exact ⟨kept_abandonSession.closing, kept_abandonSession.stopRequested, kept_abandonSession.length rfl⟩
  · exact ⟨hclosing, hrequested, rfl⟩

theorem stop_of_step (hstep : s.step .stop = some t) : s.acceptsEvents = true ∧ t = s.onStop := of_guarded hstep

/-- The emitters come to be done at the close's last step, which leaves the state. -/
theorem isDone_of_step {e : Event} (hstep : s.step e = some t) (hs : s.isDone = false) (ht : t.isDone = true) :
    e = .closeStep ∧ s.closer = .noEvents ∧ t.state = s.state := by
  have hne : t.closer ≠ s.closer := fun heq => by
    rw [isDone, heq] at ht
    exact Bool.false_ne_true (hs.symm.trans ht)
  rcases step_cases hstep with hkept | ⟨ready, created, -, rfl⟩ | ⟨-, -, rfl⟩ | ⟨-, rfl⟩ | ⟨rfl, -, closer, rfl⟩
  · exact absurd hkept.closer hne
  · rcases onStart_cases (s := s) ready created with heq | ⟨-, -, hkept⟩
    · exact absurd (congrArg closer heq) hne
    · exact absurd hkept.closer hne
  · rcases onStop_cases (s := s) with ⟨-, heq⟩ | ⟨profile, -, heq⟩
    · exact absurd (congrArg closer heq) hne
    · exact absurd ((congrArg closer heq).trans kept_abandonSession.closer) hne
  · cases ht
  · refine ⟨rfl, ?_, rfl⟩
    unfold step at hstep
    dsimp only at hstep
    split at hstep
    · split at hstep
      · rw [← Option.some.inj hstep] at ht
        cases ht
      · cases hstep
    · assumption
    · cases hstep

end Bloc

end NoPorts.ProfileBloc
