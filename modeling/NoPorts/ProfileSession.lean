import NoPorts.ProfileBloc

/-! One session at a time: where a run leaves a profile's bloc, its Npts and its state. -/
namespace NoPorts.ProfileBloc
open Lib

/-- The states in which a start's handler leaves the bloc while it runs, and a stop's. -/
def ProfileState.inSession : ProfileState → Bool
  | .starting _ | .started _ | .stopping _ => true
  | _ => false

namespace Bloc
variable (s : Bloc)

/-- A start is being handled: its session is starting, running, waiting to retry or coming to its end. -/
def Active : Prop := ∃ l ∈ s.loops, l.pc ≠ .ended

instance : Decidable s.Active := inferInstanceAs (Decidable (∃ l ∈ s.loops, l.pc ≠ .ended))

/-- Nothing is left to come, other than the end of a session or of a wait. -/
structure Settled : Prop where
  loops : ∀ l ∈ s.loops, l.pc = .ended ∨ l.pc = .waiting false ∨
    ∃ n, l.pc = .done n ∧ (s.npts[n]?.map Npt.done).getD false = false
  npts : ∀ npt ∈ s.npts, npt.closing = true → npt.closed = true
  loads : s.loads = 0
  saves : s.saves = []
  closer : s.closer = .notCalled ∨ s.closer = .noEmits

/-- No Npt is open and no retry timer is pending; and the state is not stopping, while it can change. -/
structure Over : Prop where
  npts : ∀ npt ∈ s.npts, npt.closed = true
  timers : ∀ l ∈ s.loops, ∀ woken, l.pc ≠ .waiting woken
  state : ∀ profile, s.state = .stopping profile → s.isDone = true

end Bloc

structure OneSession (es : List Event) (t : Bloc) : Prop where
  one : ∀ (m n : ℕ) (x y : Npt), t.npts[m]? = some x → t.npts[n]? = some y → x.closed = false → y.closed = false → m = n
  /-- None is created after `close()` is called. -/
  closing : t.closing = true → ∀ fs u, machine.run t fs = some u → u.npts.length = t.npts.length
  close : t.closing = true → t.Settled → t.Over
  stop : (∃ pre post u, es = pre ++ .stop :: post ∧ machine.run initial pre = some u ∧ u.Active ∧
    ∀ ready created, .start ready created ∉ post) → t.Settled → t.Over
  /-- The bloc is left stopping only where the emitters are done before the session that was stopped is over. -/
  stopping : ∀ profile, t.state = .stopping profile → t.isDone = true → .stop ∈ es ∧
    machine.At initial es fun u e => e = .closeStep ∧ u.closer = .noEvents ∧ u.state = .stopping profile ∧ u.Active

/-- No load and no save begins or comes to its end while a start is being handled. -/
def Undisturbed (s : Bloc) : Event → Prop
  | .load | .loadDone _ | .save _ | .saveDone _ _ => ¬s.Active
  | _ => True

instance (s : Bloc) : DecidablePred (Undisturbed s)
  | .load | .loadDone _ | .save _ | .saveDone _ _ => inferInstanceAs (Decidable ¬s.Active)
  | .edit _ | .start _ _ | .stop | .close | .closeStep | .loop _ _ | .nptClosed _ | .nptDone _ => .isTrue trivial

/-! ### Where the bloc is -/

theorem ProfileState.stopping_of_inSession {state : ProfileState} (h : state.inSession = true)
    (hstoppable : state.stoppable = none) : ∃ profile, state = .stopping profile := by
  cases state with
  | starting profile => cases hstoppable
  | started profile => cases hstoppable
  | stopping profile => exact ⟨profile, rfl⟩
  | _ => cases h

/-- Outside a session nothing can be stopped. -/
theorem ProfileState.stoppable_of_not_inSession {state : ProfileState} (h : state.inSession = false) :
    state.stoppable = none := by
  cases state with
  | starting profile => cases h
  | started profile => cases h
  | _ => rfl

/-- The guard of `_onStart` lets no start in during a session. -/
theorem ProfileState.not_inSession_of_startable {state : ProfileState} {profile : Profile}
    (h : state.startable = some profile) : state.inSession = false := by
  cases state with
  | starting profile => cases h
  | started profile => cases h
  | stopping profile => cases h
  | _ => rfl

theorem ProfileState.not_inSession_of_editable {state : ProfileState} (h : state.editable = true) :
    state.inSession = false := by
  cases state with
  | loaded profile => rfl
  | failedSave profile => rfl
  | _ => cases h

namespace Bloc

/-- All but that one are closed. -/
def ClosedBut (s : Bloc) (npt : Option ℕ) : Prop := ∀ n x, s.npts[n]? = some x → some n ≠ npt → x.closed = true

structure Idle (s : Bloc) : Prop where
  loops : ∀ l ∈ s.loops, l.pc = .ended
  npts : s.ClosedBut none
  state : s.isDone = false → s.state.inSession = false

/-- What goes with where loop `k` is. -/
def At (s : Bloc) (k : ℕ) : Pc → Prop
  | .runInline n => s.activeNpt = some n ∧ n < s.npts.length ∧ s.ClosedBut (some n)
  | .done n => s.activeNpt = some n ∧ n < s.npts.length ∧ s.ClosedBut (some n) ∧
      (s.stopRequested = true → ∀ x, s.npts[n]? = some x → x.closing = true)
  | .close npt _ => s.ClosedBut npt
  | .cancelProgress _ _ | .cancelError _ | .returned _ | .waited => s.ClosedBut none
  | .waiting woken => s.ClosedBut none ∧ s.retryWake = some k ∧ (s.stopRequested = true → woken = true)
  | .ended => False

/-- Loop `k` is the one that may run, and the state says that it does. -/
structure Sole (s : Bloc) (k : ℕ) (l : Loop) : Prop where
  loop : s.loops[k]? = some l
  others : ∀ m x, s.loops[m]? = some x → m ≠ k → x.pc = .ended
  state : s.isDone = false → s.state.inSession = true

structure Session (s : Bloc) (k : ℕ) (l : Loop) : Prop extends Sole s k l where
  place : s.At k l.pc

/-- No loop runs, or one. -/
def Placed (s : Bloc) : Prop := s.Idle ∨ ∃ k l, s.Session k l

structure Inv (s : Bloc) : Prop where
  requested : s.closing = true → s.stopRequested = true
  closer : s.closer ≠ .notCalled → s.closing = true
  done : ∀ x ∈ s.npts, x.closed = true → x.done = true
  stopping : ∀ profile, s.state = .stopping profile → s.stopRequested = true
  placed : s.Placed

/-- Each Npt is as far as it was, or further. -/
def Onward (npts npts' : List Npt) : Prop :=
  npts'.length = npts.length ∧ ∀ (m : ℕ) (y : Npt), npts'[m]? = some y → ∃ x, npts[m]? = some x ∧
    (x.closing = true → y.closing = true) ∧ (x.closed = true → y.closed = true)

variable {s t : Bloc} {k n : ℕ} {l : Loop}

theorem Idle.emit (h : s.Idle) {state : ProfileState} (hstate : state.inSession = false) : (s.emit state).Idle :=
  ⟨h.loops, h.npts, fun hdone => by rw [state_emit hdone, hstate]⟩

theorem Session.emit (h : s.Session k l) {state : ProfileState} (hstate : state.inSession = true) :
    (s.emit state).Session k l :=
  ⟨⟨h.loop, h.others, fun hdone => by rw [state_emit hdone, hstate]⟩, h.place⟩

/-- The loop that runs goes on. -/
theorem Sole.setPc (h : s.Sole k l) {pc : Pc} (hplace : s.At k pc) : (s.setPc k pc).Session k { l with pc } := by
  refine ⟨⟨?_, ?_, h.state⟩, hplace⟩
  · rw [getElem?_setPc, if_pos rfl, h.loop]
    rfl
  · intro m x hx hne
    rw [getElem?_setPc, if_neg (Ne.symm hne)] at hx
    exact h.others m x hx hne

/-- The loop that runs ends, with every Npt closed. -/
theorem idle_setPc (hothers : ∀ m x, s.loops[m]? = some x → m ≠ k → x.pc = .ended) (hnpts : s.ClosedBut none)
    (hstate : s.isDone = false → s.state.inSession = false) : (s.setPc k .ended).Idle := by
  refine ⟨?_, hnpts, hstate⟩
  intro x hx
  obtain ⟨m, hx⟩ := List.getElem?_of_mem hx
  rw [getElem?_setPc] at hx
  split at hx
  · obtain ⟨x, -, rfl⟩ := Option.map_eq_some_iff.mp hx
    rfl
  · rename_i hne
    exact hothers m x hx (Ne.symm hne)

/-- So it does once it has emitted what the state is to be then. -/
theorem Session.emit_setPc (h : s.Session k l) (hnpts : s.ClosedBut none) {state : ProfileState}
    (hstate : state.inSession = false) : ((s.emit state).setPc k .ended).Idle :=
  idle_setPc h.others hnpts fun hdone => by rw [state_emit hdone, hstate]

theorem Session.finish (h : s.Session k l) (hnpts : s.ClosedBut none) (profile : Profile) : (s.finish k profile).Idle :=
  h.emit_setPc hnpts rfl

theorem onward_callClose (npt : Option ℕ) : Onward s.npts (s.callClose npt).npts := by
  refine ⟨length_callClose npt, fun m y hy => ?_⟩
  rw [getElem?_callClose] at hy
  obtain ⟨x, hx, rfl⟩ := Option.map_eq_some_iff.mp hy
  split
  · exact ⟨x, hx, fun _ => rfl, id⟩
  · exact ⟨x, hx, id, id⟩

theorem onward_set {x y : Npt} (hx : s.npts[n]? = some x) (hclosing : x.closing = true → y.closing = true)
    (hclosed : x.closed = true → y.closed = true) : Onward s.npts (s.npts.set n y) := by
  refine ⟨List.length_set, fun m z hz => ?_⟩
  rcases getElem?_set_cases hz with ⟨rfl, rfl⟩ | ⟨-, hz⟩
  · exact ⟨x, hx, hclosing, hclosed⟩
  · exact ⟨z, hz, id, id⟩

section
variable {npts : List Npt}

theorem ClosedBut.onward {npt : Option ℕ} (h : s.ClosedBut npt) (ho : Onward s.npts npts) :
    ClosedBut { s with npts } npt := by
  intro m y hy hne
  obtain ⟨x, hx, -, hclosed⟩ := ho.2 m y hy
  exact hclosed (h m x hx hne)

theorem Idle.onward (h : s.Idle) (ho : Onward s.npts npts) : Idle { s with npts } := ⟨h.loops, h.npts.onward ho, h.state⟩

theorem At.onward {pc : Pc} (h : s.At k pc) (ho : Onward s.npts npts) : At { s with npts } k pc := by
  cases pc with
  | runInline n => exact ⟨h.1, Nat.lt_of_lt_of_eq h.2.1 ho.1.symm, h.2.2.onward ho⟩
  | done n =>
    refine ⟨h.1, Nat.lt_of_lt_of_eq h.2.1 ho.1.symm, h.2.2.1.onward ho, fun hrequested y hy => ?_⟩
    obtain ⟨x, hx, hclosing, -⟩ := ho.2 n y hy
    exact hclosing (h.2.2.2 hrequested x hx)
  | close npt failure => exact ClosedBut.onward h ho
  | cancelProgress npt failure => exact ClosedBut.onward h ho
  | cancelError failure => exact ClosedBut.onward h ho
  | returned failure => exact ClosedBut.onward h ho
  | waiting woken => exact ⟨h.1.onward ho, h.2⟩
  | waited => exact ClosedBut.onward h ho
  | ended => exact h

theorem Session.onward (h : s.Session k l) (ho : Onward s.npts npts) : Session { s with npts } k l :=
  ⟨⟨h.loop, h.others, h.state⟩, h.place.onward ho⟩

end

theorem ClosedBut.callClose {npt : Option ℕ} (h : s.ClosedBut npt) (npt' : Option ℕ) : (s.callClose npt').ClosedBut npt :=
  h.onward (onward_callClose npt')

theorem Session.callClose (h : s.Session k l) (npt : Option ℕ) : (s.callClose npt).Session k l :=
  h.onward (onward_callClose npt)

/-! ### What a stop and the close change -/

theorem Idle.abandonSession (h : s.Idle) : s.abandonSession.Idle := by
  have hrequested : Idle { s with stopRequested := true } := ⟨h.loops, h.npts, h.state⟩
  rw [Bloc.abandonSession]
  rcases wake_cases { s with stopRequested := true } with ⟨hwake, -⟩ | ⟨k, l, -, hl, hpc, -⟩
  · rw [hwake]
    exact hrequested.onward (onward_callClose _)
  · rw [h.loops l (List.mem_of_getElem? hl)] at hpc
    cases hpc

/-- The loop that runs is kept from waiting, and its Npt, once it runs, is closing. -/
theorem Session.abandonSession (h : s.Session k l) : ∃ l, s.abandonSession.Session k l := by
  have hsole : Sole { s with stopRequested := true } k l := ⟨h.loop, h.others, h.state⟩
  have hplace := h.place
  rw [Bloc.abandonSession]
  rcases wake_cases { s with stopRequested := true } with ⟨hwake, hnot⟩ | ⟨m, x, hm, hx, hpc, hwake⟩
  · rw [hwake]
    refine ⟨l, ⟨h.loop, h.others, h.state⟩, ?_⟩
    cases hpc : l.pc with
    | waiting woken =>
      rw [hpc] at hplace
      cases woken with
      | true => exact ⟨hplace.1.callClose _, hplace.2.1, fun _ => rfl⟩
      | false => exact absurd hpc (hnot k l hplace.2.1 h.loop)
    | done n =>
      rw [hpc] at hplace
      obtain ⟨hactive, hlt, hclosed, -⟩ := hplace
      refine ⟨hactive, by rw [length_callClose]; exact hlt, hclosed.callClose _, fun _ x hx => ?_⟩
      rw [getElem?_callClose] at hx
      obtain ⟨y, -, rfl⟩ := Option.map_eq_some_iff.mp hx
      rw [if_pos hactive]
    | runInline n =>
      rw [hpc] at hplace
      exact ⟨hplace.1, by rw [length_callClose]; exact hplace.2.1, hplace.2.2.callClose _⟩
    | close npt failure =>
      rw [hpc] at hplace
      exact ClosedBut.callClose hplace _
    | cancelProgress npt failure =>
      rw [hpc] at hplace
      exact ClosedBut.callClose hplace _
    | cancelError failure =>
      rw [hpc] at hplace
      exact ClosedBut.callClose hplace _
    | returned failure =>
      rw [hpc] at hplace
      exact ClosedBut.callClose hplace _
    | waited =>
      rw [hpc] at hplace
      exact ClosedBut.callClose hplace _
    | ended =>
      rw [hpc] at hplace
      exact hplace
  · have hmk : m = k := by
      by_contra hne
      rw [h.others m x hx hne] at hpc
      cases hpc
    subst hmk
    obtain rfl := Option.some.inj (h.loop.symm.trans hx)
    rw [hpc] at hplace
    rw [hwake]
    have hwaiting : At { s with stopRequested := true } m (.waiting true) := ⟨hplace.1, hm, fun _ => rfl⟩
    exact ⟨_, (hsole.setPc hwaiting).callClose _⟩

/-! ### Where a loop's steps leave it -/

/-- The last one that was open is closed too. -/
theorem ClosedBut.of_nptIsClosed {npt : Option ℕ} (h : s.ClosedBut npt) (hisClosed : s.nptIsClosed npt = true) :
    s.ClosedBut none := by
  intro m x hx _
  cases npt with
  | none => exact h m x hx (Option.some_ne_none m)
  | some n =>
    by_cases hm : m = n
    · subst hm
      rw [nptIsClosed, hx] at hisClosed
      exact hisClosed
    · exact h m x hx fun heq => hm (Option.some.inj heq)

theorem Session.leave (h : s.Session k l) (hclosed : s.ClosedBut (some n)) (failure : Bool) :
    ∃ l, (s.leave k n failure).Session k l := by
  have hclosing : (s.callClose (some n)).Sole k l := (h.callClose (some n)).toSole
  have hplace : (s.callClose (some n)).At k (.close (some n) failure) := hclosed.callClose (some n)
  exact ⟨_, hclosing.setPc hplace⟩

theorem ClosedBut.concat (h : s.ClosedBut none) {npt : Npt} {x : Npt} (hx : (s.npts ++ [npt])[n]? = some x)
    (hne : some n ≠ some s.npts.length) : x.closed = true := by
  rcases getElem?_concat_cases hx with hx | ⟨rfl, -⟩
  · exact h n x hx (Option.some_ne_none n)
  · exact absurd rfl hne

/-- With every Npt closed, a loop can open another. -/
theorem Sole.runSession (h : s.Sole k l) (hclosed : s.ClosedBut none) (created : Bool) :
    ∃ l, (s.runSession k created).Session k l := by
  cases created with
  | false =>
    have hplace : s.At k (.close none true) := hclosed
    exact ⟨_, h.setPc hplace⟩
  | true =>
    let u : Bloc := { s with npts := s.npts ++ [⟨false, false, false⟩], activeNpt := some s.npts.length }
    have hsole : u.Sole k l := ⟨h.loop, h.others, h.state⟩
    have hlength : s.npts.length < u.npts.length := List.length_append ▸ Nat.lt_succ_self _
    have hplace : u.At k (.runInline s.npts.length) := ⟨rfl, hlength, fun n x => hclosed.concat⟩
    exact ⟨_, hsole.setPc hplace⟩

theorem Session.progress (h : s.Session k l) {profile : Profile}
    (hstep : (if s.stopRequested || s.isDone then some s else some (s.emit (.starting profile))) = some t) :
    ∃ l, t.Session k l := by
  split at hstep
  · obtain rfl := Option.some.inj hstep
    exact ⟨l, h⟩
  · obtain rfl := Option.some.inj hstep
    exact ⟨l, h.emit rfl⟩

/-- The loop that runs goes on, or it ends with every Npt closed. -/
theorem Session.loopStep (h : s.Session k l) {e : LoopEvent} (hstep : s.loopStep k l e = some t) :
    t.Idle ∨ ∃ l, t.Session k l := by
  have hplace := h.place
  unfold Bloc.loopStep at hstep
  split at hstep
  · rename_i n res hpc
    rw [hpc] at hplace
    obtain ⟨hactive, hlt, hclosed⟩ := hplace
    right
    split at hstep
    · obtain rfl := Option.some.inj hstep
      exact h.leave hclosed true
    · split at hstep
      · obtain rfl := Option.some.inj hstep
        exact h.leave hclosed false
      · rename_i hnot
        split at hstep
        · obtain rfl := Option.some.inj hstep
          exact h.leave hclosed true
        · obtain rfl := Option.some.inj hstep
          have hdone : s.At k (.done n) := ⟨hactive, hlt, hclosed, fun hrequested => absurd hrequested hnot⟩
          have hstarted : (s.emit (.started l.profile)).Session k l := h.emit rfl
          exact ⟨_, hstarted.toSole.setPc hdone⟩
  · rename_i n threw hpc
    rw [hpc] at hplace
    obtain ⟨-, rfl⟩ := of_guarded hstep
    exact .inr (h.leave hplace.2.2.1 threw)
  · rename_i npt failure hpc
    rw [hpc] at hplace
    obtain ⟨hisClosed, rfl⟩ := of_guarded hstep
    have hcancel : s.At k (.cancelProgress npt failure) := ClosedBut.of_nptIsClosed hplace hisClosed
    exact .inr ⟨_, h.toSole.setPc hcancel⟩
  · rename_i npt failure hpc
    rw [hpc] at hplace
    obtain rfl := Option.some.inj hstep
    have hcancel : s.At k (.cancelError failure) := hplace
    exact .inr ⟨_, h.toSole.setPc hcancel⟩
  · rename_i failure hpc
    rw [hpc] at hplace
    obtain rfl := Option.some.inj hstep
    have hsole : Sole { s with activeNpt := none } k l := ⟨h.loop, h.others, h.state⟩
    have hreturned : At { s with activeNpt := none } k (.returned failure) := hplace
    exact .inr ⟨_, hsole.setPc hreturned⟩
  · rename_i failure hpc
    rw [hpc] at hplace
    split at hstep
    · obtain rfl := Option.some.inj hstep
      exact .inl (h.finish hplace l.profile)
    · rename_i hnot
      split at hstep
      · left
        split at hstep
        · obtain rfl := Option.some.inj hstep
          exact h.emit_setPc hplace rfl
        · obtain rfl := Option.some.inj hstep
          exact h.finish hplace l.profile
      · obtain rfl := Option.some.inj hstep
        obtain ⟨hrequested, -⟩ := Bool.or_eq_false_iff.mp (Bool.eq_false_iff.mpr hnot)
        let u : Bloc := { s.emit (.starting l.profile) with retryWake := some k }
        have hstarting : (s.emit (.starting l.profile)).Session k l := h.emit rfl
        have hsole : u.Sole k l := ⟨hstarting.loop, hstarting.others, hstarting.state⟩
        have hwaiting : u.At k (.waiting false) := ⟨hplace, rfl, fun hu => hrequested.symm.trans hu⟩
        exact .inr ⟨_, hsole.setPc hwaiting⟩
  · rename_i hpc
    rw [hpc] at hplace
    obtain rfl := Option.some.inj hstep
    have hwaiting : s.At k (.waiting true) := ⟨hplace.1, hplace.2.1, fun _ => rfl⟩
    exact .inr ⟨_, h.toSole.setPc hwaiting⟩
  · rename_i hpc
    rw [hpc] at hplace
    obtain rfl := Option.some.inj hstep
    have hsole : Sole { s with retryWake := none } k l := ⟨h.loop, h.others, h.state⟩
    have hwaited : At { s with retryWake := none } k .waited := hplace.1
    exact .inr ⟨_, hsole.setPc hwaited⟩
  · rename_i created hpc
    rw [hpc] at hplace
    split at hstep
    · obtain rfl := Option.some.inj hstep
      exact .inl (h.finish hplace l.profile)
    · obtain rfl := Option.some.inj hstep
      have hstarting : (s.emit (.starting l.profile)).Session k l := h.emit rfl
      exact .inr (hstarting.toSole.runSession hplace created)
  · exact .inr (h.progress hstep)
  · exact .inr (h.progress hstep)
  · exact .inr (h.progress hstep)
  · exact .inr (h.progress hstep)
  · cases hstep

/-! ### Where one event leaves the bloc -/

theorem Session.active (h : s.Session k l) : s.Active := by
  refine ⟨l, List.mem_of_getElem? h.loop, fun hpc => ?_⟩
  have hplace := h.place
  rw [hpc] at hplace
  exact hplace

theorem Placed.idle (h : s.Placed) (hactive : ¬s.Active) : s.Idle := by
  rcases h with hidle | ⟨k, l, hsession⟩
  · exact hidle
  · exact absurd hsession.active hactive

/-- While events come to the handlers, outside a session's states no loop runs. -/
theorem Placed.idle_of_state (h : s.Placed) (hdone : s.isDone = false) (hstate : s.state.inSession = false) : s.Idle := by
  rcases h with hidle | ⟨k, l, hsession⟩
  · exact hidle
  · rw [hsession.state hdone] at hstate
    cases hstate

theorem Placed.inSession (h : s.Placed) (hdone : s.isDone = false) (hactive : s.Active) : s.state.inSession = true := by
  rcases h with hidle | ⟨k, l, hsession⟩
  · obtain ⟨l, hl, hpc⟩ := hactive
    exact absurd (hidle.loops l hl) hpc
  · exact hsession.state hdone

theorem Placed.count (h : s.Placed) (loads : ℕ) (saves : List Profile) : Placed { s with loads, saves } := by
  rcases h with hidle | ⟨k, l, hsession⟩
  · exact .inl ⟨hidle.loops, hidle.npts, hidle.state⟩
  · have hplace : At { s with loads, saves } k l.pc := hsession.place
    exact .inr ⟨k, l, ⟨hsession.loop, hsession.others, hsession.state⟩, hplace⟩

/-- What is not done in its new place was not done before. -/
theorem Placed.closer (h : s.Placed) {closing : Bool} {closer : Closer}
    (hdone : isDone { s with closing, closer } = false → s.isDone = false) : Placed { s with closing, closer } := by
  rcases h with hidle | ⟨k, l, hsession⟩
  · exact .inl ⟨hidle.loops, hidle.npts, fun hnot => hidle.state (hdone hnot)⟩
  · have hplace : At { s with closing, closer } k l.pc := hsession.place
    exact .inr ⟨k, l, ⟨hsession.loop, hsession.others, fun hnot => hsession.state (hdone hnot)⟩, hplace⟩

theorem Placed.onward (h : s.Placed) {npts : List Npt} (ho : Onward s.npts npts) : Placed { s with npts } := by
  rcases h with hidle | ⟨k, l, hsession⟩
  · exact .inl (hidle.onward ho)
  · exact .inr ⟨k, l, hsession.onward ho⟩

theorem Placed.abandonSession (h : s.Placed) : s.abandonSession.Placed := by
  rcases h with hidle | ⟨k, l, hsession⟩
  · exact .inl hidle.abandonSession
  · obtain ⟨l, hsession⟩ := hsession.abandonSession
    exact .inr ⟨k, l, hsession⟩

/-- A start is refused unless the bloc is idle, and then it fails, or its loop is the one that runs. -/
theorem Placed.onStart (h : s.Placed) (hdone : s.isDone = false) (ready created : Bool) :
    (s.onStart ready created).Placed := by
  unfold Bloc.onStart
  split
  · exact h
  · rename_i profile hstartable
    split
    · exact h
    · have hidle : s.Idle := h.idle_of_state hdone (ProfileState.not_inSession_of_startable hstartable)
      cases ready with
      | false =>
        exact .inl ⟨hidle.loops, hidle.npts, fun hdone => by rw [if_neg Bool.false_ne_true, state_emit hdone]; rfl⟩
      | true =>
        let u : Bloc := Bloc.emit { s with stopRequested := false } (.starting profile)
        have hsole : Sole { u with loops := u.loops ++ [⟨profile, .ended⟩] } u.loops.length ⟨profile, .ended⟩ := by
          refine ⟨List.getElem?_concat_length, fun m x hx hne => ?_, fun hu => ?_⟩
          rcases getElem?_concat_cases hx with hx | ⟨hm, -⟩
          · exact hidle.loops x (List.mem_of_getElem? hx)
          · exact absurd hm hne
          · have hstarting : u.state = .starting profile := state_emit hu
            rw [hstarting]
            rfl
        obtain ⟨l, hsession⟩ := hsole.runSession hidle.npts created
        exact .inr ⟨_, l, hsession⟩

theorem Placed.onStop (h : s.Placed) (hdone : s.isDone = false) : s.onStop.Placed := by
  rcases onStop_cases (s := s) with ⟨-, heq⟩ | ⟨profile, hstoppable, heq⟩
  · rw [heq]
    exact h
  · rw [heq]
    rcases h with hidle | ⟨k, l, hsession⟩
    · rw [ProfileState.stoppable_of_not_inSession (hidle.state hdone)] at hstoppable
      cases hstoppable
    · exact Placed.abandonSession (.inr ⟨k, l, hsession.emit rfl⟩)

theorem Placed.loopStep (h : s.Placed) {e : LoopEvent} (hl : s.loops[k]? = some l) (hstep : s.loopStep k l e = some t) :
    t.Placed := by
  have hrunning : l.pc ≠ .ended := fun hpc => by
    rw [loopStep_ended hpc] at hstep
    cases hstep
  rcases h with hidle | ⟨m, x, hsession⟩
  · exact absurd (hidle.loops l (List.mem_of_getElem? hl)) hrunning
  · by_cases hm : k = m
    · subst hm
      obtain rfl := Option.some.inj (hsession.loop.symm.trans hl)
      rcases hsession.loopStep hstep with hidle | ⟨x, hsession⟩
      · exact .inl hidle
      · exact .inr ⟨k, x, hsession⟩
    · exact absurd (hsession.others k l hl hm) hrunning

theorem Placed.step (h : s.Placed) {e : Event} (hundisturbed : Undisturbed s e) (hstep : s.step e = some t) :
    t.Placed := by
  unfold Bloc.step at hstep
  cases e with
  | load =>
    obtain ⟨-, rfl⟩ := of_guarded hstep
    have hloading : (s.emit .loading).Placed := .inl ((h.idle hundisturbed).emit rfl)
    exact hloading.count _ _
  | loadDone profile =>
    dsimp only at hstep
    split at hstep
    · cases hstep
    · obtain rfl := Option.some.inj hstep
      have hloaded : (s.emit ((profile.map .loaded).getD .failedLoad)).Placed := by
        cases profile with
        | none => exact .inl ((h.idle hundisturbed).emit rfl)
        | some profile => exact .inl ((h.idle hundisturbed).emit rfl)
      exact hloaded.count _ _
  | edit profile =>
    obtain ⟨haccepts, rfl⟩ := of_guarded hstep
    split
    · rename_i heditable
      have hidle : s.Idle := h.idle_of_state (isDone_of_acceptsEvents haccepts)
        (ProfileState.not_inSession_of_editable heditable)
      exact .inl (hidle.emit rfl)
    · exact h
  | save profile =>
    obtain ⟨-, rfl⟩ := of_guarded hstep
    have hloading : (s.emit .loading).Placed := .inl ((h.idle hundisturbed).emit rfl)
    exact hloading.count _ _
  | saveDone i ok =>
    obtain ⟨profile, -, rfl⟩ := Option.map_eq_some_iff.mp hstep
    have hsaved : (s.emit (if ok then .loaded profile else .failedSave profile)).Placed := by
      cases ok with
      | false => exact .inl ((h.idle hundisturbed).emit rfl)
      | true => exact .inl ((h.idle hundisturbed).emit rfl)
    exact hsaved.count _ _
  | start ready created =>
    obtain ⟨haccepts, rfl⟩ := of_guarded hstep
    exact h.onStart (isDone_of_acceptsEvents haccepts) ready created
  | stop =>
    obtain ⟨haccepts, rfl⟩ := of_guarded hstep
    exact h.onStop (isDone_of_acceptsEvents haccepts)
  | close =>
    obtain ⟨hcloser, rfl⟩ := of_guarded hstep
    have hclosing : Placed { s with closing := true } := h.closer id
    have hkept := kept_abandonSession (s := { s with closing := true })
    refine hclosing.abandonSession.closer fun _ => ?_
    rw [isDone, hkept.closer, hcloser]
    rfl
  | closeStep =>
    dsimp only at hstep
    split at hstep
    · rename_i npt hcloser
      obtain ⟨-, rfl⟩ := of_guarded hstep
      refine h.closer fun _ => ?_
      rw [isDone, hcloser]
      rfl
    · obtain rfl := Option.some.inj hstep
      exact h.closer fun hdone => by cases hdone
    · cases hstep
  | loop k e =>
    obtain ⟨l, hl, hstep⟩ := Option.bind_eq_some_iff.mp hstep
    exact h.loopStep hl hstep
  | nptClosed n =>
    obtain ⟨npt, hnpt, hstep⟩ := Option.bind_eq_some_iff.mp hstep
    obtain ⟨-, rfl⟩ := of_guarded hstep
    exact h.onward (onward_set hnpt id fun _ => rfl)
  | nptDone n =>
    obtain ⟨npt, hnpt, rfl⟩ := Option.map_eq_some_iff.mp hstep
    exact h.onward (onward_set hnpt id id)

theorem Inv.step (h : s.Inv) {e : Event} (hundisturbed : Undisturbed s e) (hstep : s.step e = some t) : t.Inv := by
  have hplaced := h.placed.step hundisturbed hstep
  rcases step_cases hstep with hkept | ⟨ready, created, -, rfl⟩ | ⟨-, -, rfl⟩ | ⟨-, rfl⟩ | ⟨-, hne, closer, rfl⟩
  · refine ⟨fun hclosing => ?_, fun hne => ?_, hkept.done h.done, fun profile hstopping => ?_, hplaced⟩
    · exact hkept.stopRequested.trans (h.requested (hkept.closing.symm.trans hclosing))
    · exact hkept.closing.trans (h.closer (hkept.closer ▸ hne))
    · exact hkept.stopRequested.trans (h.stopping profile (hkept.stopping profile hstopping))
  · rcases onStart_cases (s := s) ready created with heq | ⟨hstartable, hopen, hkept⟩
    · rw [heq]
      exact h
    · refine ⟨fun hclosing => ?_, fun hne => ?_, hkept.done h.done, fun profile hstopping => ?_, hplaced⟩
      · rw [hkept.closing, hopen] at hclosing
        cases hclosing
      · exact hkept.closing.trans (h.closer (hkept.closer ▸ hne))
      · have hstate : s.state = .stopping profile := hkept.stopping profile hstopping
        rw [hstate] at hstartable
        cases hstartable
  · rcases onStop_cases (s := s) with ⟨-, heq⟩ | ⟨profile, -, heq⟩
    · rw [heq]
      exact h
    · rw [heq] at hplaced ⊢
      have hkept := kept_abandonSession (s := s.emit (.stopping profile))
      exact ⟨fun _ => hkept.stopRequested, fun hne => hkept.closing.trans (h.closer (hkept.closer ▸ hne)),
        hkept.done h.done, fun _ _ => hkept.stopRequested, hplaced⟩
  · have hkept := kept_abandonSession (s := { s with closing := true })
    exact ⟨fun _ => hkept.stopRequested, fun _ => hkept.closing, hkept.done h.done, fun _ _ => hkept.stopRequested, hplaced⟩
  · exact ⟨h.requested, fun _ => h.closer hne, h.done, h.stopping, hplaced⟩

/-! ### Where a run leaves the bloc -/

theorem inv_initial : initial.Inv :=
  ⟨(fun h => by cases h), fun h => absurd rfl h, (fun x h => by cases h), (fun _ h => by cases h),
    .inl ⟨(fun l h => by cases h), (fun n x h => by cases h), fun _ => rfl⟩⟩

theorem inv_of_run {es : List Event} (hg : machine.Meets Undisturbed initial es) (hr : machine.run initial es = some t) : t.Inv :=
  machine.invariant_of_meets (fun _ _ _ h hundisturbed hstep => h.step hundisturbed hstep) inv_initial hg hr

theorem Placed.one (h : s.Placed) {m n : ℕ} {x y : Npt} (hx : s.npts[m]? = some x)
    (hy : s.npts[n]? = some y) (hxopen : x.closed = false) (hyopen : y.closed = false) : m = n := by
  obtain ⟨npt, hclosed⟩ : ∃ npt, s.ClosedBut npt := by
    rcases h with hidle | ⟨k, l, hsession⟩
    · exact ⟨none, hidle.npts⟩
    · have hplace := hsession.place
      cases hpc : l.pc with
      | runInline n =>
        rw [hpc] at hplace
        exact ⟨some n, hplace.2.2⟩
      | done n =>
        rw [hpc] at hplace
        exact ⟨some n, hplace.2.2.1⟩
      | close npt failure =>
        rw [hpc] at hplace
        exact ⟨npt, hplace⟩
      | cancelProgress npt failure =>
        rw [hpc] at hplace
        exact ⟨none, hplace⟩
      | cancelError failure =>
        rw [hpc] at hplace
        exact ⟨none, hplace⟩
      | returned failure =>
        rw [hpc] at hplace
        exact ⟨none, hplace⟩
      | waiting woken =>
        rw [hpc] at hplace
        exact ⟨none, hplace.1⟩
      | waited =>
        rw [hpc] at hplace
        exact ⟨none, hplace⟩
      | ended =>
        rw [hpc] at hplace
        exact hplace.elim
  have hm : some m = npt := by
    by_contra hne
    exact Bool.false_ne_true (hxopen.symm.trans (hclosed m x hx hne))
  have hn : some n = npt := by
    by_contra hne
    exact Bool.false_ne_true (hyopen.symm.trans (hclosed n y hy hne))
  exact Option.some.inj (hm.trans hn.symm)

/-- Once a stop is requested and all that is left to come has come, no loop is waiting: a running session's Npt is
closing, and one that is closed has ended its session. -/
theorem Inv.over (h : s.Inv) (hrequested : s.stopRequested = true) (hsettled : s.Settled) : s.Over := by
  rcases h.placed with hidle | ⟨k, l, hsession⟩
  · refine ⟨fun npt hnpt => ?_, fun l hl woken hpc => ?_, fun profile hstopping => ?_⟩
    · obtain ⟨n, hn⟩ := List.getElem?_of_mem hnpt
      exact hidle.npts n npt hn (Option.some_ne_none n)
    · rw [hidle.loops l hl] at hpc
      cases hpc
    · by_contra hnot
      have hstate := hidle.state (Bool.eq_false_iff.mpr hnot)
      rw [hstopping] at hstate
      cases hstate
  · have hplace := hsession.place
    rcases hsettled.loops l (List.mem_of_getElem? hsession.loop) with hpc | hpc | ⟨n, hpc, hdone⟩
    · rw [hpc] at hplace
      exact hplace.elim
    · rw [hpc] at hplace
      exact absurd (hplace.2.2 hrequested) Bool.false_ne_true
    · rw [hpc] at hplace
      obtain ⟨-, hlt, -, hclosing⟩ := hplace
      have hn : s.npts[n]? = some s.npts[n] := List.getElem?_eq_getElem hlt
      have hmem : s.npts[n] ∈ s.npts := List.getElem_mem hlt
      have hclosed := hsettled.npts _ hmem (hclosing hrequested _ hn)
      rw [hn, Option.map_some, h.done _ hmem hclosed] at hdone
      cases hdone

theorem length_of_run {es : List Event} (hclosing : s.closing = true) (hrequested : s.stopRequested = true)
    (hr : machine.run s es = some t) : t.npts.length = s.npts.length := by
  have hrun : t.closing = true ∧ t.stopRequested = true ∧ t.npts.length = s.npts.length := by
    refine machine.invariant (I := fun t => t.closing = true ∧ t.stopRequested = true ∧ t.npts.length = s.npts.length)
      (fun u e v hu hstep => ?_) ⟨hclosing, hrequested, rfl⟩ hr
    obtain ⟨hvclosing, hvrequested, hlength⟩ := closing_of_step hstep hu.1 hu.2.1
    exact ⟨hvclosing, hvrequested, hlength.trans hu.2.2⟩
  exact hrun.2.2

/-- A stop that comes while a session is under way is requested until the next start. -/
theorem stopRequested_of_run {pre post : List Event} {u : Bloc} (hg : machine.Meets Undisturbed initial (pre ++ .stop :: post))
    (hr : machine.run initial (pre ++ .stop :: post) = some t) (hu : machine.run initial pre = some u)
    (hactive : u.Active)
    (hpost : ∀ ready created, .start ready created ∉ post) : t.stopRequested = true := by
  have hinv : u.Inv := inv_of_run (machine.meets_append.mp hg).1 hu
  rw [machine.run_append, hu, Option.bind_some, machine.run_cons] at hr
  obtain ⟨v, hv, hr⟩ := Option.bind_eq_some_iff.mp hr
  obtain ⟨haccepts, rfl⟩ := stop_of_step hv
  have hstate := hinv.placed.inSession (isDone_of_acceptsEvents haccepts) hactive
  have hstopped : u.onStop.stopRequested = true := by
    rcases onStop_cases (s := u) with ⟨hnot, heq⟩ | ⟨profile, -, heq⟩
    · rw [heq]
      obtain ⟨profile, hstopping⟩ := ProfileState.stopping_of_inSession hstate hnot
      exact hinv.stopping profile hstopping
    · rw [heq]
      exact kept_abandonSession.stopRequested
  refine machine.invariant_of_meets (G := fun _ e => ∀ ready created, e ≠ .start ready created)
    (I := fun t => t.stopRequested = true) (fun _ _ _ h he hstep => stopRequested_of_step hstep he h) hstopped ?_ hr
  refine machine.meets_of_forall (fun e he _ ready created heq => ?_) _
  rw [heq] at he
  exact hpost ready created he

theorem stop_mem_of_run {es : List Event} {profile : Profile} (hr : machine.run initial es = some t)
    (hstopping : t.state = .stopping profile) : .stop ∈ es := by
  refine machine.run_induction (I := fun es t => t.state = .stopping profile → .stop ∈ es) (fun h => by cases h)
    (fun es e u v _ ih hstep hv => ?_) hr hstopping
  by_cases he : e = .stop
  · rw [he]
    exact List.mem_append_right es (List.mem_singleton_self _)
  · exact List.mem_append_left _ (ih (stopping_of_step hstep he hv))

theorem stopping_of_run {es : List Event} {profile : Profile} (hg : machine.Meets Undisturbed initial es)
    (hr : machine.run initial es = some t) (hstopping : t.state = .stopping profile) (hdone : t.isDone = true) :
    machine.At initial es fun u e => e = .closeStep ∧ u.closer = .noEvents ∧ u.state = .stopping profile ∧ u.Active := by
  refine machine.run_induction_of_meets (I := fun es t => t.Inv ∧ (t.state = .stopping profile → t.isDone = true →
    machine.At initial es fun u e => e = .closeStep ∧ u.closer = .noEvents ∧ u.state = .stopping profile ∧ u.Active))
    ⟨inv_initial, fun h => by cases h⟩ (fun es e u v hu ih hundisturbed hstep => ?_) hg hr |>.2 hstopping hdone
  refine ⟨ih.1.step hundisturbed hstep, fun hv hvdone => ?_⟩
  cases hudone : u.isDone with
  | false =>
    obtain ⟨rfl, hcloser, hstate⟩ := isDone_of_step hstep hudone hvdone
    have hustate := hstate.symm.trans hv
    refine .now hu ⟨rfl, hcloser, hustate, ?_⟩
    rcases ih.1.placed with hidle | ⟨k, l, hsession⟩
    · have hnot := hidle.state hudone
      rw [hustate] at hnot
      cases hnot
    · exact hsession.active
  | true =>
    have he : e ≠ .stop := fun heq => by
      rw [heq] at hstep
      exact Bool.false_ne_true ((isDone_of_acceptsEvents (stop_of_step hstep).1).symm.trans hudone)
    exact (ih.2 (stopping_of_step hstep he hv) hudone).later e

end Bloc

theorem oneSession_of_undisturbed {es : List Event} {t : Bloc} (hundisturbed : machine.Meets Undisturbed initial es)
    (hr : machine.run initial es = some t) : OneSession es t := by
  have hinv := Bloc.inv_of_run hundisturbed hr
  refine ⟨fun m n x y hx hy => hinv.placed.one hx hy, fun hclosing fs u hu => ?_, fun hclosing => ?_,
    fun hstop => ?_, fun profile hstopping hdone => ?_⟩
  · exact Bloc.length_of_run hclosing (hinv.requested hclosing) hu
  · exact hinv.over (hinv.requested hclosing)
  · obtain ⟨pre, post, u, rfl, hu, hactive, hpost⟩ := hstop
    exact hinv.over (Bloc.stopRequested_of_run hundisturbed hr hu hactive hpost)
  · exact ⟨Bloc.stop_mem_of_run hr hstopping, Bloc.stopping_of_run hundisturbed hr hstopping hdone⟩

/-- A session that ends of itself, and a stop while the next one is waited for; then a save, a start that meets
another, and a close. -/
def waited : List Event :=
  [.load, .loadDone (some ⟨true⟩), .start true true, .loop 0 (.runInline (.connector false)), .nptDone 0,
    .loop 0 (.done false), .nptClosed 0, .loop 0 .unwind, .loop 0 .unwind, .loop 0 .unwind, .loop 0 .resume, .stop,
    .loop 0 .wake, .loop 0 (.retry true), .save ⟨false⟩, .saveDone 0 true, .start true true, .start true true, .close]

theorem oneSession_waited : ∃ t, machine.run initial waited = some t ∧ t.npts.map Npt.closed = [true, false] ∧
    OneSession waited t := by
  have hmeets : machine.Meets Undisturbed initial waited := by decide +kernel
  exact ⟨_, rfl, rfl, oneSession_of_undisturbed hmeets rfl⟩

/-- A load during a session leaves the bloc as startable as any, and one that is not starting or started: the next
start opens a second Npt, and a stop is refused. And a startup that is stopped while the bloc closes fails when the
emitters are done. -/
theorem oneSession_fails :
    (∃ t, machine.run initial [.load, .loadDone (some ⟨true⟩), .start true true, .load, .loadDone (some ⟨true⟩),
      .start true true] = some t ∧ t.npts.map Npt.closed = [false, false]) ∧
    (∃ t, machine.run initial [.load, .loadDone (some ⟨true⟩), .start true true, .loop 0 (.runInline (.connector false)),
      .load, .loadDone (some ⟨true⟩), .stop] = some t ∧ t.Settled ∧ t.npts.map Npt.closed = [false]) ∧
    ∃ t, machine.run initial [.load, .loadDone (some ⟨true⟩), .start true true, .stop, .close, .nptClosed 0, .closeStep,
      .closeStep, .loop 0 (.runInline .throw), .loop 0 .unwind, .loop 0 .unwind, .loop 0 .unwind, .loop 0 .resume] = some t ∧
      t.closing = true ∧ t.Settled ∧ t.state = .stopping ⟨true⟩ := by
  refine ⟨⟨_, rfl, rfl⟩, ⟨_, rfl, ⟨fun l hl => ?_, fun npt hnpt hclosing => ?_, rfl, rfl, .inl rfl⟩, rfl⟩,
    _, rfl, rfl, ⟨fun l hl => ?_, fun npt hnpt _ => ?_, rfl, rfl, .inr rfl⟩, rfl⟩
  · rw [List.mem_singleton.mp hl]
    exact .inr (.inr ⟨0, rfl, rfl⟩)
  · rw [List.mem_singleton.mp hnpt] at hclosing
    cases hclosing
  · rw [List.mem_singleton.mp hl]
    exact .inl rfl
  · rw [List.mem_singleton.mp hnpt]

end NoPorts.ProfileBloc
