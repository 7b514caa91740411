import NoPorts.ArduinoRelaySub

/-! What a sub-connection of the Arduino relay has sent on when it closes because a peer has. -/
namespace NoPorts.ArduinoRelay
open Lib
namespace RelaySub

/-- The sub has been closed for what was found at its sockets. -/
def ClosedItself (s : RelaySub) : Prop :=
  s.closedBy = some .peer_closed ∨ s.closedBy = some .reclaimed ∨ s.closedBy = some .drained

/-- Everything that a peer has sent that has closed its side has been sent on. -/
def Delivered (encrypted : Bool) (k : Dir → Keystream UInt8) (s : RelaySub) : Prop :=
  s.ClosedItself → ∀ d, (s.socket d).fin = true →
    (s.flow d).sent = (stream encrypted k d).crypt 0 (s.socket d).arrived

/-- The direction that a step serves. -/
def serving (s : RelaySub) : Event → Option (Dir × Io)
  | .first io => some (if s.draining then .toLocal else s.firstDir, io)
  | .second io =>
    match s.pc with
    | .drainRvd _ => some (.toRvd, io)
    | _ => some (s.secondDir, io)
  | _ => none

/-- No send fails. -/
def SendsOk (s : RelaySub) (e : Event) : Prop :=
  ∀ d io, s.serving e = some (d, io) → ((s.flow d).pending ≠ [] → io.flush ≠ none) ∧
    (SendsFresh (s.flow d) (s.socket d) io → io.fresh ≠ none)

/-- The step closes the sub, a peer having closed. -/
def ClosesItself (s : RelaySub) : Event → Prop
  | .check => ∃ rvd_closed, s.pc = .checkLocal rvd_closed ∧ (rvd_closed || (s.socket .toRvd).closed) = true
  | .reclaim => True
  | _ => False

/-- A peer that has closed its side has left nothing pending or unread when the sub is closed. -/
def Flushed (s : RelaySub) (e : Event) : Prop :=
  s.ClosesItself e → ∀ d, (s.socket d).fin = true → (s.flow d).pending = [] ∧ (s.socket d).unread = []

/-! ### Without a failed send the sub never drains -/

structure Quiet (s : RelaySub) : Prop where
  draining : s.draining = false
  drainRvd : ∀ moved, s.pc ≠ .drainRvd moved
  drainCheck : ∀ moved, s.pc ≠ .drainCheck moved
  closedBy : s.active = true → s.closedBy = none

variable {host : MbedHost} {encrypted : Bool} {k : Dir → Keystream UInt8} {state : Dir → AesCtr} {s s' : RelaySub}

theorem SendsOk.keepsFresh {e : Event} (h : SendsOk s e) : KeepsFresh s e := by
  cases e with
  | first io =>
    intro hdraining
    have hserving : s.serving (.first io) = some (s.firstDir, io) := by
      rw [serving, hdraining]
      rfl
    exact (h _ _ hserving).2
  | second io =>
    intro hpc
    have hserving : s.serving (.second io) = some (s.secondDir, io) := by
      rw [serving, hpc]
    exact (h _ _ hserving).2
  | arrive | fin | broken | check | drain_cap | reclaim | close => exact trivial

/-- What a step does to a sub that is not draining. -/
theorem step_cases (hquiet : Quiet s) {e : Event} (hstep : s.step host encrypted e = some s') :
    s.active = true ∧
    ((∃ d socket, s' = { s with socket := Function.update s.socket d socket } ∧ s.serving e = none ∧
      ¬s.ClosesItself e) ∨
    (∃ d io r dir_flip pc, s.serving e = some (d, io) ∧
      service (crypt host encrypted) (s.flow d) (s.socket d) io = some r ∧
      (pc = .second ∨ pc = .checkRvd) ∧ s' = { s.put d r with draining := r.failed, dir_flip, pc } ∧
      ¬s.ClosesItself e) ∨
    (∃ pc, (pc = .idle ∨ ∃ rvd_closed, pc = .checkLocal rvd_closed) ∧ s' = { s with pc } ∧ s.serving e = none ∧
      ¬s.ClosesItself e) ∨
    (∃ cause, s' = s.close cause ∧ s.serving e = none ∧ (s'.ClosedItself ↔ s.ClosesItself e))) := by
  have hcloses {cause : Cause} : (s.close cause).ClosedItself ↔
      cause = .peer_closed ∨ cause = .reclaimed ∨ cause = .drained := by
    simp only [ClosedItself, RelaySub.close, Option.some.injEq]
  cases e with
  | arrive d data =>
    obtain ⟨_, hguard, hstep⟩ := Option.bind_eq_some_iff.mp hstep
    obtain rfl := Option.some.inj hstep
    exact ⟨((Option.guard_eq_some' _).mp hguard).1, Or.inl ⟨d, _, rfl, rfl, id⟩⟩
  | fin d =>
    obtain ⟨_, hguard, hstep⟩ := Option.bind_eq_some_iff.mp hstep
    obtain rfl := Option.some.inj hstep
    exact ⟨(Option.guard_eq_some' _).mp hguard, Or.inl ⟨d, _, rfl, rfl, id⟩⟩
  | broken d =>
    obtain ⟨_, hguard, hstep⟩ := Option.bind_eq_some_iff.mp hstep
    obtain rfl := Option.some.inj hstep
    exact ⟨(Option.guard_eq_some' _).mp hguard, Or.inl ⟨d, _, rfl, rfl, id⟩⟩
  | first io =>
    obtain ⟨_, hguard, hstep⟩ := Option.bind_eq_some_iff.mp hstep
    refine ⟨((Option.guard_eq_some' _).mp hguard).1, Or.inr (Or.inl ?_)⟩
    rw [RelaySub.onFirst, hquiet.draining] at hstep
    obtain ⟨r, hr, hstep⟩ := Option.bind_eq_some_iff.mp hstep
    obtain rfl := Option.some.inj hstep
    refine ⟨s.firstDir, io, r, s.dir_flip, .second, ?_, hr, Or.inl rfl, rfl, id⟩
    rw [serving, hquiet.draining]
    rfl
  | second io =>
    obtain ⟨_, hguard, hstep⟩ := Option.bind_eq_some_iff.mp hstep
    refine ⟨(Option.guard_eq_some' _).mp hguard, Or.inr (Or.inl ?_)⟩
    rw [RelaySub.onSecond] at hstep
    split at hstep
    · rename_i moved hpc
      exact absurd hpc (hquiet.drainRvd moved)
    · rename_i hpc
      obtain ⟨r, hr, hstep⟩ := Option.bind_eq_some_iff.mp hstep
      obtain rfl := Option.some.inj hstep
      refine ⟨s.secondDir, io, r, !s.dir_flip, .checkRvd, ?_, hr, Or.inr rfl, ?_, id⟩
      · rw [serving, hpc]
      · rw [hquiet.draining, Bool.false_or]
    · cases hstep
  | check =>
    obtain ⟨_, hguard, hstep⟩ := Option.bind_eq_some_iff.mp hstep
    refine ⟨(Option.guard_eq_some' _).mp hguard, Or.inr (Or.inr ?_)⟩
    rw [RelaySub.onCheck] at hstep
    split at hstep
    · rename_i hpc
      obtain rfl := Option.some.inj hstep
      refine Or.inl ⟨_, Or.inr ⟨_, rfl⟩, rfl, rfl, ?_⟩
      rintro ⟨rvd_closed, hpc', -⟩
      rw [hpc] at hpc'
      cases hpc'
    · rename_i rvd_closed hpc
      obtain rfl := Option.some.inj hstep
      by_cases hclosed : (rvd_closed || (s.socket .toRvd).closed) = true
      · rw [if_pos hclosed]
        refine Or.inr ⟨_, rfl, rfl, hcloses.trans (iff_of_true (Or.inl rfl) ⟨rvd_closed, hpc, hclosed⟩)⟩
      · rw [if_neg hclosed]
        refine Or.inl ⟨_, Or.inl rfl, rfl, rfl, ?_⟩
        rintro ⟨rvd_closed', hpc', hclosed'⟩
        rw [hpc] at hpc'
        obtain rfl := Pc.checkLocal.inj hpc'
        exact hclosed hclosed'
    · rename_i moved hpc
      exact absurd hpc (hquiet.drainCheck moved)
    · cases hstep
  | drain_cap =>
    obtain ⟨_, hguard, hstep⟩ := Option.bind_eq_some_iff.mp hstep
    have hdraining := ((Option.guard_eq_some' _).mp hguard).2.2
    rw [hquiet.draining] at hdraining
    cases hdraining
  | reclaim =>
    obtain ⟨_, hguard, hstep⟩ := Option.bind_eq_some_iff.mp hstep
    obtain rfl := Option.some.inj hstep
    exact ⟨((Option.guard_eq_some' _).mp hguard).1, Or.inr (Or.inr (Or.inr ⟨_, rfl, rfl,
      hcloses.trans (iff_of_true (Or.inr (Or.inl rfl)) trivial)⟩))⟩
  | close =>
    obtain ⟨_, hguard, hstep⟩ := Option.bind_eq_some_iff.mp hstep
    obtain rfl := Option.some.inj hstep
    refine ⟨((Option.guard_eq_some' _).mp hguard).1, Or.inr (Or.inr (Or.inr ⟨_, rfl, rfl,
      hcloses.trans (iff_of_false ?_ id)⟩))⟩
    rintro (hc | hc | hc) <;> cases hc

theorem Quiet.step (h : Quiet s) (hinv : Inv host encrypted k state s) (hk : Keyed host encrypted k state)
    {e : Event} (hsends : SendsOk s e) (hstep : s.step host encrypted e = some s') : Quiet s' := by
  obtain ⟨hactive, hcases⟩ := step_cases h hstep
  rcases hcases with ⟨d, socket, rfl, -, -⟩ | ⟨d, io, r, dir_flip, pc, hserving, hr, hpc, rfl, -⟩ |
    ⟨pc, hpc, rfl, -, -⟩ | ⟨cause, rfl, -, -⟩
  · exact ⟨h.draining, h.drainRvd, h.drainCheck, h.closedBy⟩
  · obtain ⟨hflush, hfresh⟩ := hsends d io hserving
    have hpassed := hinv.service hk hactive hr
    have hfailed : r.failed = false := by
      rw [Bool.eq_false_iff]
      intro hfailed
      rcases hpassed.failed hfailed with ⟨hpending, hnone⟩ | ⟨hsf, hnone⟩
      · exact hflush hpending hnone
      · exact hfresh hsf hnone
    refine ⟨hfailed, fun moved hn => ?_, fun moved hn => ?_, h.closedBy⟩
    · rcases hpc with rfl | rfl <;> cases hn
    · rcases hpc with rfl | rfl <;> cases hn
  · refine ⟨h.draining, fun moved hn => ?_, fun moved hn => ?_, h.closedBy⟩
    · rcases hpc with rfl | ⟨rvd_closed, rfl⟩ <;> cases hn
    · rcases hpc with rfl | ⟨rvd_closed, rfl⟩ <;> cases hn
  · exact ⟨rfl, fun moved hn => (by cases hn), fun moved hn => (by cases hn), fun ha => (by cases ha)⟩

theorem quiet_run (hk : Keyed host encrypted k state) {es : List Event} {t : RelaySub}
    (hsends : (machine host encrypted).Meets SendsOk (connected state) es)
    (hr : (machine host encrypted).run (connected state) es = some t) :
    Inv host encrypted k state t ∧ Quiet t := by
  apply Machine.invariant_of_meets (machine host encrypted) (I := fun s => Inv host encrypted k state s ∧ Quiet s)
    _ _ hsends hr
  · rintro s e s' ⟨hinv, hquiet⟩ hsends hstep
    exact ⟨hinv.step hk hsends.keepsFresh hstep, hquiet.step hinv hk hsends hstep⟩
  · refine ⟨inv_connected state, rfl, fun moved hn => (by cases hn), fun moved hn => (by cases hn), fun _ => rfl⟩

/-! ### Runs -/

/-- Everything that has come has been sent on when nothing is pending and nothing unread. -/
theorem Inv.sent_eq_iff (h : Inv host encrypted k state s) (hk : Keyed host encrypted k state)
    (hactive : s.active = true) (d : Dir) :
    (s.flow d).sent = (stream encrypted k d).crypt 0 (s.socket d).arrived ↔
      (s.flow d).pending = [] ∧ (s.socket d).unread = [] := by
  have hsent := (h.whole hactive d).sent_eq (hk.follows d)
  have hread := h.intact.read d
  constructor
  · intro hall
    have hsentLength := congrArg List.length hsent
    have hreadLength := congrArg List.length hread
    have hallLength := congrArg List.length hall
    rw [List.length_append, Keystream.length_crypt] at hsentLength
    rw [List.length_append] at hreadLength
    rw [Keystream.length_crypt] at hallLength
    constructor
    · apply List.eq_nil_of_length_eq_zero
      omega
    · apply List.eq_nil_of_length_eq_zero
      omega
  · rintro ⟨hpending, hunread⟩
    rw [hpending, List.append_nil] at hsent
    rw [hunread, List.append_nil] at hread
    rw [hsent, hread]

/-- A step of an active sub delivers what it should exactly when it leaves nothing behind. -/
theorem Inv.delivered_step_iff (h : Inv host encrypted k state s) (hk : Keyed host encrypted k state)
    (hquiet : Quiet s) {e : Event} (hstep : s.step host encrypted e = some s') :
    Delivered encrypted k s' ↔ Flushed s e := by
  obtain ⟨hactive, hcases⟩ := step_cases hquiet hstep
  have hopen (hclosedBy : s'.closedBy = none) (hnot : ¬s.ClosesItself e) :
      Delivered encrypted k s' ↔ Flushed s e := by
    refine iff_of_true (fun hclosed => ?_) fun hcloses => absurd hcloses hnot
    rcases hclosed with hc | hc | hc <;> rw [hclosedBy] at hc <;> cases hc
  rcases hcases with ⟨d, socket, rfl, -, hnot⟩ | ⟨d, io, r, dir_flip, pc, -, hr, -, rfl, hnot⟩ |
    ⟨pc, -, rfl, -, hnot⟩ | ⟨cause, rfl, -, hcloses⟩
  · exact hopen (hquiet.closedBy hactive) hnot
  · exact hopen (hquiet.closedBy hactive) hnot
  · exact hopen (hquiet.closedBy hactive) hnot
  · constructor
    · intro hdelivered hcloses' d hfin
      exact (h.sent_eq_iff hk hactive d).mp (hdelivered (hcloses.mpr hcloses') d hfin)
    · intro hflushed hclosed d hfin
      exact (h.sent_eq_iff hk hactive d).mpr (hflushed (hcloses.mp hclosed) d hfin)

theorem delivered_iff (hk : Keyed host encrypted k state) {es : List Event} {t : RelaySub}
    (hsends : (machine host encrypted).Meets SendsOk (connected state) es)
    (hr : (machine host encrypted).run (connected state) es = some t) :
    Delivered encrypted k t ↔ (machine host encrypted).Meets Flushed (connected state) es := by
  induction es using List.reverseRecOn generalizing t with
  | nil =>
    obtain rfl := Option.some.inj hr
    refine iff_of_true (fun hclosed => ?_) trivial
    rcases hclosed with hc | hc | hc <;> cases hc
  | append_singleton es e ih =>
    obtain ⟨u, hu, hstep⟩ := (machine host encrypted).run_concat hr
    obtain ⟨hes, -⟩ := (machine host encrypted).meets_concat.mp hsends
    obtain ⟨hinv, hquiet⟩ := quiet_run hk hes hu
    -- the sub is open until its last step, so nothing is promised before it
    have hbefore : Delivered encrypted k u := by
      intro hclosed
      have hnone := hquiet.closedBy (step_cases hquiet hstep).1
      rcases hclosed with hc | hc | hc <;> rw [hnone] at hc <;> cases hc
    rw [hinv.delivered_step_iff hk hquiet hstep, (machine host encrypted).meets_concat]
    constructor
    · intro hflushed
      refine ⟨(ih hes hu).mp hbefore, fun u' hu' => ?_⟩
      obtain rfl := Option.some.inj (hu.symm.trans hu')
      exact hflushed
    · intro hmeets
      exact hmeets.2 u hu

/-! ### A peer that closes while a send is partial, and one that closes after it -/

/-- The peer closes after the first of its three bytes has been sent. -/
def closedEarly : List Event :=
  [.arrive .toLocal [1, 2, 3], .first ⟨none, 3, some 1⟩, .fin .toLocal, .second ⟨none, 0, some 0⟩, .check, .check]

theorem bytes_left : ∃ t, (machine sampleHost true).run (connected sampleState) closedEarly = some t ∧
    t.closedBy = some .peer_closed ∧ (t.socket .toLocal).arrived = [1, 2, 3] ∧
    (t.flow .toLocal).sent = zeroStream.crypt 0 [1] ∧ ¬Delivered true (fun _ => zeroStream) t := by
  refine ⟨_, rfl, rfl, rfl, rfl, fun h => ?_⟩
  have hall := h (Or.inl rfl) .toLocal rfl
  revert hall
  decide

def closedLater : List Event :=
  [.arrive .toLocal [1, 2, 3], .first ⟨some 0, 3, some 1⟩, .second ⟨some 0, 0, some 0⟩, .check, .check,
    .first ⟨some 0, 0, some 0⟩, .second ⟨some 2, 0, some 0⟩, .fin .toLocal, .check, .check]

theorem sendsOk_of_some {e : Event} (h : ∀ io, e = .first io ∨ e = .second io → io.flush ≠ none ∧ io.fresh ≠ none)
    (s : RelaySub) : SendsOk s e := by
  intro d io hserving
  have hio : io.flush ≠ none ∧ io.fresh ≠ none := by
    cases e with
    | first io' =>
      obtain ⟨-, rfl⟩ := Prod.mk.inj (Option.some.inj hserving)
      exact h io' (Or.inl rfl)
    | second io' =>
      rw [serving] at hserving
      split at hserving
      · obtain ⟨-, rfl⟩ := Prod.mk.inj (Option.some.inj hserving)
        exact h io' (Or.inr rfl)
      · obtain ⟨-, rfl⟩ := Prod.mk.inj (Option.some.inj hserving)
        exact h io' (Or.inr rfl)
    | arrive | fin | broken | check | drain_cap | reclaim | close => cases hserving
  exact ⟨fun _ => hio.1, fun _ => hio.2⟩

theorem delivered_iff_sample : ∃ t,
    (machine sampleHost true).run (connected sampleState) closedLater = some t ∧
    t.closedBy = some .peer_closed ∧ (t.flow .toLocal).sent = zeroStream.crypt 0 [1, 2, 3] ∧
    (machine sampleHost true).Meets Flushed (connected sampleState) closedLater := by
  have hrun : (machine sampleHost true).run (connected sampleState) closedLater = some _ := rfl
  have hsends : (machine sampleHost true).Meets SendsOk (connected sampleState) closedLater := by
    apply Machine.meets_of_forall
    intro e he
    apply sendsOk_of_some
    rintro io hio
    simp only [closedLater, List.mem_cons, List.not_mem_nil, or_false] at he
    rcases he with rfl | rfl | rfl | rfl | rfl | rfl | rfl | rfl | rfl | rfl <;>
      rcases hio with hio | hio <;> cases hio <;> exact ⟨Option.some_ne_none _, Option.some_ne_none _⟩
  refine ⟨_, hrun, rfl, rfl, (delivered_iff sample_keyed hsends hrun).mp ?_⟩
  intro _ d hfin
  cases d with
  | toLocal => rfl
  | toRvd => cases hfin

end RelaySub
end NoPorts.ArduinoRelay
