import NoPorts.Lib.Machine

/-! Cooperative tasks over shared data, one lock among them. A task is its
program counter and moves only when it is resumed; it then runs to its next
suspension in one step. -/
namespace NoPorts.Lib

structure Locked (σ π ι : Type*) where
  /-- Suspended on the acquisition of the lock. -/
  waits : π → Bool
  /-- Suspended while holding the lock. -/
  holds : π → Bool
  resume : σ → π → ι → Option (σ × π)

namespace Locked
variable {σ π ι : Type*} (L : Locked σ π ι)

structure State (σ π : Type*) where
  shared : σ
  tasks : List π

/-- Any task may be resumed next; one that waits for the lock only when no
task holds it, whichever of the waiting ones it is. -/
def step (s : State σ π) (e : ℕ × ι) : Option (State σ π) :=
  (s.tasks[e.1]?).bind fun pc =>
    if L.waits pc && s.tasks.any L.holds then none
    else (L.resume s.shared pc e.2).map fun r => ⟨r.1, s.tasks.set e.1 r.2⟩

def machine : Machine (State σ π) (ℕ × ι) := ⟨L.step⟩

theorem step_some {s t : State σ π} {e : ℕ × ι} (h : L.step s e = some t) :
    ∃ pc r, s.tasks[e.1]? = some pc ∧ (L.waits pc = true → ∀ q ∈ s.tasks, L.holds q = false) ∧
      L.resume s.shared pc e.2 = some r ∧ t = ⟨r.1, s.tasks.set e.1 r.2⟩ := by
  obtain ⟨pc, hpc, h⟩ := Option.bind_eq_some_iff.mp h
  split at h
  · cases h
  · rename_i hf
    obtain ⟨r, hr, rfl⟩ := Option.map_eq_some_iff.mp h
    refine ⟨pc, r, hpc, fun hw q hq => ?_, hr, rfl⟩
    simpa using fun hh : L.holds q = true => hf (by simpa [hw] using ⟨q, hq, hh⟩)

/-- The data invariant `I` together with the assertion `A` of whichever task
holds the lock, which is one task at most. -/
structure Owned (I : σ → Prop) (A : σ → π → Prop) (s : State σ π) : Prop where
  data : I s.shared
  holder : ∀ (i : ℕ) pc, s.tasks[i]? = some pc → L.holds pc = true → A s.shared pc
  single : ∀ (i j : ℕ) p q, s.tasks[i]? = some p → s.tasks[j]? = some q →
    L.holds p = true → L.holds q = true → i = j

/-- What a resumption must keep. A task away from the lock stays away and spoils
no assertion; one at or behind it may assume `I`, and `A` once it holds the lock. -/
structure Keeps (I : σ → Prop) (A : σ → π → Prop) : Prop where
  frame : ∀ s pc x s' pc', L.resume s pc x = some (s', pc') → L.waits pc = false →
    L.holds pc = false → L.holds pc' = false ∧ (I s → I s') ∧ ∀ q, A s q → A s' q
  locked : ∀ s pc x s' pc', L.resume s pc x = some (s', pc') → I s →
    (L.waits pc = true ∨ L.holds pc = true ∧ A s pc) → I s' ∧ (L.holds pc' = true → A s' pc')

theorem owned_step {I : σ → Prop} {A : σ → π → Prop} (hk : L.Keeps I A)
    {s t : State σ π} {e : ℕ × ι} (hs : L.Owned I A s) (h : L.step s e = some t) :
    L.Owned I A t := by
  obtain ⟨pc, ⟨s', pc'⟩, hpc, hw, hr, rfl⟩ := L.step_some h
  by_cases hfree : L.waits pc = false ∧ L.holds pc = false
  · obtain ⟨hh, hI, hA⟩ := hk.frame _ _ _ _ _ hr hfree.1 hfree.2
    have hold (j : ℕ) (q : π) (hq : (s.tasks.set e.1 pc')[j]? = some q)
        (hq' : L.holds q = true) : s.tasks[j]? = some q := by
      rcases getElem?_set_cases hq with ⟨-, rfl⟩ | ⟨-, hj⟩
      · simp [hh] at hq'
      · exact hj
    exact ⟨hI hs.data, fun j q hq hq' => hA q (hs.holder j q (hold j q hq hq') hq'),
      fun i j p q hp hq hp' hq' => hs.single i j p q (hold i p hp hp') (hold j q hq hq') hp' hq'⟩
  · -- The task is at the lock or behind it, so no other task is behind it.
    have hothers (j : ℕ) (q : π) (hj : j ≠ e.1) (hq : s.tasks[j]? = some q) :
        L.holds q = false := by
      by_contra hqt
      have hqt : L.holds q = true := by simpa using hqt
      by_cases hp : L.holds pc = true
      · exact hj (hs.single j e.1 q pc hq hpc hqt hp)
      · have hwait : L.waits pc = true := by
          by_contra hn
          exact hfree ⟨by simpa using hn, by simpa using hp⟩
        simp [hw hwait q (List.mem_of_getElem? hq)] at hqt
    have hin : L.waits pc = true ∨ L.holds pc = true ∧ A s.shared pc := by
      by_cases hp : L.holds pc = true
      · exact Or.inr ⟨hp, hs.holder _ _ hpc hp⟩
      · left
        by_contra hn
        exact hfree ⟨by simpa using hn, by simpa using hp⟩
    obtain ⟨hI, hA⟩ := hk.locked _ _ _ _ _ hr hs.data hin
    have hme (j : ℕ) (q : π) (hq : (s.tasks.set e.1 pc')[j]? = some q)
        (hq' : L.holds q = true) : j = e.1 ∧ q = pc' := by
      rcases getElem?_set_cases hq with hj | ⟨hj, hq⟩
      · exact hj
      · simp [hothers j q hj hq] at hq'
    refine ⟨hI, fun j q hq hq' => ?_, fun i j p q hp hq hp' hq' => ?_⟩
    · obtain ⟨-, rfl⟩ := hme j q hq hq'
      exact hA hq'
    · exact (hme i p hp hp').1.trans (hme j q hq hq').1.symm

/-- The rule for a whole run: tasks that start away from the lock keep the
data invariant however their resumptions interleave. -/
theorem owned_run {I : σ → Prop} {A : σ → π → Prop} (hk : L.Keeps I A)
    {s t : State σ π} {es : List (ℕ × ι)} (hI : I s.shared)
    (hstart : ∀ pc ∈ s.tasks, L.holds pc = false) (hr : L.machine.run s es = some t) :
    L.Owned I A t := by
  refine L.machine.invariant (fun u e v hu h => L.owned_step hk hu h) ⟨hI, ?_, ?_⟩ hr
  · intro i pc hpc hh
    simp [hstart pc (List.mem_of_getElem? hpc)] at hh
  · intro i j p q hp _ hp' _
    simp [hstart p (List.mem_of_getElem? hp)] at hp'

/-- What one task's hold of the lock must keep: the others spoil no assertion, the holder keeps
`A` until it leaves the lock for good, as `D` says. -/
structure Carries (A : σ → π → Prop) (D : π → Prop) : Prop where
  frame : ∀ s pc x s' pc', L.resume s pc x = some (s', pc') → L.waits pc = false →
    L.holds pc = false → L.holds pc' = false ∧ ∀ q, A s q → A s' q
  held : ∀ s pc x s' pc', L.resume s pc x = some (s', pc') → L.holds pc = true → A s pc →
    D pc' ∨ L.holds pc' = true ∧ A s' pc'
  left : ∀ s pc x, D pc → L.resume s pc x = none

/-- Task `i` has left the lock, or holds it alone and keeps `A`. -/
def Carried (A : σ → π → Prop) (D : π → Prop) (i : ℕ) (s : State σ π) : Prop :=
  ∃ pc, s.tasks[i]? = some pc ∧ (D pc ∨ L.holds pc = true ∧ A s.shared pc ∧
    ∀ j q, s.tasks[j]? = some q → L.holds q = true → j = i)

variable {L}

theorem Carried.set {A : σ → π → Prop} {D : π → Prop} {i : ℕ} {tasks : List π} {s' : σ} {pc pc' : π}
    (hpc : tasks[i]? = some pc) (hothers : ∀ j q, j ≠ i → tasks[j]? = some q → L.holds q = false)
    (h : D pc' ∨ L.holds pc' = true ∧ A s' pc') : L.Carried A D i ⟨s', tasks.set i pc'⟩ := by
  refine ⟨pc', by simp [(List.getElem?_eq_some_iff.mp hpc).1], ?_⟩
  refine h.imp_right fun ⟨hh, hA⟩ => ⟨hh, hA, fun j q hq hq' => ?_⟩
  rcases getElem?_set_cases hq with ⟨rfl, -⟩ | ⟨hne, hold⟩
  · rfl
  · rw [hothers j q hne hold] at hq'
    cases hq'

theorem Carried.step {A : σ → π → Prop} {D : π → Prop} (hc : L.Carries A D) {i : ℕ}
    {s t : State σ π} {e : ℕ × ι} (hs : L.Carried A D i s) (h : L.step s e = some t) :
    L.Carried A D i t := by
  obtain ⟨pc, hpc, hs⟩ := hs
  obtain ⟨q, ⟨s', q'⟩, hq, hw, hr, rfl⟩ := L.step_some h
  by_cases hi : e.1 = i
  · subst hi
    obtain rfl := Option.some.inj (hpc.symm.trans hq)
    rcases hs with hD | ⟨hh, hA, hone⟩
    · rw [hc.left _ _ _ hD] at hr
      cases hr
    · refine .set hpc (fun j p hne hp => ?_) (hc.held _ _ _ _ _ hr hh hA)
      exact Bool.eq_false_iff.mpr fun hp' => hne (hone j p hp hp')
  · have hkept : (s.tasks.set e.1 q')[i]? = some pc := by rwa [List.getElem?_set_ne hi]
    rcases hs with hD | ⟨hh, hA, hone⟩
    · exact ⟨pc, hkept, Or.inl hD⟩
    · have hwaits : L.waits q = false := by
        refine Bool.eq_false_iff.mpr fun hwait => ?_
        rw [hw hwait pc (List.mem_of_getElem? hpc)] at hh
        cases hh
      have hholds : L.holds q = false :=
        Bool.eq_false_iff.mpr fun hq' => hi (hone _ _ hq hq')
      obtain ⟨haway, hframe⟩ := hc.frame _ _ _ _ _ hr hwaits hholds
      refine ⟨pc, hkept, Or.inr ⟨hh, hframe pc hA, fun j p hp hp' => ?_⟩⟩
      rcases getElem?_set_cases hp with ⟨-, rfl⟩ | ⟨-, hp⟩
      · rw [haway] at hp'
        cases hp'
      · exact hone j p hp hp'

/-- The rule for the rest of a run, from the step on which task `i` gets the lock. -/
theorem carried_run {A : σ → π → Prop} {D : π → Prop} (hc : L.Carries A D) {i : ℕ} {pc : π} {x : ι}
    {s t : State σ π} {es : List (ℕ × ι)} (hpc : s.tasks[i]? = some pc) (hwait : L.waits pc = true)
    (hacq : ∀ s' pc', L.resume s.shared pc x = some (s', pc') → D pc' ∨ L.holds pc' = true ∧ A s' pc')
    (hr : L.machine.run s ((i, x) :: es) = some t) : L.Carried A D i t := by
  obtain ⟨u, hu, hr⟩ := Option.bind_eq_some_iff.mp hr
  obtain ⟨q, ⟨s', q'⟩, hq, hw, hres, rfl⟩ := L.step_some hu
  obtain rfl := Option.some.inj (hpc.symm.trans hq)
  refine L.machine.invariant (fun v e w hv hvw => hv.step hc hvw) ?_ hr
  exact .set hpc (fun j p _ hp => hw hwait p (List.mem_of_getElem? hp)) (hacq s' q' hres)

end Locked
end NoPorts.Lib
