import Mathlib.Data.List.Nodup
import Mathlib.Data.Nat.Notation

/-! A count of slots that are waited for in turn, and the tasks of a list that take them. -/
namespace NoPorts.Lib

structure Semaphore (ι : Type*) where
  held : ℕ
  waiting : List ι

namespace Semaphore
variable {ι : Type*}

def unused : Semaphore ι := ⟨0, []⟩

def idle (s : Semaphore ι) : Bool := s.held == 0 && s.waiting.isEmpty

/-- A slot is taken, or waited for. -/
def acquire (max : ℕ) (s : Semaphore ι) (i : ι) : Bool × Semaphore ι :=
  if s.held < max then (true, { s with held := s.held + 1 })
  else (false, { s with waiting := s.waiting ++ [i] })

/-- The slot goes to who has waited longest, if anyone waits. -/
def release (s : Semaphore ι) : Option ι × Semaphore ι :=
  match s.waiting with
  | [] => (none, { s with held := s.held - 1 })
  | i :: rest => (some i, { s with waiting := rest })

/-- `n` slots are held, `waits` are waiting, and nobody waits for a slot that is free. -/
structure Sound (max n : ℕ) (waits : ι → Prop) (s : Semaphore ι) : Prop where
  held : s.held = n
  le : n ≤ max
  full : s.waiting ≠ [] → n = max
  nodup : s.waiting.Nodup
  mem : ∀ i, i ∈ s.waiting ↔ waits i

theorem Sound.congr {max n n' : ℕ} {waits waits' : ι → Prop} {s : Semaphore ι}
    (h : s.Sound max n waits) (hn : n' = n) (hw : ∀ i, waits' i ↔ waits i) :
    s.Sound max n' waits' := by
  subst hn
  exact ⟨h.held, h.le, h.full, h.nodup, fun i => (h.mem i).trans (hw i).symm⟩

theorem sound_unused (max : ℕ) : (unused : Semaphore ι).Sound max 0 fun _ => False :=
  ⟨rfl, Nat.zero_le _, fun h => absurd rfl h, List.nodup_nil, fun _ =>
    iff_of_false List.not_mem_nil id⟩

theorem Sound.idle_iff {max n : ℕ} {waits : ι → Prop} {s : Semaphore ι} (h : s.Sound max n waits) :
    s.idle = true ↔ n = 0 ∧ ∀ i, ¬waits i := by
  rw [idle, Bool.and_eq_true, beq_iff_eq, List.isEmpty_iff, h.held, List.eq_nil_iff_forall_not_mem]
  exact and_congr_right fun _ => forall_congr' fun i => not_congr (h.mem i)

theorem Sound.acquired {max n : ℕ} {waits : ι → Prop} {s : Semaphore ι} (h : s.Sound max n waits)
    {i : ι} (hi : (s.acquire max i).1 = true) : (s.acquire max i).2.Sound max (n + 1) waits := by
  unfold acquire at hi ⊢
  split at hi
  · rename_i hfree
    rw [if_pos hfree]
    rw [h.held] at hfree
    refine ⟨by rw [h.held], hfree, fun hne => ?_, h.nodup, h.mem⟩
    have hfull := h.full hne
    omega
  · cases hi

theorem Sound.queued {max n : ℕ} {waits : ι → Prop} {s : Semaphore ι} (h : s.Sound max n waits)
    {i : ι} (hw : ¬waits i) (hi : (s.acquire max i).1 = false) :
    (s.acquire max i).2.Sound max n (fun j => waits j ∨ j = i) := by
  unfold acquire at hi ⊢
  split at hi
  · cases hi
  · rename_i hfull
    rw [if_neg hfull]
    rw [h.held] at hfull
    refine ⟨h.held, h.le, fun _ => Nat.le_antisymm h.le (Nat.le_of_not_lt hfull), ?_, fun j => ?_⟩
    · refine List.nodup_append.mpr ⟨h.nodup, List.nodup_singleton i, ?_⟩
      rintro a ha b hb rfl
      rw [List.mem_singleton.mp hb] at ha
      exact hw ((h.mem i).mp ha)
    · rw [List.mem_append, List.mem_singleton, h.mem]

theorem Sound.released {max n : ℕ} {waits : ι → Prop} {s : Semaphore ι}
    (h : s.Sound max (n + 1) waits) (hnone : s.release.1 = none) : s.release.2.Sound max n waits := by
  unfold release at hnone ⊢
  split at hnone
  · rename_i hnil
    have hheld : s.held - 1 = n := by
      rw [h.held]
      rfl
    exact ⟨hheld, Nat.le_of_succ_le h.le, fun hne => absurd hnil hne, h.nodup, h.mem⟩
  · cases hnone

/-- While anyone waits there is no slot to be taken. -/
theorem Sound.acquire_of_waits {max n : ℕ} {waits : ι → Prop} {s : Semaphore ι}
    (h : s.Sound max n waits) {i : ι} (hi : waits i) (j : ι) : (s.acquire max j).1 = false := by
  have hfull := h.full (List.ne_nil_of_mem ((h.mem i).mpr hi))
  unfold acquire
  rw [if_neg]
  rw [h.held, hfull]
  exact Nat.lt_irrefl max

/-- The slot of one is the slot of the next. -/
theorem Sound.handed {max n : ℕ} {waits : ι → Prop} {s : Semaphore ι} (h : s.Sound max n waits)
    {i : ι} (hi : s.release.1 = some i) :
    waits i ∧ s.release.2.Sound max n (fun j => waits j ∧ j ≠ i) := by
  unfold release at hi ⊢
  split at hi
  · cases hi
  · rename_i j rest hwaiting
    obtain rfl := Option.some.inj hi
    have hnodup := List.nodup_cons.mp (hwaiting ▸ h.nodup)
    refine ⟨(h.mem j).mp (hwaiting ▸ List.mem_cons_self), h.held, h.le, fun _ => ?_, hnodup.2, ?_⟩
    · exact h.full (by rw [hwaiting]; exact List.cons_ne_nil j rest)
    · intro k
      rw [← h.mem k, hwaiting, List.mem_cons]
      constructor
      · intro hk
        exact ⟨Or.inr hk, fun heq => hnodup.1 (heq ▸ hk)⟩
      · rintro ⟨hk, hne⟩
        exact hk.resolve_left hne

/-! ### Turns -/

/-- `i` waits before `j`. -/
def Ahead (i j : ι) (s : Semaphore ι) : Prop := [i, j].Sublist s.waiting

theorem Ahead.acquire {max : ℕ} {s : Semaphore ι} {i j : ι} (h : s.Ahead i j) (k : ι) :
    (s.acquire max k).2.Ahead i j := by
  unfold Semaphore.acquire
  split
  · exact h
  · exact h.trans (List.sublist_append_left _ _)

theorem ahead_of_queued {max : ℕ} {s : Semaphore ι} {i j : ι} (hi : i ∈ s.waiting)
    (hj : (s.acquire max j).1 = false) : (s.acquire max j).2.Ahead i j := by
  unfold acquire at hj ⊢
  split at hj
  · cases hj
  · rename_i hfull
    rw [if_neg hfull]
    exact (List.singleton_sublist.mpr hi).append (List.Sublist.refl [j])

/-- Whoever waits before another is handed a slot before it. -/
theorem Ahead.release {s : Semaphore ι} {i j : ι} (h : s.Ahead i j) (hnodup : s.waiting.Nodup) :
    s.release.1 = some i ∨
      s.release.1 ≠ some i ∧ s.release.1 ≠ some j ∧ s.release.2.Ahead i j := by
  unfold Ahead Semaphore.release at *
  split
  · rename_i hnil
    rw [hnil] at h
    cases h
  · rename_i k rest hwaiting
    rw [hwaiting] at h hnodup
    have hk : k ∉ rest := (List.nodup_cons.mp hnodup).1
    cases h with
    | cons _ h =>
      have hmem : ∀ m ∈ [i, j], m ∈ rest := fun m => h.subset (a := m)
      refine Or.inr ⟨?_, ?_, h⟩
      · intro heq
        rw [Option.some.inj heq] at hk
        exact hk (hmem i List.mem_cons_self)
      · intro heq
        rw [Option.some.inj heq] at hk
        exact hk (hmem j (List.mem_cons_of_mem i List.mem_cons_self))
    | cons_cons _ h => exact Or.inl rfl

end Semaphore

/-! ### The tasks of a list -/

/-- How many hold something, when one task becomes another. -/
theorem countP_set_add {α : Type*} (p : α → Bool) {xs : List α} {i : ℕ} {a b : α}
    (h : xs[i]? = some a) :
    (xs.set i b).countP p + (if p a then 1 else 0) = xs.countP p + (if p b then 1 else 0) := by
  obtain ⟨hi, rfl⟩ := List.getElem?_eq_some_iff.mp h
  have hle : (if p xs[i] then 1 else 0) ≤ xs.countP p := List.boole_getElem_le_countP hi
  rw [List.countP_set hi]
  omega

theorem modify_eq_set {α : Type*} {xs : List α} {i : ℕ} {a : α} (h : xs[i]? = some a) (f : α → α) :
    xs.modify i f = xs.set i (f a) := by
  obtain ⟨hi, rfl⟩ := List.getElem?_eq_some_iff.mp h
  rw [List.modify_eq_set_getElem?, h]
  rfl

namespace Semaphore
variable {τ : Type*} {max : ℕ} {holds waits : τ → Bool} {tasks : List τ} {s : Semaphore ℕ} {i : ℕ}
  {t t' : τ}

/-- The task that a slot is handed to goes on as `f` says. -/
def wake (f : τ → τ) (tasks : List τ) : Option ℕ → List τ
  | none => tasks
  | some i => tasks.modify i f

/-- The slots that the tasks hold and wait for. -/
def Tracks (max : ℕ) (holds waits : τ → Bool) (tasks : List τ) (s : Semaphore ℕ) : Prop :=
  s.Sound max (tasks.countP holds) fun i => (tasks[i]?).any waits = true

theorem wake_of_ne {f : τ → τ} {next : Option ℕ} (h : next ≠ some i) :
    (wake f tasks next)[i]? = tasks[i]? := by
  cases next with
  | none => rfl
  | some j =>
    have hne : j ≠ i := fun heq => h (congrArg some heq)
    rw [wake, List.getElem?_modify_ne _ _ hne]

theorem any_set {p : τ → Bool} (hi : tasks[i]? = some t) (j : ℕ) :
    ((tasks.set i t')[j]?).any p = true ↔
      if j = i then p t' = true else (tasks[j]?).any p = true := by
  have hlt := (List.getElem?_eq_some_iff.mp hi).1
  rw [List.getElem?_set]
  by_cases hj : i = j
  · subst hj
    rw [if_pos rfl, if_pos hlt, if_pos rfl, Option.any_some]
  · rw [if_neg hj, if_neg (Ne.symm hj)]

theorem Tracks.set (h : s.Tracks max holds waits tasks) (hi : tasks[i]? = some t)
    (hholds : holds t' = holds t) (hwaits : waits t' = waits t) :
    s.Tracks max holds waits (tasks.set i t') := by
  refine Sound.congr h ?_ fun j => ?_
  · have hcount := countP_set_add holds (b := t') hi
    rw [hholds] at hcount
    omega
  · rw [any_set hi]
    split
    · rename_i hj
      rw [hj, hi, Option.any_some, hwaits]
    · exact Iff.rfl

theorem Tracks.acquire (h : s.Tracks max holds waits tasks) (hi : tasks[i]? = some t)
    (hholds : holds t = false) (hwaits : waits t = false)
    (hholds' : holds t' = (s.acquire max i).1) (hwaits' : waits t' = !(s.acquire max i).1) :
    (s.acquire max i).2.Tracks max holds waits (tasks.set i t') := by
  have hcount := countP_set_add holds (b := t') hi
  rw [hholds, hholds'] at hcount
  cases htaken : (s.acquire max i).1 with
  | true =>
    rw [htaken] at hcount hwaits'
    refine Sound.congr (Sound.acquired h htaken) (by simpa using hcount) fun j => ?_
    rw [any_set hi]
    split
    · rename_i hj
      rw [hj, hi, Option.any_some, hwaits, hwaits']
      exact Iff.rfl
    · exact Iff.rfl
  | false =>
    rw [htaken] at hcount hwaits'
    have hnot : ¬(tasks[i]?).any waits = true := by
      rw [hi, Option.any_some, hwaits]
      exact Bool.false_ne_true
    refine Sound.congr (Sound.queued h hnot htaken) (by simpa using hcount) fun j => ?_
    rw [any_set hi]
    split
    · rename_i hj
      exact iff_of_true hwaits' (Or.inr hj)
    · rename_i hj
      exact (or_iff_left hj).symm

/-- The next to have a slot waits for one. -/
theorem Tracks.next (h : s.Tracks max holds waits tasks) {j : ℕ} (hj : s.release.1 = some j) :
    ∃ u, tasks[j]? = some u ∧ waits u = true := by
  have hwait := (Sound.handed h hj).1
  cases hu : tasks[j]? with
  | none =>
    rw [hu] at hwait
    cases hwait
  | some u =>
    rw [hu, Option.any_some] at hwait
    exact ⟨u, rfl, hwait⟩

theorem Tracks.release {f : τ → τ} (h : s.Tracks max holds waits tasks)
    (hf : ∀ u, waits u = true → holds u = false ∧ holds (f u) = true ∧ waits (f u) = false)
    (hi : tasks[i]? = some t) (hholds : holds t = true) (hwaits : waits t = false)
    (hholds' : holds t' = false) (hwaits' : waits t' = false) :
    s.release.2.Tracks max holds waits ((wake f tasks s.release.1).set i t') := by
  cases hnext : s.release.1 with
  | none =>
    have hcount := countP_set_add holds (b := t') hi
    rw [hholds, hholds'] at hcount
    have hn : tasks.countP holds = (tasks.set i t').countP holds + 1 := by simpa using hcount.symm
    refine Sound.congr (Sound.released (Sound.congr h hn.symm fun _ => Iff.rfl) hnext) rfl fun j => ?_
    rw [wake, any_set hi]
    split
    · rename_i hj
      rw [hj, hi, Option.any_some, hwaits, hwaits']
    · exact Iff.rfl
  | some j =>
    obtain ⟨u, hu, hwaitsu⟩ := h.next hnext
    obtain ⟨hu₁, hu₂, hu₃⟩ := hf u hwaitsu
    have hne : i ≠ j := by
      rintro rfl
      obtain rfl := Option.some.inj (hi.symm.trans hu)
      rw [hwaits] at hwaitsu
      cases hwaitsu
    have hi' : (tasks.set j (f u))[i]? = some t := by rwa [List.getElem?_set_ne (Ne.symm hne)]
    have hcount := countP_set_add holds (b := f u) hu
    have hcount' := countP_set_add holds (b := t') hi'
    rw [hu₁, hu₂] at hcount
    rw [hholds, hholds'] at hcount'
    simp only [Bool.false_eq_true, if_false, if_true] at hcount hcount'
    rw [wake, modify_eq_set hu]
    refine Sound.congr (Sound.handed h hnext).2 (by omega) fun k => ?_
    rw [any_set hi', any_set hu]
    split
    · rename_i hk
      rw [hk, hi, Option.any_some, hwaits, hwaits']
      exact iff_of_false Bool.false_ne_true fun hand => Bool.false_ne_true hand.1
    · split
      · rename_i hk
        exact iff_of_false (by rw [hu₃]; exact Bool.false_ne_true) fun hand => hand.2 hk
      · rename_i hk
        exact (and_iff_left hk).symm

end Semaphore
end NoPorts.Lib
