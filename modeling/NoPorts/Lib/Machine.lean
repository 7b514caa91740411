import Mathlib.Data.List.Induction

/-! Machines that take one event at a time. An event a state cannot take gives
`none`, so a run is a list of events every one of which was taken. -/
namespace NoPorts.Lib

/-- What a list holds once its `i`th task is set to `a`. -/
theorem getElem?_set_cases {α : Type*} {xs : List α} {i j : ℕ} {a b : α}
    (h : (xs.set i a)[j]? = some b) : j = i ∧ b = a ∨ j ≠ i ∧ xs[j]? = some b := by
  rw [List.getElem?_set] at h
  by_cases hj : i = j
  · subst hj
    rw [if_pos rfl] at h
    split at h
    · exact Or.inl ⟨rfl, (Option.some.inj h).symm⟩
    · cases h
  · rw [if_neg hj] at h
    exact Or.inr ⟨fun hji => hj hji.symm, h⟩

/-- What a list holds once `a` has come last. -/
theorem getElem?_concat_cases {α : Type*} {xs : List α} {j : ℕ} {a b : α}
    (h : (xs ++ [a])[j]? = some b) : xs[j]? = some b ∨ j = xs.length ∧ b = a := by
  rw [List.getElem?_append] at h
  split at h
  · exact Or.inl h
  · rename_i hlast
    obtain ⟨hlt, -⟩ := List.getElem?_eq_some_iff.mp h
    have hle : j ≤ xs.length := Nat.sub_eq_zero_iff_le.mp (Nat.lt_one_iff.mp hlt)
    exact Or.inr ⟨Nat.le_antisymm hle (Nat.le_of_not_lt hlast),
      List.mem_singleton.mp (List.mem_of_getElem? h)⟩

/-- An event that is taken in some states only. -/
theorem of_guarded {σ : Type*} {p : Prop} [Decidable p] {next t : σ} (h : (if p then some next else none) = some t) :
    p ∧ t = next := by
  obtain ⟨hp, hnext⟩ := Option.ite_none_right_eq_some.mp h
  exact ⟨hp, (Option.some.inj hnext).symm⟩

structure Machine (σ ε : Type*) where
  step : σ → ε → Option σ

namespace Machine
variable {σ ε : Type*} (M : Machine σ ε)

def run : σ → List ε → Option σ
  | s, [] => some s
  | s, e :: es => (M.step s e).bind (run · es)

@[simp] theorem run_nil (s : σ) : M.run s [] = some s := rfl

theorem run_cons (s : σ) (e : ε) (es : List ε) :
    M.run s (e :: es) = (M.step s e).bind (M.run · es) := rfl

theorem run_step {s t : σ} {e : ε} (h : M.step s e = some t) (es : List ε) :
    M.run s (e :: es) = M.run t es := by
  rw [run_cons, h, Option.bind_some]

theorem run_append (s : σ) (es fs : List ε) :
    M.run s (es ++ fs) = (M.run s es).bind (M.run · fs) := by
  induction es generalizing s with
  | nil => rfl
  | cons e es ih =>
    simp only [List.cons_append, run_cons]
    cases M.step s e with
    | none => rfl
    | some t => exact ih t

theorem run_concat {s t : σ} {es : List ε} {e : ε} (h : M.run s (es ++ [e]) = some t) :
    ∃ m, M.run s es = some m ∧ M.step m e = some t := by
  rw [run_append] at h
  obtain ⟨m, hm, h⟩ := Option.bind_eq_some_iff.mp h
  refine ⟨m, hm, ?_⟩
  simpa only [run_cons, run_nil, Option.bind_fun_some] using h

/-- Every step of the run from `s` meets `G`, judged in the state before it. -/
def Meets (G : σ → ε → Prop) : σ → List ε → Prop
  | _, [] => True
  | s, e :: es => G s e ∧ ∀ t, M.step s e = some t → Meets G t es

theorem meets_cons {G : σ → ε → Prop} {s t : σ} {e : ε} {es : List ε} (hg : G s e)
    (hstep : M.step s e = some t) (hes : M.Meets G t es) : M.Meets G s (e :: es) := by
  refine ⟨hg, fun u hu => ?_⟩
  rw [hstep] at hu
  rwa [← Option.some.inj hu]

/-- Of a condition that can be decided in each state, it can be decided whether a run meets it. -/
instance decidableMeets {G : σ → ε → Prop} [∀ s e, Decidable (G s e)] :
    (s : σ) → (es : List ε) → Decidable (M.Meets G s es)
  | _, [] => .isTrue trivial
  | s, e :: es =>
    match hstep : M.step s e with
    | none => decidable_of_iff (G s e) ⟨fun h => ⟨h, fun t ht => absurd (hstep.symm.trans ht) (Option.some_ne_none t).symm⟩,
        And.left⟩
    | some t =>
      have := decidableMeets (G := G) t es
      decidable_of_iff (G s e ∧ M.Meets G t es)
        ⟨fun h => M.meets_cons h.1 hstep h.2, fun h => ⟨h.1, h.2 t hstep⟩⟩

/-- What every step that meets `G` preserves, every run of such steps preserves. -/
theorem invariant_of_meets {G : σ → ε → Prop} {I : σ → Prop}
    (hstep : ∀ s e t, I s → G s e → M.step s e = some t → I t) {s t : σ} {es : List ε}
    (hs : I s) (hg : M.Meets G s es) (hr : M.run s es = some t) : I t := by
  induction es generalizing s with
  | nil =>
    obtain rfl := Option.some.inj hr
    exact hs
  | cons e es ih =>
    obtain ⟨m, hm, hr⟩ := Option.bind_eq_some_iff.mp hr
    exact ih (hstep s e m hs hg.1 hm) (hg.2 m hm) hr

/-- A condition that the events meet whatever state they come in. -/
theorem meets_of_forall {G : σ → ε → Prop} {es : List ε} (h : ∀ e ∈ es, ∀ s, G s e) (s : σ) :
    M.Meets G s es := by
  induction es generalizing s with
  | nil => exact trivial
  | cons e es ih =>
    obtain ⟨he, hes⟩ := List.forall_mem_cons.mp h
    exact ⟨he s, fun t _ => ih hes t⟩

theorem meets_true (s : σ) (es : List ε) : M.Meets (fun _ _ => True) s es :=
  M.meets_of_forall (fun _ _ _ => trivial) s

theorem invariant {I : σ → Prop} (hstep : ∀ s e t, I s → M.step s e = some t → I t)
    {s t : σ} {es : List ε} (hs : I s) (hr : M.run s es = some t) : I t :=
  M.invariant_of_meets (fun s e t hi _ h => hstep s e t hi h) hs (M.meets_true s es) hr

/-- A run in two parts, the second from where the first leads. -/
theorem meets_append {G : σ → ε → Prop} {s : σ} {es fs : List ε} :
    M.Meets G s (es ++ fs) ↔ M.Meets G s es ∧ ∀ u, M.run s es = some u → M.Meets G u fs := by
  induction es generalizing s with
  | nil =>
    constructor
    · intro h
      refine ⟨trivial, fun u hu => ?_⟩
      rw [← Option.some.inj hu]
      exact h
    · intro h
      exact h.2 s rfl
  | cons d es ih =>
    constructor
    · intro h
      refine ⟨⟨h.1, fun t ht => (ih.mp (h.2 t ht)).1⟩, fun u hu => ?_⟩
      obtain ⟨t, ht, hu⟩ := Option.bind_eq_some_iff.mp hu
      exact (ih.mp (h.2 t ht)).2 u hu
    · intro h
      refine ⟨h.1.1, fun t ht => ih.mpr ⟨h.1.2 t ht, fun u hu => h.2 u ?_⟩⟩
      rw [M.run_step ht]
      exact hu

theorem meets_concat {G : σ → ε → Prop} {s : σ} {es : List ε} {e : ε} :
    M.Meets G s (es ++ [e]) ↔ M.Meets G s es ∧ ∀ u, M.run s es = some u → G u e := by
  rw [meets_append]
  constructor
  · intro h
    exact ⟨h.1, fun u hu => (h.2 u hu).1⟩
  · intro h
    exact ⟨h.1, fun u hu => ⟨h.2 u hu, fun _ _ => trivial⟩⟩

/-- What holds at first, and after a step that meets `G` whenever before it, holds
of a run of such steps together with the state it leads to. -/
theorem run_induction_of_meets {G : σ → ε → Prop} {s : σ} {I : List ε → σ → Prop} (h0 : I [] s)
    (hstep : ∀ es e u v, M.run s es = some u → I es u → G u e → M.step u e = some v →
      I (es ++ [e]) v) {es : List ε} {t : σ} (hg : M.Meets G s es) (hr : M.run s es = some t) :
    I es t := by
  induction es using List.reverseRecOn generalizing t with
  | nil =>
    obtain rfl := Option.some.inj hr
    exact h0
  | append_singleton es e ih =>
    obtain ⟨u, hu, he⟩ := M.run_concat hr
    obtain ⟨hes, hlast⟩ := M.meets_concat.mp hg
    exact hstep es e u t hu (ih hes hu) (hlast u hu) he

theorem run_induction {s : σ} {I : List ε → σ → Prop} (h0 : I [] s)
    (hstep : ∀ es e u v, M.run s es = some u → I es u → M.step u e = some v → I (es ++ [e]) v)
    {es : List ε} {t : σ} (hr : M.run s es = some t) : I es t :=
  M.run_induction_of_meets h0 (fun es e u v hu hi _ => hstep es e u v hu hi) (M.meets_true s es) hr

/-- Two conditions that agree wherever the first has been met so far. -/
theorem meets_congr {G H : σ → ε → Prop} {I : σ → Prop}
    (hstep : ∀ s e t, I s → G s e → M.step s e = some t → I t) (hiff : ∀ s e, I s → (G s e ↔ H s e))
    {s : σ} {es : List ε} (hs : I s) : M.Meets G s es ↔ M.Meets H s es := by
  induction es generalizing s with
  | nil => exact Iff.rfl
  | cons e es ih =>
    constructor
    · intro h
      exact ⟨(hiff s e hs).mp h.1, fun t ht => (ih (hstep s e t hs h.1 ht)).mp (h.2 t ht)⟩
    · intro h
      have hg := (hiff s e hs).mpr h.1
      exact ⟨hg, fun t ht => (ih (hstep s e t hs hg ht)).mpr (h.2 t ht)⟩

/-- Where a step meets `G` exactly when it leads to a state with `P`, the runs of such steps are those that
reach no state without it. -/
theorem meets_iff_reached {G : σ → ε → Prop} {I P : σ → Prop}
    (hstep : ∀ s e t, I s → G s e → M.step s e = some t → I t) (hP : ∀ s, I s → P s)
    (hG : ∀ s e t, I s → M.step s e = some t → P t → G s e) {s t : σ} {es : List ε} (hs : I s)
    (hr : M.run s es = some t) :
    M.Meets G s es ↔ ∀ pre u, pre <+: es → M.run s pre = some u → P u := by
  constructor
  · intro h pre u hpre hu
    obtain ⟨post, rfl⟩ := hpre
    exact hP u (M.invariant_of_meets hstep hs (M.meets_append.mp h).1 hu)
  · intro h
    induction es generalizing s with
    | nil => exact trivial
    | cons e es ih =>
      obtain ⟨m, hm, hr⟩ := Option.bind_eq_some_iff.mp hr
      -- the state after this step is itself reached
      have hPm : P m := by
        apply h [e] m ⟨es, rfl⟩
        rw [M.run_step hm, run_nil]
      have hg := hG s e m hs hm hPm
      refine M.meets_cons hg hm (ih (hstep s e m hs hg hm) hr fun pre u hpre hu => ?_)
      apply h (e :: pre) u (List.cons_prefix_cons.mpr ⟨rfl, hpre⟩)
      rw [M.run_step hm]
      exact hu

/-- At some moment of the run from `s`, in the state before the event taken then. -/
def At (s : σ) (es : List ε) (P : σ → ε → Prop) : Prop :=
  ∃ pre e post u, es = pre ++ e :: post ∧ M.run s pre = some u ∧ P u e

variable {M}

theorem At.later {s : σ} {es : List ε} {P : σ → ε → Prop} (h : M.At s es P) (e : ε) :
    M.At s (es ++ [e]) P := by
  obtain ⟨pre, d, post, u, rfl, hu, hp⟩ := h
  exact ⟨pre, d, post ++ [e], u, by simp only [List.append_assoc, List.cons_append], hu, hp⟩

theorem At.now {s u : σ} {es : List ε} {e : ε} {P : σ → ε → Prop} (hu : M.run s es = some u)
    (hp : P u e) : M.At s (es ++ [e]) P := ⟨es, e, [], u, rfl, hu, hp⟩

/-- What held at some moment of a run held before its last step, or at it. -/
theorem At.of_concat {s u : σ} {es : List ε} {e : ε} {P : σ → ε → Prop}
    (h : M.At s (es ++ [e]) P) (hu : M.run s es = some u) : M.At s es P ∨ P u e := by
  obtain ⟨pre, d, post, w, hes, hw, hp⟩ := h
  rcases List.eq_nil_or_concat post with rfl | ⟨post, x, rfl⟩
  · obtain ⟨rfl, hd⟩ := List.append_inj' hes rfl
    injection hd with hd
    subst hd
    rw [hu] at hw
    exact Or.inr (Option.some.inj hw ▸ hp)
  · rw [List.concat_eq_append, ← List.cons_append, ← List.append_assoc] at hes
    exact Or.inl ⟨pre, d, post, w, (List.append_inj' hes rfl).1, hw, hp⟩

theorem At.mono {s : σ} {es : List ε} {P Q : σ → ε → Prop} (h : M.At s es P)
    (himp : ∀ u e, P u e → Q u e) : M.At s es Q := by
  obtain ⟨pre, e, post, u, he, hu, hp⟩ := h
  exact ⟨pre, e, post, u, he, hu, himp u e hp⟩

end Machine
end NoPorts.Lib
