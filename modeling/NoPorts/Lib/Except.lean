import Mathlib.Data.List.Basic

/-! Reading back a computation that may throw from its having returned. -/
namespace NoPorts.Lib

universe u v
variable {ε : Type u} {α β : Type v}

@[simp] theorem ok_bind (a : α) (f : α → Except ε β) : (Except.ok a >>= f) = f a := rfl

@[simp] theorem error_bind (e : ε) (f : α → Except ε β) :
    ((Except.error e : Except ε α) >>= f) = .error e := rfl

theorem bind_eq_ok {x : Except ε α} {f : α → Except ε β} {b : β} :
    (x >>= f) = .ok b ↔ ∃ a, x = .ok a ∧ f a = .ok b := by
  cases x with
  | error e => simp only [bind, Except.bind, reduceCtorEq, false_and, exists_false]
  | ok a => simp only [bind, Except.bind, Except.ok.injEq, exists_eq_left']

theorem bind_eq_error {x : Except ε α} {f : α → Except ε β} {e : ε} :
    (x >>= f) = .error e ↔ x = .error e ∨ ∃ a, x = .ok a ∧ f a = .error e := by
  cases x with
  | error e' => simp only [bind, Except.bind, Except.error.injEq, reduceCtorEq, false_and,
      exists_false, or_false]
  | ok a => simp only [bind, Except.bind, reduceCtorEq, Except.ok.injEq, exists_eq_left', false_or]

theorem map_eq_ok {x : Except ε α} {f : α → β} {b : β} :
    f <$> x = .ok b ↔ ∃ a, x = .ok a ∧ f a = b := by
  cases x with
  | error e => simp only [Functor.map, Except.map, reduceCtorEq, false_and, exists_false]
  | ok a => simp only [Functor.map, Except.map, Except.ok.injEq, exists_eq_left']

/-- A loop of checks returns exactly when every check does. -/
theorem forM_eq_ok {γ : Type*} {check : γ → Except ε PUnit} {xs : List γ} {u : PUnit} :
    forM xs check = .ok u ↔ ∀ x ∈ xs, check x = .ok u := by
  induction xs with
  | nil => simp [List.forM_nil, pure, Except.pure]
  | cons x xs ih =>
    rw [List.forM_cons, bind_eq_ok]
    constructor
    · rintro ⟨a, hx, hxs⟩
      exact List.forall_mem_cons.mpr ⟨hx, ih.mp hxs⟩
    · intro h
      obtain ⟨hx, hxs⟩ := List.forall_mem_cons.mp h
      exact ⟨u, hx, ih.mpr hxs⟩

/-- What a mapping returns, each from an item. -/
theorem exists_of_mem_mapM {γ : Type*} {f : γ → Except ε β} {xs : List γ} {ys : List β} (h : xs.mapM f = .ok ys) :
    ∀ y ∈ ys, ∃ x ∈ xs, f x = .ok y := by
  induction xs generalizing ys with
  | nil =>
    rw [List.mapM_nil] at h
    obtain rfl := Except.ok.inj h
    exact fun y hy => absurd hy List.not_mem_nil
  | cons x xs ih =>
    rw [List.mapM_cons] at h
    obtain ⟨b, hb, h⟩ := bind_eq_ok.mp h
    obtain ⟨bs, hbs, h⟩ := bind_eq_ok.mp h
    obtain rfl := Except.ok.inj h
    intro y hy
    rcases List.mem_cons.mp hy with rfl | hy
    · exact ⟨x, List.mem_cons_self, hb⟩
    · obtain ⟨x', hx', hf⟩ := ih hbs y hy
      exact ⟨x', List.mem_cons_of_mem x hx', hf⟩

/-- A guarded throw before the rest of a block. -/
theorem throwIf_ok {p : Prop} [Decidable p] {e : ε} {k : Except ε β} {b : β} :
    (if p then throw e else k) = .ok b ↔ ¬p ∧ k = .ok b := by
  by_cases hp : p <;> simp [hp, throw, throwThe, MonadExceptOf.throw]

theorem throwIf_error {p : Prop} [Decidable p] {e e' : ε} {k : Except ε β} :
    (if p then throw e' else k) = .error e ↔ p ∧ e' = e ∨ ¬p ∧ k = .error e := by
  by_cases hp : p <;> simp [hp, throw, throwThe, MonadExceptOf.throw]

/-- Two computations that both throw, or both return and what they return is related. -/
def Alike {α β : Type*} (R : α → β → Prop) : Except ε α → Except ε β → Prop
  | .ok a, .ok b => R a b
  | .error _, .error _ => True
  | _, _ => False

theorem Alike.eq_ok {α : Type*} {x y : Except ε α} (h : Alike (· = ·) x y) {a : α} (hx : x = .ok a) :
    y = .ok a := by
  subst hx
  cases y with
  | error e => exact h.elim
  | ok b =>
    obtain rfl : a = b := h
    rfl

theorem Alike.and_left {α β : Type*} {R : α → β → Prop} {P : α → Prop} {x : Except ε α} {y : Except ε β}
    (h : Alike R x y) (hx : ∀ a, x = .ok a → P a) : Alike (fun a b => P a ∧ R a b) x y := by
  cases x with
  | error e =>
    cases y with
    | error e' => trivial
    | ok b => exact h.elim
  | ok a =>
    cases y with
    | error e => exact h.elim
    | ok b => exact ⟨hx a rfl, h⟩

theorem Alike.bind {α β γ δ : Type v} {R : α → β → Prop} {S : γ → δ → Prop} {x : Except ε α}
    {y : Except ε β} {f : α → Except ε γ} {g : β → Except ε δ} (h : Alike R x y)
    (hfg : ∀ a b, R a b → Alike S (f a) (g b)) : Alike S (x >>= f) (y >>= g) := by
  cases x with
  | error e =>
    cases y with
    | error e' => trivial
    | ok b => exact h.elim
  | ok a =>
    cases y with
    | error e' => exact h.elim
    | ok b => exact hfg a b h

end NoPorts.Lib
