import NoPorts.Lib.Table

/-! Replicas of a table, that hear of the same writes in the same order and make their own ones besides. -/
namespace NoPorts.Lib

namespace Table
variable {κ α : Type*} [DecidableEq κ]

/-- `a` under `k`, or nothing there. -/
def write (t : Table κ α) (k : κ) (a : Option α) : Table κ α := a.elim (t.erase k) (t.set k)

def writes (t : Table κ α) (ws : List (κ × Option α)) : Table κ α := ws.foldl (fun t w => t.write w.1 w.2) t

@[simp] theorem get?_write (t : Table κ α) (k k' : κ) (a : Option α) :
    (t.write k a).get? k' = if k' = k then a else t.get? k' := by
  cases a with
  | none => exact get?_erase t k k'
  | some a => exact get?_set t k k' a

@[simp] theorem writes_nil (t : Table κ α) : t.writes [] = t := rfl

theorem writes_cons (t : Table κ α) (w : κ × Option α) (ws : List (κ × Option α)) :
    t.writes (w :: ws) = (t.write w.1 w.2).writes ws := rfl

theorem writes_append (t : Table κ α) (vs ws : List (κ × Option α)) : t.writes (vs ++ ws) = (t.writes vs).writes ws :=
  List.foldl_append

theorem writes_concat (t : Table κ α) (ws : List (κ × Option α)) (w : κ × Option α) :
    t.writes (ws ++ [w]) = (t.writes ws).write w.1 w.2 := writes_append t ws [w]

/-- What two tables have the same, they have the same after the same writes. -/
theorem get?_writes_congr {t u : Table κ α} {k : κ} (h : t.get? k = u.get? k) (ws : List (κ × Option α)) :
    (t.writes ws).get? k = (u.writes ws).get? k := by
  induction ws generalizing t u with
  | nil => exact h
  | cons w ws ih =>
    rw [writes_cons, writes_cons]
    apply ih
    rw [get?_write, get?_write, h]

/-- Where the writes come to a key, what was there before doesn't count. -/
theorem get?_writes_cases (k : κ) (ws : List (κ × Option α)) :
    (∀ t : Table κ α, (t.writes ws).get? k = t.get? k) ∨ ∀ t u : Table κ α, (t.writes ws).get? k = (u.writes ws).get? k := by
  induction ws with
  | nil => exact .inl fun _ => rfl
  | cons w ws ih =>
    simp only [writes_cons]
    rcases ih with hkept | hsame
    · by_cases hk : k = w.1
      · refine .inr fun t u => ?_
        rw [hkept, hkept, get?_write, get?_write, if_pos hk, if_pos hk]
      · refine .inl fun t => ?_
        rw [hkept, get?_write, if_neg hk]
    · exact .inr fun t u => hsame _ _

/-- A replica that comes to `u` by what it has yet to hear still does so after a write of its own, of what `u` holds
there. -/
theorem get?_writes_write {t u : Table κ α} {ws : List (κ × Option α)} {k : κ} {a : Option α}
    (h : ∀ k', (t.writes ws).get? k' = u.get? k') (hk : u.get? k = a) (k' : κ) :
    ((t.write k a).writes ws).get? k' = u.get? k' := by
  by_cases heq : k' = k
  · subst heq
    rcases get?_writes_cases k' ws with hkept | hsame
    · rw [hkept, get?_write, if_pos rfl, hk]
    · rw [hsame _ t, h]
  · rw [← h k']
    apply get?_writes_congr
    rw [get?_write, if_neg heq]

end Table
end NoPorts.Lib
