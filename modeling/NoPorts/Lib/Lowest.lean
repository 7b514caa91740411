import Mathlib.Order.Lattice

/-! The first item of a list whose score is the lowest, of those that have one. -/
namespace NoPorts.Lib
variable {α β : Type*} [LinearOrder β] (score : α → Option β)

/-- `best` against one more item: it stays where their scores are equal. -/
def lower (best : Option (α × β)) (a : α) : Option (α × β) :=
  match score a, best with
  | none, _ => best
  | some s, none => some (a, s)
  | some s, some b => if s < b.2 then some (a, s) else some b

def lowest (xs : List α) : Option (α × β) := xs.foldl (lower score) none

variable {score}

theorem lower_cases {best : Option (α × β)} {a : α} {b : α × β} (h : lower score best a = some b) :
    best = some b ∨ a = b.1 ∧ score a = some b.2 := by
  unfold lower at h
  cases hs : score a with
  | none =>
    rw [hs] at h
    exact Or.inl h
  | some s =>
    rw [hs] at h
    cases best with
    | none =>
      obtain rfl := Option.some.inj h
      exact Or.inr ⟨rfl, rfl⟩
    | some c =>
      simp only at h
      split at h
      · obtain rfl := Option.some.inj h
        exact Or.inr ⟨rfl, rfl⟩
      · exact Or.inl h

/-- No item met so far is lower than what is kept. -/
theorem lower_le {best : Option (α × β)} {a : α} {b : α × β} (h : lower score best a = some b) :
    (∀ c, best = some c → b.2 ≤ c.2) ∧ ∀ s, score a = some s → b.2 ≤ s := by
  unfold lower at h
  cases hs : score a with
  | none =>
    rw [hs] at h
    refine ⟨fun c hc => ?_, fun s hs' => by cases hs'⟩
    exact le_of_eq (congrArg Prod.snd (Option.some.inj (h.symm.trans hc)))
  | some t =>
    rw [hs] at h
    cases best with
    | none =>
      obtain rfl := Option.some.inj h
      exact ⟨nofun, fun s hs' => le_of_eq (Option.some.inj hs')⟩
    | some c =>
      simp only at h
      split at h
      · rename_i hlt
        obtain rfl := Option.some.inj h
        refine ⟨fun d hd => ?_, fun s hs' => le_of_eq (Option.some.inj hs')⟩
        obtain rfl := Option.some.inj hd
        exact le_of_lt hlt
      · rename_i hge
        obtain rfl := Option.some.inj h
        refine ⟨fun d hd => le_of_eq (congrArg Prod.snd (Option.some.inj hd)), fun s hs' => ?_⟩
        obtain rfl := Option.some.inj hs'
        exact le_of_not_gt hge

theorem lower_eq_none {best : Option (α × β)} {a : α} :
    lower score best a = none ↔ best = none ∧ score a = none := by
  unfold lower
  cases score a with
  | none => simp only [and_true]
  | some s =>
    cases best with
    | none => simp only [reduceCtorEq, and_false]
    | some b =>
      simp only [reduceCtorEq, and_false, iff_false]
      split <;> exact Option.some_ne_none _

theorem foldl_lower_eq_none {xs : List α} {best : Option (α × β)} :
    xs.foldl (lower score) best = none ↔ best = none ∧ ∀ a ∈ xs, score a = none := by
  induction xs generalizing best with
  | nil => simp
  | cons a xs ih => rw [List.foldl_cons, ih, lower_eq_none, List.forall_mem_cons, and_assoc]

theorem foldl_lower_spec {xs : List α} {best : Option (α × β)} {b : α × β}
    (h : xs.foldl (lower score) best = some b) :
    (best = some b ∨ b.1 ∈ xs ∧ score b.1 = some b.2) ∧ (∀ c, best = some c → b.2 ≤ c.2) ∧
      ∀ a ∈ xs, ∀ s, score a = some s → b.2 ≤ s := by
  induction xs generalizing best with
  | nil =>
    refine ⟨Or.inl h, fun c hc => ?_, fun a ha => absurd ha List.not_mem_nil⟩
    exact le_of_eq (congrArg Prod.snd (Option.some.inj (h.symm.trans hc)))
  | cons a xs ih =>
    obtain ⟨hfrom, hkept, hrest⟩ := ih h
    refine ⟨?_, fun c hc => ?_, ?_⟩
    · rcases hfrom with hl | ⟨hmem, hs⟩
      · rcases lower_cases hl with hb | ⟨rfl, hs⟩
        · exact Or.inl hb
        · exact Or.inr ⟨List.mem_cons_self, hs⟩
      · exact Or.inr ⟨List.mem_cons_of_mem a hmem, hs⟩
    · cases hl : lower score best a with
      | none =>
        rw [(lower_eq_none.mp hl).1] at hc
        cases hc
      | some d => exact le_trans (hkept d hl) ((lower_le hl).1 c hc)
    · intro x hx s hs
      rcases List.mem_cons.mp hx with rfl | hx
      · cases hl : lower score best x with
        | none =>
          rw [(lower_eq_none.mp hl).2] at hs
          cases hs
        | some d => exact le_trans (hkept d hl) ((lower_le hl).2 s hs)
      · exact hrest x hx s hs

theorem lowest_spec {xs : List α} {b : α × β} (h : lowest score xs = some b) :
    b.1 ∈ xs ∧ score b.1 = some b.2 ∧ ∀ a ∈ xs, ∀ s, score a = some s → b.2 ≤ s := by
  obtain ⟨hfrom, -, hle⟩ := foldl_lower_spec h
  rcases hfrom with hb | ⟨hmem, hs⟩
  · cases hb
  · exact ⟨hmem, hs, hle⟩

theorem lowest_eq_none {xs : List α} : lowest score xs = none ↔ ∀ a ∈ xs, score a = none := by
  rw [lowest, foldl_lower_eq_none, and_iff_right rfl]

end NoPorts.Lib
