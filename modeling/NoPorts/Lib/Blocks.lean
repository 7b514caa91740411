import Mathlib.Data.List.Infix
import Mathlib.Algebra.Order.Group.Nat

/-! What is found in a stream that is looked at one block at a time, each block from its start. -/
namespace NoPorts.Lib

variable {α : Type*} {n : ℕ} {p : List α → Prop} {s t full seen : List α}

/-- Some block of `s` has `p`, or as much of it as there is. A block is `n` elements from a multiple of `n`. -/
def InBlock (n : ℕ) (p : List α → Prop) (s : List α) : Prop :=
  ∃ front block back, s = front ++ (block ++ back) ∧ n ∣ front.length ∧ block.length ≤ n ∧ p block

theorem inBlock_iff : InBlock n p s ↔ ∃ i < s.length + 1, n ∣ i ∧ ∃ j < n + 1, p ((s.drop i).take j) := by
  constructor
  · rintro ⟨front, block, back, rfl, hfront, hblock, hp⟩
    refine ⟨front.length, ?_, hfront, block.length, Nat.lt_succ_of_le hblock, ?_⟩
    · rw [List.length_append]
      omega
    · rwa [List.drop_left, List.take_left]
  · rintro ⟨i, hi, hdvd, j, hj, hp⟩
    refine ⟨s.take i, (s.drop i).take j, (s.drop i).drop j, ?_, ?_, ?_, hp⟩
    · rw [List.take_append_drop, List.take_append_drop]
    · rwa [List.length_take_of_le (Nat.le_of_lt_succ hi)]
    · exact (List.length_take_le j _).trans (Nat.le_of_lt_succ hj)

instance [DecidablePred p] : Decidable (InBlock n p s) := decidable_of_iff _ inBlock_iff.symm

theorem InBlock.mono (h : InBlock n p s) (hs : s <+: t) : InBlock n p t := by
  obtain ⟨front, block, back, rfl, hfront, hblock, hp⟩ := h
  obtain ⟨rest, rfl⟩ := hs
  exact ⟨front, block, back ++ rest, by simp only [List.append_assoc], hfront, hblock, hp⟩

theorem InBlock.last (hfull : n ∣ full.length) (hseen : seen.length ≤ n) (hp : p seen) :
    InBlock n p (full ++ seen) := ⟨full, seen, [], by rw [List.append_nil], hfull, hseen, hp⟩

/-- After whole blocks, what is found is found in them or in the block that is being filled. -/
theorem inBlock_append (hnil : ¬p []) (hmono : ∀ b c, p b → p (b ++ c)) (hfull : n ∣ full.length)
    (hseen : seen.length ≤ n) : InBlock n p (full ++ seen) ↔ InBlock n p full ∨ p seen := by
  constructor
  · rintro ⟨front, block, back, heq, hfront, hblock, hp⟩
    by_cases hlt : front.length < full.length
    · -- the block lies within the whole blocks
      have hroom : n ≤ full.length - front.length :=
        Nat.le_of_dvd (by omega) (Nat.dvd_sub hfull hfront)
      have hwhole : front ++ block <+: full ++ seen := ⟨back, by rw [heq, List.append_assoc]⟩
      have hpre : front ++ block <+: full := by
        apply List.prefix_of_prefix_length_le hwhole (List.prefix_append full seen)
        rw [List.length_append]
        omega
      have hin : InBlock n p (front ++ block) := InBlock.last hfront hblock hp
      exact Or.inl (hin.mono hpre)
    · have hwhole : front <+: full ++ seen := ⟨block ++ back, heq.symm⟩
      obtain ⟨skipped, rfl⟩ := List.prefix_of_prefix_length_le (List.prefix_append full seen) hwhole (by omega)
      have hrest : seen = skipped ++ (block ++ back) := by
        rw [List.append_assoc] at heq
        exact List.append_cancel_left heq
      have hdvd : n ∣ skipped.length := by
        rw [List.length_append] at hfront
        exact (Nat.dvd_add_right hfull).mp hfront
      have hlen := congrArg List.length hrest
      simp only [List.length_append] at hlen
      rcases Nat.eq_zero_or_pos skipped.length with hzero | hpos
      · obtain rfl := List.eq_nil_of_length_eq_zero hzero
        rw [hrest]
        exact Or.inr (hmono block back hp)
      · -- a whole block on, nothing is left to find `p` in
        have hn := Nat.le_of_dvd hpos hdvd
        obtain rfl : block = [] := List.eq_nil_of_length_eq_zero (by omega)
        exact absurd hp hnil
  · rintro (h | h)
    · exact h.mono (List.prefix_append full seen)
    · exact InBlock.last hfull hseen h

end NoPorts.Lib
