import Mathlib.Data.List.Basic
import Mathlib.Data.List.Nodup
import Mathlib.Order.Lattice

/-! A table of slots that keeps each key's latest record, and gives up the oldest record when
it is full. -/
namespace NoPorts.Lib

variable {α K T : Type*} [LinearOrder T] (key : α → K) (stamp : α → T)

/-- A record takes the slot of its key's last one, else an unused slot, else that of the
record stamped longest ago. -/
inductive Recorded (slots : List (Option α)) (a : α) : List (Option α) → Prop
  | same (i : ℕ) (b : α) (h : slots[i]? = some (some b)) (hkey : key b = key a) :
    Recorded slots a (slots.set i (some a))
  | unused (i : ℕ) (h : slots[i]? = some none) (hkey : ∀ b, some b ∈ slots → key b ≠ key a) :
    Recorded slots a (slots.set i (some a))
  | oldest (i : ℕ) (b : α) (h : slots[i]? = some (some b))
    (hkey : ∀ c, some c ∈ slots → key c ≠ key a) (hfull : none ∉ slots)
    (hold : ∀ c, some c ∈ slots → stamp b ≤ stamp c) :
    Recorded slots a (slots.set i (some a))

/-- `n` other keys have records no older than `a`. -/
def Crowded (n : ℕ) (log : List α) (a : α) : Prop :=
  ∃ keys : List K, keys.Nodup ∧ keys.length = n ∧ key a ∉ keys ∧
    ∀ k ∈ keys, ∃ b ∈ log, key b = k ∧ stamp a ≤ stamp b

/-- Each slot is of a key of its own and holds one of the records made; a record made is
superseded in its key's slot, if not still there, or crowded out. -/
structure Remembers (slots : List (Option α)) (log : List α) : Prop where
  one : ∀ (i j : ℕ) (b c : α), slots[i]? = some (some b) → slots[j]? = some (some c) → key b = key c → i = j
  held : ∀ b, some b ∈ slots → b ∈ log
  kept : ∀ a ∈ log, (∃ b, some b ∈ slots ∧ key b = key a ∧ stamp a ≤ stamp b) ∨
    Crowded key stamp slots.length log a

variable {key stamp}

theorem getElem?_set_some {slots : List (Option α)} {i j : ℕ} {a b : α}
    (h : (slots.set i (some a))[j]? = some (some b)) :
    j = i ∧ b = a ∨ j ≠ i ∧ slots[j]? = some (some b) := by
  by_cases hji : j = i
  · subst hji
    rw [List.getElem?_set_self'] at h
    obtain ⟨x, -, hx⟩ := Option.map_eq_some_iff.mp h
    exact Or.inl ⟨rfl, (Option.some.inj hx).symm⟩
  · rw [List.getElem?_set_ne (Ne.symm hji)] at h
    exact Or.inr ⟨hji, h⟩

theorem Crowded.mono {n : ℕ} {log log' : List α} {a : α} (h : Crowded key stamp n log a)
    (hlog : log ⊆ log') : Crowded key stamp n log' a := by
  obtain ⟨keys, hnodup, hlen, hnot, hmem⟩ := h
  refine ⟨keys, hnodup, hlen, hnot, fun k hk => ?_⟩
  obtain ⟨b, hb, hkey, hle⟩ := hmem k hk
  exact ⟨b, hlog hb, hkey, hle⟩

theorem Recorded.length {slots slots' : List (Option α)} {a : α}
    (h : Recorded key stamp slots a slots') : slots'.length = slots.length := by
  cases h <;> exact List.length_set

theorem Remembers.unused (n : ℕ) :
    Remembers key stamp (List.replicate n (none : Option α)) [] where
  one i j b c h := by
    cases List.eq_of_mem_replicate (List.mem_of_getElem? h)
  held b h := by
    cases List.eq_of_mem_replicate h
  kept a h := absurd h List.not_mem_nil

theorem exists_map_some {slots : List (Option α)} (hfull : none ∉ slots) :
    ∃ cs : List α, slots = cs.map some := by
  induction slots with
  | nil => exact ⟨[], rfl⟩
  | cons o slots ih =>
    obtain ⟨cs, hcs⟩ := ih fun h => hfull (List.mem_cons_of_mem o h)
    cases o with
    | none => exact absurd List.mem_cons_self hfull
    | some c => exact ⟨c :: cs, by rw [hcs, List.map_cons]⟩

/-- A full table of `n` slots holds `n` keys. -/
theorem Remembers.nodup_keys {cs log : List α} (h : Remembers key stamp (cs.map some) log) :
    (cs.map key).Nodup := by
  rw [List.Nodup, List.pairwise_iff_getElem]
  intro i j hi hj hij heq
  rw [List.getElem_map, List.getElem_map] at heq
  rw [List.length_map] at hi hj
  have hget (k : ℕ) (hk : k < cs.length) : (cs.map some)[k]? = some (some cs[k]) := by
    rw [List.getElem?_map, List.getElem?_eq_getElem hk, Option.map_some]
  exact absurd (h.one i j _ _ (hget i hi) (hget j hj) heq) (Nat.ne_of_lt hij)

/-- The oldest record of a full table leaves the other keys and the new one behind. -/
theorem Remembers.crowded {slots : List (Option α)} {log : List α} {a b : α}
    (h : Remembers key stamp slots log) (hb : some b ∈ slots)
    (hkey : ∀ c, some c ∈ slots → key c ≠ key a) (hfull : none ∉ slots)
    (hold : ∀ c, some c ∈ slots → stamp b ≤ stamp c) (hba : stamp b ≤ stamp a) :
    Crowded key stamp slots.length (log ++ [a]) b := by
  obtain ⟨cs, rfl⟩ := exists_map_some hfull
  have hmem {c : α} (hc : c ∈ cs) : some c ∈ cs.map some := List.mem_map_of_mem hc
  obtain ⟨c, hc, hcb⟩ := List.mem_map.mp hb
  obtain rfl := Option.some.inj hcb
  obtain ⟨xs, ys, rfl⟩ := List.append_of_mem hc
  have hperm : (xs ++ c :: ys).Perm (c :: (xs ++ ys)) := List.perm_middle
  have hnodup := (hperm.map key).nodup_iff.mp h.nodup_keys
  rw [List.map_cons, List.nodup_cons] at hnodup
  have hothers {d : α} (hd : d ∈ xs ++ ys) : d ∈ xs ++ c :: ys :=
    hperm.mem_iff.mpr (List.mem_cons_of_mem c hd)
  refine ⟨key a :: (xs ++ ys).map key, List.nodup_cons.mpr ⟨?_, hnodup.2⟩, ?_, ?_, ?_⟩
  · rw [List.mem_map]
    rintro ⟨d, hd, hda⟩
    exact hkey d (hmem (hothers hd)) hda
  · rw [List.length_cons, List.length_map, List.length_map, hperm.length_eq, List.length_cons]
  · rw [List.mem_cons, not_or]
    exact ⟨hkey c hb, hnodup.1⟩
  · intro k hk
    rcases List.mem_cons.mp hk with rfl | hk
    · exact ⟨a, by simp, rfl, hba⟩
    · obtain ⟨d, hd, rfl⟩ := List.mem_map.mp hk
      have hslot := hmem (hothers hd)
      exact ⟨d, List.mem_append_left _ (h.held d hslot), rfl, hold d hslot⟩

/-- Where the new record goes: no other slot is of its key, and what it replaces is
superseded or crowded out. -/
theorem Recorded.spec {slots slots' : List (Option α)} {log : List α} {a : α}
    (hr : Recorded key stamp slots a slots') (h : Remembers key stamp slots log)
    (hlatest : ∀ b ∈ log, stamp b ≤ stamp a) :
    ∃ i, i < slots.length ∧ slots' = slots.set i (some a) ∧
      (∀ (j : ℕ) c, slots[j]? = some (some c) → key c = key a → j = i) ∧
        ∀ b, slots[i]? = some (some b) →
          key b = key a ∨ Crowded key stamp slots.length (log ++ [a]) b := by
  have hne {i : ℕ} (hkey : ∀ c, some c ∈ slots → key c ≠ key a) (j : ℕ) (c : α)
      (hj : slots[j]? = some (some c)) (hc : key c = key a) : j = i :=
    absurd hc (hkey c (List.mem_of_getElem? hj))
  cases hr with
  | same i b hi hkey =>
    refine ⟨i, (List.getElem?_eq_some_iff.mp hi).1, rfl, ?_, ?_⟩
    · exact fun j c hj hc => h.one j i c b hj hi (hc.trans hkey.symm)
    · intro c hc
      rw [hi] at hc
      cases hc
      exact Or.inl hkey
  | unused i hi hkey =>
    refine ⟨i, (List.getElem?_eq_some_iff.mp hi).1, rfl, hne hkey, ?_⟩
    intro c hc
    rw [hi] at hc
    cases hc
  | oldest i b hi hkey hfull hold =>
    refine ⟨i, (List.getElem?_eq_some_iff.mp hi).1, rfl, hne hkey, ?_⟩
    intro c hc
    rw [hi] at hc
    cases hc
    have hb := List.mem_of_getElem? hi
    exact Or.inr (h.crowded hb hkey hfull hold (hlatest b (h.held b hb)))

/-- A record made at the latest stamp keeps the table what it is. -/
theorem Remembers.record {slots slots' : List (Option α)} {log : List α} {a : α}
    (h : Remembers key stamp slots log) (hlatest : ∀ b ∈ log, stamp b ≤ stamp a)
    (hr : Recorded key stamp slots a slots') : Remembers key stamp slots' (log ++ [a]) := by
  obtain ⟨i, hi, rfl, hother, hreplaced⟩ := hr.spec h hlatest
  have hnew : some a ∈ slots.set i (some a) := List.mem_set hi (some a)
  refine ⟨?_, ?_, ?_⟩
  · intro j k b c hj hk hbc
    rcases getElem?_set_some hj with ⟨hji, hb⟩ | ⟨hji, hj'⟩ <;>
    rcases getElem?_set_some hk with ⟨hki, hc⟩ | ⟨hki, hk'⟩
    · rw [hji, hki]
    · rw [hji, hother k c hk' (hbc.symm.trans (congrArg key hb))]
    · rw [hki, hother j b hj' (hbc.trans (congrArg key hc))]
    · exact h.one j k b c hj' hk' hbc
  · intro b hb
    obtain ⟨j, hj⟩ := List.mem_iff_getElem?.mp hb
    rcases getElem?_set_some hj with ⟨-, rfl⟩ | ⟨-, hj⟩
    · exact List.mem_append_right _ (List.mem_singleton_self b)
    · exact List.mem_append_left _ (h.held b (List.mem_of_getElem? hj))
  · intro x hx
    rw [List.length_set]
    rcases List.mem_append.mp hx with hx | hx
    · rcases h.kept x hx with ⟨b, hb, hkey, hle⟩ | hcrowded
      · obtain ⟨j, hj⟩ := List.mem_iff_getElem?.mp hb
        by_cases hji : j = i
        · subst hji
          rcases hreplaced b hj with hsame | ⟨keys, hnodup, hlen, hnot, hmem⟩
          · exact Or.inl ⟨a, hnew, hsame.symm.trans hkey, le_trans hle (hlatest b (h.held b hb))⟩
          · refine Or.inr ⟨keys, hnodup, hlen, hkey ▸ hnot, fun k hk => ?_⟩
            obtain ⟨c, hc, hck, hbc⟩ := hmem k hk
            exact ⟨c, hc, hck, le_trans hle hbc⟩
        · refine Or.inl ⟨b, List.mem_iff_getElem?.mpr ⟨j, ?_⟩, hkey, hle⟩
          rw [List.getElem?_set_ne (Ne.symm hji), hj]
      · exact Or.inr (hcrowded.mono (List.subset_append_left log [a]))
    · obtain rfl := List.mem_singleton.mp hx
      exact Or.inl ⟨x, hnew, rfl, le_refl _⟩

end NoPorts.Lib
