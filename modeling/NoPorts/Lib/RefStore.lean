import Mathlib.Data.List.Perm.Basic
import Mathlib.Data.List.Nodup

/-! Entries stored under keys and naming one another by key. -/
namespace NoPorts.Lib

variable {ε κ : Type*} (key : ε → κ) (names : ε → List κ)

/-- Every name resolves to a stored entry, and no two entries share a key. -/
structure RefStore (store : List ε) : Prop where
  resolved : ∀ e ∈ store, ∀ k ∈ names e, ∃ t ∈ store, key t = k
  unique : (store.map key).Nodup

namespace RefStore
variable {key names}

theorem nil : RefStore key names [] := ⟨by simp, by simp⟩

theorem perm {store store' : List ε} (h : RefStore key names store) (hp : store'.Perm store) :
    RefStore key names store' := by
  refine ⟨fun e he k hk => ?_, (hp.map key).nodup_iff.mpr h.unique⟩
  obtain ⟨t, ht, hkey⟩ := h.resolved e (hp.mem_iff.mp he) k hk
  exact ⟨t, hp.mem_iff.mpr ht, hkey⟩

/-- Adding an entry under a fresh key, whose names all resolve already. -/
theorem insert {store : List ε} {e : ε} (h : RefStore key names store)
    (hfresh : ∀ t ∈ store, key t ≠ key e)
    (hnames : ∀ k ∈ names e, ∃ t ∈ store, key t = k) : RefStore key names (e :: store) := by
  refine ⟨?_, ?_⟩
  · intro x hx k hk
    have hin : ∃ t ∈ store, key t = k := by
      rcases List.mem_cons.mp hx with rfl | hx
      · exact hnames k hk
      · exact h.resolved x hx k hk
    obtain ⟨t, ht, hkey⟩ := hin
    exact ⟨t, List.mem_cons_of_mem e ht, hkey⟩
  · rw [List.map_cons, List.nodup_cons]
    refine ⟨fun hm => ?_, h.unique⟩
    obtain ⟨t, ht, hkey⟩ := List.mem_map.mp hm
    exact hfresh t ht hkey

/-- Removing an entry that no other entry names. -/
theorem remove {store : List ε} {e : ε} (h : RefStore key names (e :: store))
    (hfree : ∀ x ∈ store, key e ∉ names x) : RefStore key names store := by
  refine ⟨fun x hx k hk => ?_, (List.nodup_cons.mp h.unique).2⟩
  obtain ⟨t, ht, hkey⟩ := h.resolved x (List.mem_cons_of_mem e hx) k hk
  rcases List.mem_cons.mp ht with rfl | ht
  · exact absurd hk (hkey ▸ hfree x hx)
  · exact ⟨t, ht, hkey⟩

/-- A removed entry's key is gone with it. -/
theorem key_ne_of_remove {store : List ε} {e x : ε} (h : RefStore key names (e :: store))
    (hx : x ∈ store) : key x ≠ key e := by
  intro hk
  have hn := (List.nodup_cons.mp h.unique).1
  exact hn (hk ▸ List.mem_map_of_mem hx)

end RefStore
end NoPorts.Lib
