import Mathlib.Data.List.Nodup
import Mathlib.Data.List.Perm.Basic

/-! Tables: at most one value under each key, in the order the keys came. -/
namespace NoPorts.Lib

/-- What stands in a reordering of mapped values is a reordering of their sources. -/
theorem exists_perm_of_perm_map {β γ : Type*} {f : β → γ} {xs : List β} {ys : List γ}
    (h : ys.Perm (xs.map f)) : ∃ xs' : List β, xs'.Perm xs ∧ ys = xs'.map f := by
  induction xs generalizing ys with
  | nil => exact ⟨[], List.Perm.refl [], List.perm_nil.mp h⟩
  | cons x xs ih =>
    obtain ⟨pre, post, rfl⟩ := List.append_of_mem (h.mem_iff.mpr List.mem_cons_self)
    have hrest : (pre ++ post).Perm (xs.map f) :=
      (List.perm_cons (f x)).mp (List.perm_middle.symm.trans h)
    obtain ⟨xs', hp, hxs'⟩ := ih hrest
    obtain ⟨l, r, rfl, rfl, rfl⟩ := List.map_eq_append_iff.mp hxs'.symm
    exact ⟨l ++ x :: r, List.perm_middle.trans (hp.cons x), by simp⟩

structure Table (κ α : Type*) where
  entries : List (κ × α)
  nodup : (entries.map Prod.fst).Nodup

namespace Table
variable {κ α : Type*}

def empty : Table κ α := ⟨[], List.nodup_nil⟩

def keys (t : Table κ α) : List κ := t.entries.map Prod.fst

def values (t : Table κ α) : List α := t.entries.map Prod.snd

/-- Every value as `f` changes it. -/
def mapValues (t : Table κ α) (f : κ → α → α) : Table κ α :=
  ⟨t.entries.map fun e => (e.1, f e.1 e.2), by
    rw [List.map_map]
    exact t.nodup⟩

/-! A table as a list of records, each under its own key. -/

section Mirrors
variable {ε : Type*} {record : ε → κ × α} {t : Table κ α} {records : List ε}

/-- `t` holds what `record` makes of each of `records`, and nothing else. -/
def Mirrors (record : ε → κ × α) (t : Table κ α) (records : List ε) : Prop :=
  t.entries.Perm (records.map record)

theorem mirrors_empty : Mirrors record (empty : Table κ α) [] := List.Perm.refl []

theorem Mirrors.perm (h : Mirrors record t records) {records' : List ε}
    (hp : records.Perm records') : Mirrors record t records' :=
  h.trans (hp.map record)

end Mirrors

variable [DecidableEq κ]

def get? (t : Table κ α) (k : κ) : Option α := (t.entries.find? (·.1 = k)).map Prod.snd

def erase (t : Table κ α) (k : κ) : Table κ α :=
  ⟨t.entries.filter (·.1 ≠ k), t.nodup.sublist (List.filter_sublist.map Prod.fst)⟩

/-- A new key comes last; a held one keeps its place. -/
def set (t : Table κ α) (k : κ) (a : α) : Table κ α :=
  if h : k ∈ t.entries.map Prod.fst then t.mapValues fun k' b => if k' = k then a else b
  else ⟨t.entries ++ [(k, a)], by
    rw [List.map_append, List.map_singleton, List.nodup_append]
    refine ⟨t.nodup, List.nodup_singleton k, ?_⟩
    intro x hx y hy hxy
    obtain rfl := List.mem_singleton.mp hy
    exact h (by rwa [hxy] at hx)⟩

/-- The value under `k` as `f` changes it. -/
def modify (t : Table κ α) (k : κ) (f : α → α) : Table κ α :=
  t.mapValues fun k' a => if k' = k then f a else a

theorem mem_entries_iff {t : Table κ α} {k : κ} {a : α} : (k, a) ∈ t.entries ↔ t.get? k = some a := by
  have hnd := t.nodup
  unfold get?
  generalize t.entries = es at hnd
  induction es with
  | nil => simp
  | cons e es ih =>
    obtain ⟨hne, hrest⟩ := List.nodup_cons.mp hnd
    by_cases hk : e.1 = k
    · have hfind : (e :: es).find? (·.1 = k) = some e := by simp [hk]
      rw [hfind, Option.map_some, Option.some.injEq, List.mem_cons]
      constructor
      · rintro (rfl | hmem)
        · rfl
        · exact absurd (List.mem_map_of_mem hmem) (by rwa [hk] at hne)
      · intro ha
        exact Or.inl (Prod.ext hk.symm ha.symm)
    · have hfind : (e :: es).find? (·.1 = k) = es.find? (·.1 = k) := by simp [hk]
      have hne : (k, a) ≠ e := by
        rintro rfl
        exact hk rfl
      rw [hfind, List.mem_cons, or_iff_right hne]
      exact ih hrest

theorem mem_keys_iff {t : Table κ α} {k : κ} : k ∈ t.keys ↔ ∃ a, t.get? k = some a := by
  simp only [keys, List.mem_map, Prod.exists, exists_and_right, exists_eq_right, mem_entries_iff]

@[simp] theorem get?_empty (k : κ) : (empty : Table κ α).get? k = none := rfl

@[simp] theorem get?_mapValues (t : Table κ α) (f : κ → α → α) (k : κ) :
    (t.mapValues f).get? k = (t.get? k).map (f k) := by
  simp only [get?, mapValues]
  induction t.entries with
  | nil => rfl
  | cons e es ih =>
    by_cases hk : e.1 = k
    · simp [hk]
    · simpa [hk] using ih

theorem get?_modify (t : Table κ α) (k k' : κ) (f : α → α) :
    (t.modify k f).get? k' = if k' = k then (t.get? k').map f else t.get? k' := by
  rw [modify, get?_mapValues]
  by_cases hk : k' = k
  · simp only [hk, if_true]
  · simp only [hk, if_false, Option.map_id']

theorem get?_erase (t : Table κ α) (k k' : κ) :
    (t.erase k).get? k' = if k' = k then none else t.get? k' := by
  simp only [get?, erase]
  induction t.entries with
  | nil => simp
  | cons e es ih =>
    by_cases hek : e.1 = k
    · simp only [List.filter_cons, hek, ne_eq, not_true_eq_false, decide_false, Bool.false_eq_true,
        if_false, List.find?_cons]
      by_cases hk : k' = k
      · simpa only [hk, if_true] using ih
      · have hne : ¬k = k' := fun h => hk h.symm
        simpa only [hk, hne, if_false, decide_false] using ih
    · simp only [List.filter_cons, hek, ne_eq, not_false_eq_true, decide_true, if_true,
        List.find?_cons]
      by_cases hek' : e.1 = k'
      · have hne : ¬k' = k := fun h => hek (hek'.trans h)
        simp only [hek', hne, decide_true, if_false]
      · simpa only [hek', decide_false] using ih

theorem get?_set (t : Table κ α) (k k' : κ) (a : α) :
    (t.set k a).get? k' = if k' = k then some a else t.get? k' := by
  unfold set
  split
  · rename_i hmem
    rw [get?_mapValues]
    by_cases hk : k' = k
    · obtain ⟨b, hb⟩ := mem_keys_iff.mp hmem
      simp only [hk, hb, Option.map_some, if_true]
    · simp only [hk, if_false, Option.map_id']
  · rename_i hmem
    unfold get?
    rw [List.find?_append]
    by_cases hk : k' = k
    · have hnone : t.entries.find? (·.1 = k') = none := by
        rw [List.find?_eq_none]
        intro e he hek
        refine hmem (List.mem_map.mpr ⟨e, he, ?_⟩)
        rw [of_decide_eq_true hek, hk]
      rw [hnone, hk]
      simp
    · have hne : ¬k = k' := fun h => hk h.symm
      simp [hk, hne]

/-- `a` under `k`, unless there is a value there. -/
def putIfAbsent (t : Table κ α) (k : κ) (a : α) : Table κ α := if (t.get? k).isSome then t else t.set k a

/-- An entry that is changed, and made first where there is none. -/
theorem get?_putIfAbsent_modify (t : Table κ α) (k k' : κ) (a : α) (f : α → α) :
    ((t.putIfAbsent k a).modify k f).get? k' = if k' = k then some (f ((t.get? k).getD a)) else t.get? k' := by
  rw [get?_modify, putIfAbsent]
  by_cases hk : k' = k
  · subst hk
    rw [if_pos rfl, if_pos rfl]
    cases hget : t.get? k' with
    | none =>
      rw [if_neg (by rw [Option.isSome_none]; exact Bool.false_ne_true), get?_set, if_pos rfl]
      rfl
    | some b =>
      rw [if_pos (by rw [Option.isSome_some]), hget]
      rfl
  · rw [if_neg hk, if_neg hk]
    split
    · rfl
    · rw [get?_set, if_neg hk]

/-- Steps that each add `Q` of their item to what makes `P` hold. -/
theorem foldl_adds {β γ : Type*} {step : β → γ → β} {P : β → Prop} {Q : γ → Prop}
    (h : ∀ b c, P (step b c) ↔ P b ∨ Q c) (cs : List γ) (b : β) : P (cs.foldl step b) ↔ P b ∨ ∃ c ∈ cs, Q c := by
  induction cs generalizing b with
  | nil => simp only [List.foldl_nil, List.not_mem_nil, false_and, exists_false, or_false]
  | cons c cs ih => rw [List.foldl_cons, ih, h, List.exists_mem_cons_iff, or_assoc]

/-- The same of steps that may fail. -/
theorem foldlM_adds {β γ : Type*} {step : β → γ → Option β} {P : β → Prop} {Q : γ → Prop}
    (h : ∀ b c b', step b c = some b' → (P b' ↔ P b ∨ Q c)) {cs : List γ} {b b' : β}
    (hfold : cs.foldlM step b = some b') : P b' ↔ P b ∨ ∃ c ∈ cs, Q c := by
  induction cs generalizing b with
  | nil =>
    obtain rfl := Option.some.inj hfold
    simp only [List.not_mem_nil, false_and, exists_false, or_false]
  | cons c cs ih =>
    rw [List.foldlM_cons] at hfold
    obtain ⟨m, hm, hrest⟩ := Option.bind_eq_some_iff.mp hfold
    rw [ih hrest, h b c m hm, List.exists_mem_cons_iff, or_assoc]

/-- Steps that never fail. -/
theorem foldlM_eq_some {β γ : Type*} {step : β → γ → Option β} {f : β → γ → β} {cs : List γ}
    (h : ∀ b, ∀ c ∈ cs, step b c = some (f b c)) (b : β) : cs.foldlM step b = some (cs.foldl f b) := by
  induction cs generalizing b with
  | nil => rfl
  | cons c cs ih =>
    rw [List.foldlM_cons, h b c List.mem_cons_self]
    exact ih (fun b d hd => h b d (List.mem_cons_of_mem c hd)) (f b c)

/-- The value under `k`, `a` where there is none, as `f` changes it. -/
def update (t : Table κ α) (k : κ) (a : α) (f : α → Option α) : Option (Table κ α) :=
  (f ((t.get? k).getD a)).map fun b => (t.putIfAbsent k a).modify k fun _ => b

/-- There is a value under `k`, and it meets `P`. -/
def HasAt (t : Table κ α) (k : κ) (P : α → Prop) : Prop := ∃ a, t.get? k = some a ∧ P a

theorem not_hasAt_empty (k : κ) (P : α → Prop) : ¬(empty : Table κ α).HasAt k P := by
  rintro ⟨a, ha, -⟩
  cases ha

/-- A change that adds `Q` to what makes a value meet `P`, of an entry that is made first where there is none. -/
theorem hasAt_putIfAbsent_modify {t : Table κ α} {k k' : κ} {a : α} {f : α → α} {P : α → Prop} {Q : Prop}
    (hf : ∀ b, P (f b) ↔ P b ∨ Q) (ha : P (f a) ↔ Q) :
    ((t.putIfAbsent k a).modify k f).HasAt k' P ↔ t.HasAt k' P ∨ k' = k ∧ Q := by
  rw [HasAt, get?_putIfAbsent_modify]
  by_cases hk : k' = k
  · subst hk
    simp only [if_true, Option.some.injEq, exists_eq_left', true_and]
    cases hget : t.get? k' with
    | none => simp [HasAt, hget, ha]
    | some b => simp [HasAt, hget, hf]
  · simp only [hk, false_and, or_false]
    rfl

/-- A change that never fails. -/
theorem update_some (t : Table κ α) (k : κ) (a : α) {f : α → Option α} {g : α → α} (h : ∀ b, f b = some (g b)) :
    t.update k a f = some ((t.putIfAbsent k a).modify k g) := by
  have hget : (t.putIfAbsent k a).get? k = some ((t.get? k).getD a) := by
    have hsome := get?_putIfAbsent_modify t k k a id
    rw [get?_modify, if_pos rfl, if_pos rfl, Option.map_id] at hsome
    exact hsome
  rw [update, h, Option.map_some, Option.some.injEq, modify, modify, mapValues, mapValues, mk.injEq]
  apply List.map_congr_left
  rintro ⟨k', b⟩ he
  by_cases hk : k' = k
  · subst hk
    rw [mem_entries_iff.mp he] at hget
    simp only [if_true, Option.some.inj hget]
  · simp only [hk, if_false]

theorem hasAt_update {t t' : Table κ α} {k k' : κ} {a : α} {f : α → Option α} {P : α → Prop} {Q : Prop}
    (h : t.update k a f = some t') (hf : ∀ b b', f b = some b' → (P b' ↔ P b ∨ Q)) (ha : P a → Q) :
    t'.HasAt k' P ↔ t.HasAt k' P ∨ k' = k ∧ Q := by
  obtain ⟨b, hb, rfl⟩ := Option.map_eq_some_iff.mp h
  rw [HasAt, get?_putIfAbsent_modify]
  by_cases hk : k' = k
  · subst hk
    simp only [if_true, Option.some.injEq, exists_eq_left', true_and]
    rw [hf _ _ hb]
    cases hget : t.get? k' with
    | none => simpa [HasAt, hget] using ha
    | some c => simp [HasAt, hget]
  · simp only [hk, false_and, or_false]
    rfl

theorem entries_set_perm {t : Table κ α} {k : κ} (a : α) (h : k ∉ t.keys) :
    (t.set k a).entries.Perm ((k, a) :: t.entries) := by
  unfold set
  rw [dif_neg (show ¬k ∈ t.entries.map Prod.fst from h)]
  exact List.perm_append_singleton (k, a) t.entries

section Mirrors
variable {ε : Type*} {record : ε → κ × α} {t : Table κ α} {records : List ε}

theorem Mirrors.set (h : Mirrors record t records) {e : ε}
    (hfresh : ∀ x ∈ records, (record x).1 ≠ (record e).1) :
    Mirrors record (t.set (record e).1 (record e).2) (e :: records) := by
  have hkey : (record e).1 ∉ t.keys := by
    intro hk
    obtain ⟨entry, hentry, hfst⟩ := List.mem_map.mp hk
    obtain ⟨x, hx, rfl⟩ := List.mem_map.mp (h.mem_iff.mp hentry)
    exact hfresh x hx hfst
  apply (entries_set_perm (record e).2 hkey).trans
  rw [List.map_cons]
  exact h.cons (record e)

theorem Mirrors.erase {e : ε} (h : Mirrors record t (e :: records)) :
    Mirrors record (t.erase (record e).1) records := by
  have hnd : ((record e).1 :: (records.map record).map Prod.fst).Nodup := by
    have hp := h.map Prod.fst
    rw [List.map_cons, List.map_cons] at hp
    exact hp.nodup_iff.mp t.nodup
  have hothers : ∀ x ∈ records.map record, decide (x.1 ≠ (record e).1) = true := by
    intro x hx
    apply decide_eq_true
    intro heq
    exact (List.nodup_cons.mp hnd).1 (heq ▸ List.mem_map_of_mem hx)
  have hp := h.filter (fun x => decide (x.1 ≠ (record e).1))
  rw [List.map_cons, List.filter_cons_of_neg (by simp), List.filter_eq_self.mpr hothers] at hp
  exact hp

end Mirrors
end Table
end NoPorts.Lib
