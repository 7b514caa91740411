import NoPorts.ArduinoSocketBudget

/-! Which sub of an Arduino relay gives up its slot for a new one. -/
namespace NoPorts.ArduinoBudget
open Lib

/-- A slot with the bytes that wait in it: in the receive buffers of its sockets, and to be sent. -/
structure BufferedSub extends RelaySub where
  rvdAvailable : ℕ
  localAvailable : ℕ
  pending_rvd_len : ℕ
  pending_local_len : ℕ
  deriving DecidableEq, Repr

namespace BufferedSub

def available (sub : BufferedSub) : Bool := sub.rvdAvailable > 0 || sub.localAvailable > 0

/-- Since its last activity, by the clock of 32 bits. -/
def idle (sub : BufferedSub) (now : UInt32) : UInt32 := now - sub.last_activity_ms

/-- It may be evicted. -/
structure Fit (now : UInt32) (sub : BufferedSub) : Prop where
  active : sub.active = true
  idle : sub.idle now > SUB_EVICTION_GRACE_MS
  unread : sub.rvdAvailable = 0 ∧ sub.localAvailable = 0
  unsent : sub.pending_rvd_len = 0 ∧ sub.pending_local_len = 0

end BufferedSub

/-- `_find_evictable_sub`, which does not look at what is to be sent. -/
def BufferedSub.findEvictableSub (subs : List BufferedSub) (now : UInt32) : Option ℕ :=
  ArduinoBudget.findEvictableSub (subs.map (·.toRelaySub)) now fun i => (subs[i]?.map (·.available)).getD false

/-- The victim is the sub that has been idle for longest among those that may be evicted, if there is one. -/
def PicksIdlest (subs : List BufferedSub) (now : UInt32) : Option ℕ → Prop
  | none => ∀ sub ∈ subs, ¬sub.Fit now
  | some i => ∃ sub, subs[i]? = some sub ∧ sub.Fit now ∧
      ∀ other ∈ subs, other.Fit now → other.idle now ≤ sub.idle now

/-- The stamps alone tell which sub to evict. -/
structure StampsTell (subs : List BufferedSub) (now : UInt32) : Prop where
  /-- Before a sub with bytes to send, and otherwise evictable, one that may be evicted is stamped. -/
  unsent : ∀ (i : ℕ) (sub : BufferedSub), subs[i]? = some sub → sub.evictable now sub.available = true →
    sub.last_activity_ms < ULONG_MAX → ¬(sub.pending_rvd_len = 0 ∧ sub.pending_local_len = 0) →
      ∃ (j : ℕ) (other : BufferedSub), subs[j]? = some other ∧ other.Fit now ∧
        (other.last_activity_ms < sub.last_activity_ms ∨ other.last_activity_ms = sub.last_activity_ms ∧ j < i)
  /-- The clock has not wrapped between the stamps of two that may be evicted. -/
  wrap : ∀ sub ∈ subs, ∀ other ∈ subs, sub.Fit now → other.Fit now →
    ¬(sub.last_activity_ms ≤ now ∧ now < other.last_activity_ms)
  /-- Not all of those are stamped with the clock's last value. -/
  last : ∀ sub ∈ subs, sub.Fit now → sub.last_activity_ms = ULONG_MAX →
    ∃ other ∈ subs, other.Fit now ∧ other.last_activity_ms < ULONG_MAX

/-! ### What the loop picks -/

/-- The first of the evictable subs with the least stamp. -/
inductive Picked (subs : List RelaySub) (now : UInt32) (available : ℕ → Bool) : Option ℕ × UInt32 → Prop
  | none (h : ∀ (i : ℕ) (sub : RelaySub), subs[i]? = some sub → sub.evictable now (available i) = true →
      ULONG_MAX ≤ sub.last_activity_ms) : Picked subs now available (none, ULONG_MAX)
  | some (i : ℕ) (sub : RelaySub) (hsub : subs[i]? = some sub) (hi : sub.evictable now (available i) = true)
    (hlt : sub.last_activity_ms < ULONG_MAX)
    (hleast : ∀ (j : ℕ) (other : RelaySub), subs[j]? = some other → other.evictable now (available j) = true →
      sub.last_activity_ms ≤ other.last_activity_ms ∧ (j < i → sub.last_activity_ms < other.last_activity_ms)) :
    Picked subs now available (some i, sub.last_activity_ms)

theorem picked_fold (subs : List RelaySub) (now : UInt32) (available : ℕ → Bool) :
    Picked subs now available (subs.zipIdx.foldl (fun best e =>
      if e.1.evictable now (available e.2) && e.1.last_activity_ms < best.2 then (some e.2, e.1.last_activity_ms)
      else best) ((none : Option ℕ), ULONG_MAX)) := by
  induction subs using List.reverseRecOn with
  | nil =>
    apply Picked.none
    intro i sub h
    cases h
  | append_singleton subs last ih =>
    rw [List.zipIdx_append, List.foldl_append]
    generalize subs.zipIdx.foldl _ _ = best at ih ⊢
    rw [List.zipIdx_singleton, List.foldl_cons, List.foldl_nil, Nat.zero_add]
    have hlast : (subs ++ [last])[subs.length]? = some last := List.getElem?_concat_length
    by_cases htaken : (last.evictable now (available subs.length) && last.last_activity_ms < best.2) = true
    · -- the last is stamped before all those that came earlier
      rw [if_pos htaken]
      obtain ⟨hevictable, hbefore⟩ := Bool.and_eq_true_iff.mp htaken
      have hlt := UInt32.lt_iff_toNat_lt.mp (of_decide_eq_true hbefore)
      have hall : last.last_activity_ms < ULONG_MAX ∧ ∀ (j : ℕ) (other : RelaySub), subs[j]? = some other →
          other.evictable now (available j) = true → last.last_activity_ms < other.last_activity_ms := by
        cases ih with
        | none h =>
          refine ⟨of_decide_eq_true hbefore, fun j other hj hother => ?_⟩
          exact UInt32.lt_of_lt_of_le (of_decide_eq_true hbefore) (h j other hj hother)
        | some i sub hsub hi hmax hleast =>
          refine ⟨UInt32.lt_trans (of_decide_eq_true hbefore) hmax, fun j other hj hother => ?_⟩
          exact UInt32.lt_of_lt_of_le (of_decide_eq_true hbefore) (hleast j other hj hother).1
      refine .some subs.length last hlast hevictable hall.1 fun j other hj hother => ?_
      rcases getElem?_concat_cases hj with hj | ⟨rfl, rfl⟩
      · have hless := hall.2 j other hj hother
        exact ⟨UInt32.le_of_lt hless, fun _ => hless⟩
      · exact ⟨UInt32.le_refl _, fun hself => absurd hself (Nat.lt_irrefl _)⟩
    · rw [if_neg htaken]
      have hnot (hevictable : last.evictable now (available subs.length) = true) :
          best.2 ≤ last.last_activity_ms := by
        apply UInt32.not_lt.mp
        intro hbefore
        exact htaken (Bool.and_eq_true_iff.mpr ⟨hevictable, decide_eq_true hbefore⟩)
      cases ih with
      | none h =>
        refine .none fun i sub hi hevictable => ?_
        rcases getElem?_concat_cases hi with hi | ⟨rfl, rfl⟩
        · exact h i sub hi hevictable
        · exact hnot hevictable
      | some i sub hsub hi hmax hleast =>
        have hlen := (List.getElem?_eq_some_iff.mp hsub).1
        refine .some i sub ((List.getElem?_append_left hlen).trans hsub) hi hmax fun j other hj hother => ?_
        rcases getElem?_concat_cases hj with hj | ⟨rfl, rfl⟩
        · exact hleast j other hj hother
        · exact ⟨hnot hother, fun hless => absurd hless (by omega)⟩

theorem evictable_iff {sub : RelaySub} {now : UInt32} {available : Bool} :
    sub.evictable now available = true ↔
      sub.active = true ∧ available = false ∧ now - sub.last_activity_ms > SUB_EVICTION_GRACE_MS := by
  simp only [RelaySub.evictable, Bool.and_eq_true, Bool.not_eq_true', decide_eq_true_eq]
  constructor
  · rintro ⟨⟨⟨hactive, -⟩, havailable⟩, hidle⟩
    exact ⟨hactive, havailable, hidle⟩
  · rintro ⟨hactive, havailable, hidle⟩
    refine ⟨⟨⟨hactive, ?_⟩, havailable⟩, hidle⟩
    -- no sub in its grace window is idle for longer than that
    rw [Bool.and_eq_false_iff]
    exact Or.inr (decide_eq_false fun hgrace => UInt32.lt_irrefl _ (UInt32.lt_trans hidle hgrace))

theorem BufferedSub.fit_iff {sub : BufferedSub} {now : UInt32} : sub.Fit now ↔
    sub.evictable now sub.available = true ∧ sub.pending_rvd_len = 0 ∧ sub.pending_local_len = 0 := by
  have havailable : sub.available = false ↔ sub.rvdAvailable = 0 ∧ sub.localAvailable = 0 := by
    simp only [BufferedSub.available, Bool.or_eq_false_iff, decide_eq_false_iff_not]
    omega
  rw [evictable_iff, havailable]
  constructor
  · intro h
    exact ⟨⟨h.active, h.unread, h.idle⟩, h.unsent⟩
  · rintro ⟨⟨hactive, hunread, hidle⟩, hunsent⟩
    exact ⟨hactive, hidle, hunread, hunsent⟩

/-- What the loop picks, said of the buffered subs. -/
theorem findEvictableSub_cases (subs : List BufferedSub) (now : UInt32) :
    (BufferedSub.findEvictableSub subs now = none ∧ ∀ sub ∈ subs, sub.evictable now sub.available = true →
        ULONG_MAX ≤ sub.last_activity_ms) ∨
      ∃ (i : ℕ) (sub : BufferedSub), BufferedSub.findEvictableSub subs now = some i ∧ subs[i]? = some sub ∧
        sub.evictable now sub.available = true ∧ sub.last_activity_ms < ULONG_MAX ∧
          ∀ (j : ℕ) (other : BufferedSub), subs[j]? = some other → other.evictable now other.available = true →
            sub.last_activity_ms ≤ other.last_activity_ms ∧ (j < i → sub.last_activity_ms < other.last_activity_ms) := by
  have hpicked := picked_fold (subs.map (·.toRelaySub)) now fun i => (subs[i]?.map (·.available)).getD false
  have hat (i : ℕ) (sub : BufferedSub) (h : subs[i]? = some sub) :
      (subs.map (·.toRelaySub))[i]? = some sub.toRelaySub ∧ (subs[i]?.map (·.available)).getD false = sub.available := by
    rw [List.getElem?_map, h]
    exact ⟨rfl, rfl⟩
  unfold BufferedSub.findEvictableSub ArduinoBudget.findEvictableSub
  generalize (subs.map (·.toRelaySub)).zipIdx.foldl _ _ = best at hpicked
  cases hpicked with
  | none h =>
    refine Or.inl ⟨rfl, fun sub hsub hevictable => ?_⟩
    obtain ⟨i, hi⟩ := List.mem_iff_getElem?.mp hsub
    obtain ⟨hget, havailable⟩ := hat i sub hi
    exact h i sub.toRelaySub hget (havailable ▸ hevictable)
  | some i relay hrelay hi hmax hleast =>
    rw [List.getElem?_map] at hrelay
    obtain ⟨sub, hsub, rfl⟩ := Option.map_eq_some_iff.mp hrelay
    refine Or.inr ⟨i, sub, rfl, hsub, (hat i sub hsub).2 ▸ hi, hmax, fun j other hj hother => ?_⟩
    obtain ⟨hget, havailable⟩ := hat j other hj
    exact hleast j other.toRelaySub hget (havailable ▸ hother)

/-! ### Stamps and idle times -/

/-- Of two stamps in order, the first is of the sub that has been idle for longer, unless the clock has wrapped
between them. -/
theorem idle_le_iff {now first second : UInt32} (h : first ≤ second) :
    now - second ≤ now - first ↔ ¬(first ≤ now ∧ now < second) := by
  have hfirst := first.toNat_lt
  have hsecond := second.toNat_lt
  have hnow := now.toNat_lt
  rw [UInt32.le_iff_toNat_le] at h ⊢
  rw [UInt32.le_iff_toNat_le, UInt32.lt_iff_toNat_lt, UInt32.toNat_sub, UInt32.toNat_sub]
  omega

theorem lt_max_or_eq (t : UInt32) : t < ULONG_MAX ∨ t = ULONG_MAX := by
  have hle : t ≤ ULONG_MAX := by
    rw [UInt32.le_iff_toNat_le]
    exact Nat.le_of_lt_succ t.toNat_lt
  rcases UInt32.lt_or_eq_of_le hle with hlt | heq
  · exact Or.inl hlt
  · exact Or.inr heq

/-- The victim is the right one exactly when the stamps tell it. -/
theorem findEvictableSub_idlest_iff (subs : List BufferedSub) (now : UInt32) :
    PicksIdlest subs now (BufferedSub.findEvictableSub subs now) ↔ StampsTell subs now := by
  rcases findEvictableSub_cases subs now with ⟨hnone, hlast⟩ | ⟨i, sub, hsome, hsub, hevictable, hmax, hleast⟩
  · rw [hnone]
    constructor
    · intro hunfit
      refine ⟨fun j other hj hother hbefore _ => ?_, fun a ha _ _ hfit _ => absurd hfit (hunfit a ha),
        fun a ha hfit _ => absurd hfit (hunfit a ha)⟩
      exact absurd hbefore (UInt32.not_lt.mpr (hlast other (List.mem_of_getElem? hj) hother))
    · intro htell a ha hfit
      have hmax := hlast a ha (BufferedSub.fit_iff.mp hfit).1
      rcases lt_max_or_eq a.last_activity_ms with hlt | heq
      · exact UInt32.not_lt.mpr hmax hlt
      · obtain ⟨b, hb, hbfit, hblt⟩ := htell.last a ha hfit heq
        exact UInt32.not_lt.mpr (hlast b hb (BufferedSub.fit_iff.mp hbfit).1) hblt
  · rw [hsome]
    have hle (other : BufferedSub) (hother : other ∈ subs) (hfit : other.Fit now) :
        sub.last_activity_ms ≤ other.last_activity_ms := by
      obtain ⟨j, hj⟩ := List.mem_iff_getElem?.mp hother
      exact (hleast j other hj (BufferedSub.fit_iff.mp hfit).1).1
    constructor
    · rintro ⟨picked, hpicked, hfit, hidlest⟩
      obtain rfl := Option.some.inj (hsub.symm.trans hpicked)
      refine ⟨fun j other hj hother _ hunsent => ⟨i, sub, hsub, hfit, ?_⟩, fun a ha b hb hafit hbfit hwrap => ?_,
        fun _ _ _ _ => ⟨sub, List.mem_of_getElem? hsub, hfit, hmax⟩⟩
      · obtain ⟨hstamped, hfirst⟩ := hleast j other hj hother
        rcases UInt32.lt_or_eq_of_le hstamped with hlt | heq
        · exact Or.inl hlt
        · refine Or.inr ⟨heq, ?_⟩
          by_contra hnot
          rcases Nat.lt_or_eq_of_le (Nat.le_of_not_lt hnot) with hji | rfl
          · exact absurd heq (UInt32.ne_of_lt (hfirst hji))
          · obtain rfl := Option.some.inj (hsub.symm.trans hj)
            exact hunsent hfit.unsent
      · have hidle := (idle_le_iff (hle b hb hbfit)).mp (hidlest b hb hbfit)
        exact hidle ⟨UInt32.le_trans (hle a ha hafit) hwrap.1, hwrap.2⟩
    · intro htell
      have hfit : sub.Fit now := by
        refine BufferedSub.fit_iff.mpr ⟨hevictable, ?_⟩
        by_contra hunsent
        obtain ⟨j, other, hj, hother, hbefore⟩ := htell.unsent i sub hsub hevictable hmax hunsent
        obtain ⟨hstamped, hfirst⟩ := hleast j other hj (BufferedSub.fit_iff.mp hother).1
        rcases hbefore with hlt | ⟨heq, hji⟩
        · exact UInt32.not_lt.mpr hstamped hlt
        · exact UInt32.ne_of_lt (hfirst hji) heq.symm
      refine ⟨sub, hsub, hfit, fun other hother hotherFit => ?_⟩
      apply (idle_le_iff (hle other hother hotherFit)).mpr
      exact htell.wrap sub (List.mem_of_getElem? hsub) other hother hfit hotherFit

/-- A sub that is idle because the local service takes nothing more. -/
def pressed : BufferedSub := { RelaySub.unused with
  active := true, sub_bytes_out := 1, last_activity_ms := 1000
  rvdAvailable := 0, localAvailable := 0, pending_rvd_len := 0, pending_local_len := 100 }

/-- A sub with nothing to send, last active at `t`. -/
def quietSince (t : UInt32) : BufferedSub :=
  { pressed with last_activity_ms := t, pending_local_len := 0 }

/-- Bytes that are still to be sent do not keep a sub, and after a wrap it is the one that was active last that goes. -/
theorem findEvictableSub_not_idlest : ¬PicksIdlest [pressed] 20000 (BufferedSub.findEvictableSub [pressed] 20000) ∧
    ¬PicksIdlest [quietSince 4294960000, quietSince 1000] 20000
      (BufferedSub.findEvictableSub [quietSince 4294960000, quietSince 1000] 20000) := by
  constructor
  · have hfound : BufferedSub.findEvictableSub [pressed] 20000 = some 0 := by decide +kernel
    rw [hfound]
    rintro ⟨sub, hsub, hfit, -⟩
    obtain rfl := Option.some.inj hsub
    exact absurd hfit.unsent.2 (by decide)
  · have hfound : BufferedSub.findEvictableSub [quietSince 4294960000, quietSince 1000] 20000 = some 1 := by decide +kernel
    rw [hfound]
    rintro ⟨sub, hsub, -, hidlest⟩
    obtain rfl := Option.some.inj hsub
    have hfit : (quietSince 4294960000).Fit 20000 := ⟨rfl, by decide, ⟨rfl, rfl⟩, ⟨rfl, rfl⟩⟩
    exact absurd (hidlest _ List.mem_cons_self hfit) (by decide)

end NoPorts.ArduinoBudget
