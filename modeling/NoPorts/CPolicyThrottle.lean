import Mathlib.Order.Lattice
import NoPorts.CPolicyGate
import NoPorts.Lib.Recents

/-! The policy throttle over whole runs: how far apart one sender's checks are. -/
namespace NoPorts.CDaemon
open Lib

/-- Whom a slot is for: a sender, and a kind of request. -/
def SenderSlot.pair (s : SenderSlot) : String × ℤ := (s.atsign, s.kind)

/-- A call of `policy_throttle_allows`. -/
structure ThrottleCall where
  atsign : String
  kind : ℤ
  nowMs : ℤ
  deriving DecidableEq, Repr

namespace ThrottleCall

/-- What an allowed call leaves in its slot. -/
def record (c : ThrottleCall) : Option SenderSlot :=
  (normalizeAtsign c.atsign).map fun normalized => ⟨normalized, c.kind, c.nowMs⟩

def pair (c : ThrottleCall) : Option (String × ℤ) := c.record.map SenderSlot.pair

end ThrottleCall

/-- The slots after some calls, from `policy_throttle_init` on. -/
def throttleAfter (calls : List ThrottleCall) : List (Option SenderSlot) :=
  calls.foldl (fun slots c => (sendersAllow slots c.atsign c.kind c.nowMs).getD slots)
    (List.replicate policyThrottleSlots none)

/-- The call is allowed after `before`. -/
def Allowed (before : List ThrottleCall) (c : ThrottleCall) : Prop :=
  (sendersAllow (throttleAfter before) c.atsign c.kind c.nowMs).isSome

instance (before : List ThrottleCall) (c : ThrottleCall) : Decidable (Allowed before c) :=
  inferInstanceAs (Decidable (_ = true))

/-- One of the allowed calls of a run. -/
def AllowedIn (calls : List ThrottleCall) (c : ThrottleCall) : Prop :=
  ∃ before after, calls = before ++ c :: after ∧ Allowed before c

/-- What the throttle guarantees over a run. -/
structure Throttled (calls : List ThrottleCall) : Prop where
  apart : ∀ before c after, calls = before ++ c :: after → Allowed before c →
    ∀ first, AllowedIn before first → first.pair = c.pair →
      policyThrottleMs ≤ c.nowMs - first.nowMs ∨
        ∃ others : List (String × ℤ), others.Nodup ∧ others.length = policyThrottleSlots ∧
          ∀ p ∈ others, some p ≠ c.pair ∧
            ∃ other, AllowedIn before other ∧ other.pair = some p ∧ first.nowMs ≤ other.nowMs
  refused : ∀ before c after, calls = before ++ c :: after → ¬Allowed before c →
    c.pair = none ∨ ∃ first, AllowedIn before first ∧ first.pair = c.pair ∧
      c.nowMs - first.nowMs < policyThrottleMs
  onePair : ∀ (i j : ℕ) (s t : SenderSlot), (throttleAfter calls)[i]? = some (some s) →
    (throttleAfter calls)[j]? = some (some t) → s.pair = t.pair → i = j

/-! ### One call -/

/-- The oldest slot is one of the slots, and none is older. -/
theorem oldestSlot_spec {α : Type*} (checkedAt : α → ℤ) {slots : List (Option α)}
    (hne : slots ≠ []) :
    oldestSlot checkedAt slots < slots.length ∧
      ∀ j < slots.length, ((slots[oldestSlot checkedAt slots]?.join).map checkedAt).getD 0 ≤
        ((slots[j]?.join).map checkedAt).getD 0 := by
  have hfold (f : ℕ → ℤ) (is : List ℕ) (i : ℕ) :
      (is.foldl (fun slot i => if f i < f slot then i else slot) i ∈ i :: is) ∧
        ∀ j ∈ i :: is, f (is.foldl (fun slot i => if f i < f slot then i else slot) i) ≤ f j := by
    induction is generalizing i with
    | nil => simp
    | cons k is ih =>
      obtain ⟨hmem, hle⟩ := ih (if f k < f i then k else i)
      rw [List.foldl_cons]
      constructor
      · rcases List.mem_cons.mp hmem with heq | hmem
        · rw [heq]
          split <;> simp
        · exact List.mem_cons_of_mem _ (List.mem_cons_of_mem _ hmem)
      · have hstart := hle _ List.mem_cons_self
        have hboth : f (if f k < f i then k else i) ≤ f i ∧ f (if f k < f i then k else i) ≤ f k := by
          split
          · rename_i hlt
            exact ⟨le_of_lt hlt, le_refl _⟩
          · rename_i hge
            exact ⟨le_refl _, not_lt.mp hge⟩
        intro j hj
        rcases List.mem_cons.mp hj with rfl | hj
        · exact le_trans hstart hboth.1
        · rcases List.mem_cons.mp hj with rfl | hj
          · exact le_trans hstart hboth.2
          · exact hle j (List.mem_cons_of_mem _ hj)
  have hpos := List.length_pos_of_ne_nil hne
  obtain ⟨hmem, hle⟩ := hfold (fun i => ((slots[i]?.join).map checkedAt).getD 0)
    (List.range slots.length) 0
  refine ⟨?_, fun j hj => hle j (List.mem_cons_of_mem _ (List.mem_range.mpr hj))⟩
  rcases List.mem_cons.mp hmem with heq | hmem
  · exact lt_of_eq_of_lt heq hpos
  · exact List.mem_range.mp hmem

def SenderSlot.same (a s : SenderSlot) : Bool := s.kind == a.kind && s.atsign == a.atsign

theorem SenderSlot.same_iff {a s : SenderSlot} : a.same s = true ↔ s.pair = a.pair := by
  rw [same, Bool.and_eq_true, beq_iff_eq, beq_iff_eq, pair, pair, Prod.mk.injEq, and_comm]

/-- The slot chosen is one that a new record may take. -/
theorem chooseSlot_recorded {slots : List (Option SenderSlot)} (hne : slots ≠ []) (a : SenderSlot) :
    Recorded SenderSlot.pair SenderSlot.checkedAtMs slots a
      (slots.set (chooseSlot a.same (·.checkedAtMs) slots) (some a)) := by
  unfold chooseSlot
  cases hsame : slots.findIdx? (·.any a.same) with
  | some i =>
    obtain ⟨hlt, hany, -⟩ := List.findIdx?_eq_some_iff_getElem.mp hsame
    obtain ⟨b, hb, hba⟩ := (Option.any_eq_true _ _).mp hany
    refine .same i b ?_ (SenderSlot.same_iff.mp hba)
    rw [List.getElem?_eq_getElem hlt, hb]
  | none =>
    have hkey (b : SenderSlot) (hb : some b ∈ slots) : b.pair ≠ a.pair := by
      intro hba
      have hany := List.findIdx?_eq_none_iff.mp hsame (some b) hb
      rw [Option.any_some, SenderSlot.same_iff.mpr hba] at hany
      cases hany
    cases hunused : slots.findIdx? Option.isNone with
    | some i =>
      obtain ⟨hlt, hnone, -⟩ := List.findIdx?_eq_some_iff_getElem.mp hunused
      refine .unused i ?_ hkey
      rw [List.getElem?_eq_getElem hlt, Option.isNone_iff_eq_none.mp hnone]
    | none =>
      have hfull : none ∉ slots := fun hmem =>
        absurd (List.findIdx?_eq_none_iff.mp hunused none hmem) (by decide)
      obtain ⟨hlt, hold⟩ := oldestSlot_spec (·.checkedAtMs) hne
      have hget := List.getElem?_eq_getElem hlt
      cases hb : slots[oldestSlot (·.checkedAtMs) slots] with
      | none => exact absurd (hb ▸ List.getElem_mem hlt) hfull
      | some b =>
        rw [hb] at hget
        refine .oldest _ b hget hkey hfull fun c hc => ?_
        obtain ⟨j, hj⟩ := List.mem_iff_getElem?.mp hc
        have hle := hold j (List.getElem?_eq_some_iff.mp hj).1
        rw [hget, hj] at hle
        exact hle

theorem mem_reduceOption_find {slots : List (Option SenderSlot)} {a b : SenderSlot}
    (h : slots.reduceOption.find? a.same = some b) : some b ∈ slots ∧ b.pair = a.pair :=
  ⟨List.reduceOption_mem_iff.mp (List.mem_of_find?_eq_some h),
    SenderSlot.same_iff.mp (List.find?_some h)⟩

theorem sendersAllow_eq (slots : List (Option SenderSlot)) (c : ThrottleCall) :
    sendersAllow slots c.atsign c.kind c.nowMs = c.record.bind fun a =>
      match slots.reduceOption.find? a.same with
      | some last =>
        if c.nowMs - last.checkedAtMs < policyThrottleMs then none
        else some (slots.set (chooseSlot a.same (·.checkedAtMs) slots) (some a))
      | none => some (slots.set (chooseSlot a.same (·.checkedAtMs) slots) (some a)) := by
  unfold sendersAllow ThrottleCall.record
  cases normalizeAtsign c.atsign <;> rfl

/-- An allowed call is recorded, and the first slot of its pair was long enough ago. -/
theorem sendersAllow_some {slots slots' : List (Option SenderSlot)} (hne : slots ≠ [])
    {c : ThrottleCall} (h : sendersAllow slots c.atsign c.kind c.nowMs = some slots') :
    ∃ a, c.record = some a ∧ Recorded SenderSlot.pair SenderSlot.checkedAtMs slots a slots' ∧
      ∀ b, some b ∈ slots → b.pair = a.pair →
        ∃ last, some last ∈ slots ∧ last.pair = a.pair ∧
          policyThrottleMs ≤ c.nowMs - last.checkedAtMs := by
  rw [sendersAllow_eq, Option.bind_eq_some_iff] at h
  obtain ⟨a, ha, h⟩ := h
  refine ⟨a, ha, ?_⟩
  cases hfind : slots.reduceOption.find? a.same with
  | some last =>
    rw [hfind] at h
    simp only at h
    obtain ⟨hlast, hpair⟩ := mem_reduceOption_find hfind
    split at h
    · cases h
    · rename_i hlong
      obtain rfl := Option.some.inj h
      exact ⟨chooseSlot_recorded hne a, fun b _ _ => ⟨last, hlast, hpair, not_lt.mp hlong⟩⟩
  | none =>
    rw [hfind] at h
    obtain rfl := Option.some.inj h
    refine ⟨chooseSlot_recorded hne a, fun b hb hba => ?_⟩
    have hnot := List.find?_eq_none.mp hfind b (List.reduceOption_mem_iff.mpr hb)
    exact absurd (SenderSlot.same_iff.mpr hba) hnot

/-- A refused call has no pair, or a slot of its pair was written too short ago. -/
theorem sendersAllow_none {slots : List (Option SenderSlot)} {c : ThrottleCall}
    (h : sendersAllow slots c.atsign c.kind c.nowMs = none) :
    c.pair = none ∨ ∃ b, some b ∈ slots ∧ c.pair = some b.pair ∧
      c.nowMs - b.checkedAtMs < policyThrottleMs := by
  rw [sendersAllow_eq] at h
  unfold ThrottleCall.pair
  cases hrecord : c.record with
  | none => exact Or.inl rfl
  | some a =>
    rw [hrecord, Option.bind_some] at h
    cases hfind : slots.reduceOption.find? a.same with
    | none =>
      rw [hfind] at h
      cases h
    | some last =>
      rw [hfind] at h
      simp only at h
      obtain ⟨hlast, hpair⟩ := mem_reduceOption_find hfind
      split at h
      · rename_i hshort
        exact Or.inr ⟨last, hlast, by rw [Option.map_some, hpair], hshort⟩
      · cases h

/-! ### Runs -/

theorem throttleAfter_snoc (calls : List ThrottleCall) (c : ThrottleCall) :
    throttleAfter (calls ++ [c]) =
      (sendersAllow (throttleAfter calls) c.atsign c.kind c.nowMs).getD (throttleAfter calls) := by
  rw [throttleAfter, List.foldl_append, List.foldl_cons, List.foldl_nil, ← throttleAfter]

theorem allowedIn_snoc {calls : List ThrottleCall} {c x : ThrottleCall} :
    AllowedIn (calls ++ [c]) x ↔ AllowedIn calls x ∨ x = c ∧ Allowed calls c := by
  constructor
  · rintro ⟨before, after, heq, hallowed⟩
    rcases List.eq_nil_or_concat after with rfl | ⟨rest, d, rfl⟩
    · obtain ⟨rfl, hc⟩ := List.append_inj' heq rfl
      obtain rfl : c = x := List.singleton_inj.mp hc
      exact Or.inr ⟨rfl, hallowed⟩
    · rw [List.concat_eq_append, ← List.cons_append, ← List.append_assoc] at heq
      exact Or.inl ⟨before, rest, (List.append_inj' heq rfl).1, hallowed⟩
  · rintro (⟨before, after, rfl, hallowed⟩ | ⟨rfl, hallowed⟩)
    · exact ⟨before, after ++ [c], by simp, hallowed⟩
    · exact ⟨calls, [], rfl, hallowed⟩

theorem AllowedIn.mem {calls : List ThrottleCall} {c : ThrottleCall} (h : AllowedIn calls c) :
    c ∈ calls := by
  obtain ⟨before, after, rfl, -⟩ := h
  exact List.mem_append_right _ List.mem_cons_self

/-- `log` is what the allowed calls of the run recorded. -/
structure Logs (calls : List ThrottleCall) (log : List SenderSlot) : Prop where
  made : ∀ a ∈ log, ∃ c, AllowedIn calls c ∧ c.record = some a
  kept : ∀ c, AllowedIn calls c → ∃ a ∈ log, c.record = some a

theorem record_nowMs {c : ThrottleCall} {a : SenderSlot} (h : c.record = some a) :
    a.checkedAtMs = c.nowMs := by
  obtain ⟨normalized, -, rfl⟩ := Option.map_eq_some_iff.mp h
  rfl

theorem record_pair {c : ThrottleCall} {a : SenderSlot} (h : c.record = some a) :
    c.pair = some a.pair := by
  rw [ThrottleCall.pair, h, Option.map_some]

/-- The slots of a run remember what its allowed calls recorded. -/
theorem throttleAfter_remembers {calls : List ThrottleCall}
    (hclock : calls.Pairwise fun c d => c.nowMs ≤ d.nowMs) :
    ∃ log, Logs calls log ∧ (throttleAfter calls).length = policyThrottleSlots ∧
      Remembers SenderSlot.pair SenderSlot.checkedAtMs (throttleAfter calls) log := by
  induction calls using List.reverseRecOn with
  | nil =>
    refine ⟨[], ⟨fun a ha => absurd ha List.not_mem_nil, ?_⟩, by decide, .unused _⟩
    exact fun c hc => absurd hc.mem List.not_mem_nil
  | append_singleton calls c ih =>
    obtain ⟨hbefore, -, hlast⟩ := List.pairwise_append.mp hclock
    obtain ⟨log, hlogs, hlen, hremembers⟩ := ih hbefore
    have hne : throttleAfter calls ≠ [] := by
      intro hnil
      rw [hnil] at hlen
      cases hlen
    rw [throttleAfter_snoc]
    cases hallow : sendersAllow (throttleAfter calls) c.atsign c.kind c.nowMs with
    | none =>
      refine ⟨log, ⟨fun a ha => ?_, fun x hx => ?_⟩, hlen, hremembers⟩
      · obtain ⟨x, hx, hxa⟩ := hlogs.made a ha
        exact ⟨x, allowedIn_snoc.mpr (Or.inl hx), hxa⟩
      · rcases allowedIn_snoc.mp hx with hx | ⟨-, hallowed⟩
        · exact hlogs.kept x hx
        · rw [Allowed, hallow] at hallowed
          cases hallowed
    | some slots =>
      obtain ⟨a, ha, hrecorded, -⟩ := sendersAllow_some hne hallow
      have hallowed : Allowed calls c := by
        rw [Allowed, hallow]
        rfl
      have hlatest : ∀ b ∈ log, b.checkedAtMs ≤ a.checkedAtMs := by
        intro b hb
        obtain ⟨x, hx, hxb⟩ := hlogs.made b hb
        rw [record_nowMs ha, record_nowMs hxb]
        exact hlast x hx.mem c (List.mem_singleton_self c)
      refine ⟨log ++ [a], ⟨fun b hb => ?_, fun x hx => ?_⟩, hrecorded.length.trans hlen,
        hremembers.record hlatest hrecorded⟩
      · rcases List.mem_append.mp hb with hb | hb
        · obtain ⟨x, hx, hxb⟩ := hlogs.made b hb
          exact ⟨x, allowedIn_snoc.mpr (Or.inl hx), hxb⟩
        · obtain rfl := List.mem_singleton.mp hb
          exact ⟨c, allowedIn_snoc.mpr (Or.inr ⟨rfl, hallowed⟩), ha⟩
      · rcases allowedIn_snoc.mp hx with hx | ⟨rfl, -⟩
        · obtain ⟨b, hb, hxb⟩ := hlogs.kept x hx
          exact ⟨b, List.mem_append_left _ hb, hxb⟩
        · exact ⟨a, List.mem_append_right _ (List.mem_singleton_self a), ha⟩

/-- The throttle keeps its word over every run of a clock that does not go back. -/
theorem throttled {calls : List ThrottleCall}
    (hclock : calls.Pairwise fun c d => c.nowMs ≤ d.nowMs) : Throttled calls where
  apart := by
    rintro before c after rfl hallowed first hfirst hpair
    obtain ⟨log, hlogs, hlen, hremembers⟩ :=
      throttleAfter_remembers (List.pairwise_append.mp hclock).1
    have hne : throttleAfter before ≠ [] := by
      intro hnil
      rw [hnil] at hlen
      cases hlen
    obtain ⟨slots, hallow⟩ := Option.isSome_iff_exists.mp hallowed
    obtain ⟨a, ha, -, hspaced⟩ := sendersAllow_some hne hallow
    obtain ⟨f, hf, hrecord⟩ := hlogs.kept first hfirst
    have hfa : f.pair = a.pair := by
      rw [record_pair hrecord, record_pair ha] at hpair
      exact Option.some.inj hpair
    rcases hremembers.kept f hf with ⟨b, hb, hbf, hle⟩ | ⟨keys, hnodup, hcount, hnot, hkeys⟩
    · obtain ⟨last, hlast, hla, hlong⟩ := hspaced b hb (hbf.trans hfa)
      obtain ⟨i, hi⟩ := List.mem_iff_getElem?.mp hb
      obtain ⟨j, hj⟩ := List.mem_iff_getElem?.mp hlast
      obtain rfl := hremembers.one i j b last hi hj ((hbf.trans hfa).trans hla.symm)
      rw [hi] at hj
      cases hj
      rw [record_nowMs hrecord] at hle
      exact Or.inl (by omega)
    · refine Or.inr ⟨keys, hnodup, hcount.trans hlen, fun p hp => ⟨?_, ?_⟩⟩
      · rw [record_pair ha, ← hfa]
        rintro ⟨rfl⟩
        exact hnot hp
      · obtain ⟨b, hb, rfl, hle⟩ := hkeys p hp
        obtain ⟨other, hother, hob⟩ := hlogs.made b hb
        rw [record_nowMs hrecord, record_nowMs hob] at hle
        exact ⟨other, hother, record_pair hob, hle⟩
  refused := by
    rintro before c after rfl hrefused
    obtain ⟨log, hlogs, -, hremembers⟩ :=
      throttleAfter_remembers (List.pairwise_append.mp hclock).1
    have hnone := Option.not_isSome_iff_eq_none.mp hrefused
    rcases sendersAllow_none hnone with hpair | ⟨b, hb, hpair, hshort⟩
    · exact Or.inl hpair
    · obtain ⟨first, hfirst, hrecord⟩ := hlogs.made b (hremembers.held b hb)
      rw [record_nowMs hrecord] at hshort
      exact Or.inr ⟨first, hfirst, by rw [hpair, record_pair hrecord], hshort⟩
  onePair := by
    obtain ⟨log, -, -, hremembers⟩ := throttleAfter_remembers hclock
    exact hremembers.one

theorem throttled_waited : Throttled [⟨"@alice", 1, 0⟩, ⟨"@bob", 1, 10⟩, ⟨"@Alice", 1, 2000⟩] :=
  throttled (by decide)

/-- An empty atSign is refused at once, with no call before it. -/
theorem refused_unprompted : ¬∀ before c, (before ++ [c]).Pairwise (fun c d => c.nowMs ≤ d.nowMs) →
    ¬Allowed before c → ∃ first, AllowedIn before first ∧ first.pair = c.pair ∧
      c.nowMs - first.nowMs < policyThrottleMs := by
  intro h
  obtain ⟨first, hfirst, -⟩ := h [] ⟨"", 1, 0⟩ (by decide) (by decide)
  exact absurd hfirst.mem List.not_mem_nil

end NoPorts.CDaemon
