import Mathlib.Data.List.ReduceOption
import NoPorts.CDaemonPolicy
import NoPorts.Lib.Machine

/-! The policy gate over a whole run of requests, with memory that may run out
at any copy and kinds of request that are any `int`. -/
namespace NoPorts.CDaemon
open Lib

/-- `copy_decision`: whether it could copy, and what it leaves in `dst`. Memory
runs out at the list of texts (0), at one of the texts (from 1 on), or not. -/
def copyDecision (memory : Option ℕ) (src : PolicyDecision) : Bool × PolicyDecision :=
  if src.permitOpen = [] then (true, ⟨src.authorized, []⟩)
  else
    match memory with
    | none => (true, src)
    | some 0 => (false, ⟨src.authorized, []⟩)
    | some (i + 1) => if i < src.permitOpen.length then (false, .zero) else (true, src)

namespace PolicyCache

/-- `policy_cache_lookup`, with what it leaves in `decision`. -/
def lookupInto (cache : PolicyCache) (atsign : String) (nowMs : ℤ) (memory : Option ℕ)
    (decision : PolicyDecision) : Bool × PolicyDecision :=
  match cache.lookup atsign nowMs with
  | none => (false, decision)
  | some cached => copyDecision memory cached

/-- `policy_cache_store`: a slot whose copy fails is left unused. -/
def storeCopy (cache : PolicyCache) (atsign : String) (decision : PolicyDecision) (nowMs : ℤ)
    (memory : Option ℕ) : Bool × PolicyCache :=
  match cache.entries, normalizeAtsign atsign with
  | [], _ => (true, cache)
  | _, none => (false, cache)
  | entries, some normalized =>
    let slot := chooseSlot (·.atsign == normalized) (·.checkedAtMs) entries
    match copyDecision memory decision with
    | (true, copy) => (true, ⟨entries.set slot (some ⟨normalized, nowMs, copy⟩)⟩)
    | (false, _) => (false, ⟨entries.set slot none⟩)

end PolicyCache

/-- A sender's last check, for a kind of request that is any `int`. -/
structure SenderSlot where
  atsign : String
  kind : ℤ
  checkedAtMs : ℤ
  deriving DecidableEq, Repr

/-- `policy_throttle_allows` on the throttle's slots. -/
def sendersAllow (slots : List (Option SenderSlot)) (atsign : String) (kind : ℤ) (nowMs : ℤ) :
    Option (List (Option SenderSlot)) :=
  match normalizeAtsign atsign with
  | none => none
  | some normalized =>
    let same (s : SenderSlot) : Bool := s.kind == kind && s.atsign == normalized
    match slots.reduceOption.find? same with
    | some last =>
      if nowMs - last.checkedAtMs < policyThrottleMs then none
      else some (slots.set (chooseSlot same (·.checkedAtMs) slots) (some ⟨normalized, kind, nowMs⟩))
    | none =>
      some (slots.set (chooseSlot same (·.checkedAtMs) slots) (some ⟨normalized, kind, nowMs⟩))

/-- One cache and one throttle. -/
structure PolicyLimits where
  cache : PolicyCache
  slots : List (Option SenderSlot)

/-- What one call of `policy_gate` is given: the request, what the clock answers,
what a check would leave and whether it could be asked, where memory runs out at
the lookup's copy and at the store's, and what `decision` holds before. -/
structure GateCall where
  clientAtsign : String
  kind : ℤ
  clock : GateClock
  check : Except PolicyDecision PolicyDecision
  lookupMemory : Option ℕ
  storeMemory : Option ℕ
  decision : PolicyDecision

structure GateAnswer where
  limits : PolicyLimits
  result : PolicyGateResult
  decision : PolicyDecision

namespace PolicyLimits

def init (size : ℕ) : Option PolicyLimits :=
  (PolicyCache.init size).map fun cache => ⟨cache, List.replicate policyThrottleSlots none⟩

/-- `policy_gate` -/
def gate (s : PolicyLimits) (c : GateCall) : GateAnswer :=
  match s.cache.lookupInto c.clientAtsign c.clock.lookupMs c.lookupMemory c.decision with
  | (true, decision) => ⟨s, decision.result, decision⟩
  | (false, decision) =>
    match sendersAllow s.slots c.clientAtsign c.kind c.clock.throttleMs with
    | none => ⟨s, .drop, decision⟩
    | some slots =>
      match c.check with
      | .error left => ⟨⟨s.cache, slots⟩, .deny, left⟩
      | .ok checked =>
        ⟨⟨(s.cache.storeCopy c.clientAtsign checked c.clock.storeMs c.storeMemory).2, slots⟩,
          checked.result, checked⟩

def machine : Machine PolicyLimits GateCall := ⟨fun s c => some (s.gate c).limits⟩

/-- What a check made in the call answers, `none` when there is none: the cache
answers, the throttle drops the request, or the question cannot be sent. -/
def checkMade (s : PolicyLimits) (c : GateCall) : Option PolicyDecision :=
  if (s.cache.lookupInto c.clientAtsign c.clock.lookupMs c.lookupMemory c.decision).1 then none
  else if (sendersAllow s.slots c.clientAtsign c.kind c.clock.throttleMs).isNone then none
  else c.check.toOption

end PolicyLimits

theorem copyDecision_ok {memory : Option ℕ} {src dst : PolicyDecision}
    (h : copyDecision memory src = (true, dst)) : dst = src := by
  unfold copyDecision at h
  split at h
  · rename_i hnil
    obtain rfl := (Prod.ext_iff.mp h).2
    cases src
    simp only at hnil
    rw [hnil]
  · split at h
    · exact (Prod.ext_iff.mp h).2.symm
    · cases (Prod.ext_iff.mp h).1
    · split at h
      · cases (Prod.ext_iff.mp h).1
      · exact (Prod.ext_iff.mp h).2.symm

namespace PolicyCache

/-- The entries in use. -/
def used (cache : PolicyCache) : List PolicyCacheEntry := cache.entries.reduceOption

/-- A decision handed out of the cache is that of an entry for the same atSign,
stored less than the time to live before. -/
theorem lookupInto_hit {cache : PolicyCache} {atsign : String} {nowMs : ℤ} {memory : Option ℕ}
    {before decision : PolicyDecision}
    (h : cache.lookupInto atsign nowMs memory before = (true, decision)) :
    ∃ entry ∈ cache.used, normalizeAtsign atsign = some entry.atsign ∧
      entry.decision = decision ∧ nowMs - entry.checkedAtMs < policyCacheTtlMs := by
  unfold lookupInto at h
  split at h
  · cases (Prod.ext_iff.mp h).1
  · rename_i cached hcached
    obtain rfl := copyDecision_ok h
    unfold lookup at hcached
    split at hcached
    · cases hcached
    · rename_i normalized hnorm
      split at hcached
      · cases hcached
      · rename_i entry hentry
        split at hcached
        · cases hcached
        · rename_i hfresh
          have hsame : entry.atsign = normalized := by simpa using List.find?_some hentry
          refine ⟨entry, List.mem_of_find?_eq_some hentry, ?_, Option.some.inj hcached, ?_⟩
          · rw [hnorm, hsame]
          · exact not_le.mp hfresh

/-- No two entries in use are for one atSign. -/
def OneEach (cache : PolicyCache) : Prop :=
  ∀ (i j : ℕ) (e f : PolicyCacheEntry), cache.entries[i]? = some (some e) →
    cache.entries[j]? = some (some f) → e.atsign = f.atsign → i = j

theorem mem_used {cache : PolicyCache} {e : PolicyCacheEntry} :
    e ∈ cache.used ↔ ∃ i : ℕ, cache.entries[i]? = some (some e) := by
  rw [used, List.reduceOption_mem_iff, List.mem_iff_getElem?]

/-- The slot chosen for an atSign that has an entry is that entry's. -/
theorem chooseSlot_eq {cache : PolicyCache} (hone : cache.OneEach) {i : ℕ} {e : PolicyCacheEntry}
    (he : cache.entries[i]? = some (some e)) :
    chooseSlot (·.atsign == e.atsign) (·.checkedAtMs) cache.entries = i := by
  have hex : ∃ x ∈ cache.entries, x.any (·.atsign == e.atsign) = true :=
    ⟨some e, List.mem_of_getElem? he, by simp⟩
  have hsome := List.findIdx?_eq_some_of_exists hex
  obtain ⟨hlt, hany, -⟩ := List.findIdx?_eq_some_iff_getElem.mp hsome
  obtain ⟨f, hf, hsame⟩ := (Option.any_eq_true _ _).mp hany
  rw [chooseSlot, hsome]
  have hget : cache.entries[cache.entries.findIdx (·.any (·.atsign == e.atsign))]? =
      some (some f) := by
    rw [List.getElem?_eq_getElem hlt, hf]
  exact hone _ i f e hget he (by simpa using hsame)

/-- A slot that a store leaves in use: it held another atSign's entry before and
is left alone, or it is the copy just stored. -/
theorem storeCopy_used {cache : PolicyCache} (hone : cache.OneEach) {atsign normalized : String}
    (hnorm : normalizeAtsign atsign = some normalized) {decision : PolicyDecision} {nowMs : ℤ}
    {memory : Option ℕ} {j : ℕ} {f : PolicyCacheEntry}
    (hf : (cache.storeCopy atsign decision nowMs memory).2.entries[j]? = some (some f)) :
    (cache.entries[j]? = some (some f) ∧ f.atsign ≠ normalized) ∨
      (j = chooseSlot (·.atsign == normalized) (·.checkedAtMs) cache.entries ∧
        f = ⟨normalized, nowMs, decision⟩) := by
  have hother : cache.entries[j]? = some (some f) →
      j ≠ chooseSlot (·.atsign == normalized) (·.checkedAtMs) cache.entries →
      f.atsign ≠ normalized := by
    rintro hj hne rfl
    exact hne (chooseSlot_eq hone hj).symm
  unfold storeCopy at hf
  split at hf
  · rename_i hnil
    simp [hnil] at hf
  · rename_i hnone _
    rw [hnorm] at hnone
    cases hnone
  · rename_i hnorm' _
    obtain rfl := Option.some.inj (hnorm.symm.trans hnorm')
    split at hf
    · rename_i copy hcopy
      rcases getElem?_set_cases hf with ⟨hj, hnew⟩ | ⟨hne, hj⟩
      · refine Or.inr ⟨hj, ?_⟩
        rw [Option.some.inj hnew, copyDecision_ok hcopy]
      · exact Or.inl ⟨hj, hother hj hne⟩
    · rcases getElem?_set_cases hf with ⟨-, hnew⟩ | ⟨hne, hj⟩
      · cases hnew
      · exact Or.inl ⟨hj, hother hj hne⟩

theorem storeCopy_oneEach {cache : PolicyCache} (hone : cache.OneEach) {atsign normalized : String}
    (hnorm : normalizeAtsign atsign = some normalized) (decision : PolicyDecision) (nowMs : ℤ)
    (memory : Option ℕ) : (cache.storeCopy atsign decision nowMs memory).2.OneEach := by
  intro i j e f he hf hsame
  rcases storeCopy_used hone hnorm he with ⟨he', hne⟩ | ⟨hi, rfl⟩
  · rcases storeCopy_used hone hnorm hf with ⟨hf', -⟩ | ⟨-, rfl⟩
    · exact hone i j e f he' hf' hsame
    · exact absurd hsame hne
  · rcases storeCopy_used hone hnorm hf with ⟨-, hne⟩ | ⟨hj, -⟩
    · exact absurd hsame.symm hne
    · rw [hi, hj]

end PolicyCache
namespace PolicyLimits

/-- What one call does to the cache, by where its answer comes from. -/
theorem gate_cases (s : PolicyLimits) (c : GateCall) :
    (∃ decision, s.cache.lookupInto c.clientAtsign c.clock.lookupMs c.lookupMemory c.decision =
        (true, decision) ∧ s.checkMade c = none ∧ s.gate c = ⟨s, decision.result, decision⟩) ∨
    ((s.gate c).result = .drop ∧ s.checkMade c = none ∧ (s.gate c).limits.cache = s.cache) ∨
    (∃ left, c.check = .error left ∧ s.checkMade c = none ∧ (s.gate c).result = .deny ∧
      (s.gate c).limits.cache = s.cache) ∨
    ∃ checked normalized, s.checkMade c = some checked ∧
      normalizeAtsign c.clientAtsign = some normalized ∧ (s.gate c).result = checked.result ∧
        (s.gate c).decision = checked ∧ (s.gate c).limits.cache =
          (s.cache.storeCopy c.clientAtsign checked c.clock.storeMs c.storeMemory).2 := by
  rcases hlookup : s.cache.lookupInto c.clientAtsign c.clock.lookupMs c.lookupMemory c.decision with
    ⟨_ | _, decision⟩
  · cases hallow : sendersAllow s.slots c.clientAtsign c.kind c.clock.throttleMs with
    | none => exact Or.inr (Or.inl ⟨by simp [gate, hlookup, hallow], by simp [checkMade, hlookup, hallow],
        by simp [gate, hlookup, hallow]⟩)
    | some slots =>
      cases hcheck : c.check with
      | error left =>
        refine Or.inr (Or.inr (Or.inl ⟨left, rfl, ?_, ?_, ?_⟩))
        · simp [checkMade, hlookup, hallow, hcheck, Except.toOption]
        · simp [gate, hlookup, hallow, hcheck]
        · simp [gate, hlookup, hallow, hcheck]
      | ok checked =>
        obtain ⟨normalized, hnorm⟩ : ∃ normalized, normalizeAtsign c.clientAtsign = some normalized := by
          cases hn : normalizeAtsign c.clientAtsign with
          | none =>
            simp [sendersAllow, hn] at hallow
          | some normalized => exact ⟨normalized, rfl⟩
        refine Or.inr (Or.inr (Or.inr ⟨checked, normalized, ?_, hnorm, ?_, ?_, ?_⟩))
        · simp [checkMade, hlookup, hallow, hcheck, Except.toOption]
        · simp [gate, hlookup, hallow, hcheck]
        · simp [gate, hlookup, hallow, hcheck]
        · simp [gate, hlookup, hallow, hcheck]
  · exact Or.inl ⟨decision, rfl, by simp [checkMade, hlookup], by simp [gate, hlookup]⟩

/-- In the run of `calls` a check for `atsign` answered `decision`, its answer
stored at `storeMs`, and no check for that atSign answered after it. -/
def LastAnswered (start : PolicyLimits) (calls : List GateCall) (atsign : String)
    (decision : PolicyDecision) (storeMs : ℤ) : Prop :=
  ∃ before source after u, calls = before ++ source :: after ∧
    machine.run start before = some u ∧ u.checkMade source = some decision ∧
      normalizeAtsign source.clientAtsign = some atsign ∧ source.clock.storeMs = storeMs ∧
        ∀ mid other rest v, after = mid ++ other :: rest →
          machine.run start (before ++ source :: mid) = some v →
            normalizeAtsign other.clientAtsign = some atsign → v.checkMade other = none

theorem LastAnswered.later {start s : PolicyLimits} {calls : List GateCall} {atsign : String}
    {decision : PolicyDecision} {storeMs : ℤ}
    (h : LastAnswered start calls atsign decision storeMs) (hr : machine.run start calls = some s)
    {c : GateCall} (hc : normalizeAtsign c.clientAtsign = some atsign → s.checkMade c = none) :
    LastAnswered start (calls ++ [c]) atsign decision storeMs := by
  obtain ⟨before, source, after, u, rfl, hu, hmade, hnorm, hms, hlater⟩ := h
  refine ⟨before, source, after ++ [c], u, by simp, hu, hmade, hnorm, hms, ?_⟩
  intro mid other rest v hsplit hv hother
  rcases List.eq_nil_or_concat rest with rfl | ⟨rest, last, rfl⟩
  · obtain ⟨rfl, hlast⟩ := List.append_inj' hsplit rfl
    obtain rfl : c = other := List.head_eq_of_cons_eq hlast
    obtain rfl := Option.some.inj (hr.symm.trans hv)
    exact hc hother
  · rw [List.concat_eq_append, ← List.cons_append, ← List.append_assoc] at hsplit
    exact hlater mid other rest v (List.append_inj' hsplit rfl).1 hv hother

theorem LastAnswered.now {start s : PolicyLimits} {calls : List GateCall} {c : GateCall}
    {atsign : String} {decision : PolicyDecision} (hr : machine.run start calls = some s)
    (hmade : s.checkMade c = some decision) (hnorm : normalizeAtsign c.clientAtsign = some atsign) :
    LastAnswered start (calls ++ [c]) atsign decision c.clock.storeMs :=
  ⟨calls, c, [], s, rfl, hr, hmade, hnorm, rfl, fun mid other rest v h => by simp at h⟩

/-- Every entry in use is the last answer for its atSign, and there is one for each. -/
structure Sound (start : PolicyLimits) (calls : List GateCall) (s : PolicyLimits) : Prop where
  oneEach : s.cache.OneEach
  answered : ∀ e ∈ s.cache.used, LastAnswered start calls e.atsign e.decision e.checkedAtMs

theorem sound_step {start s : PolicyLimits} {calls : List GateCall} (h : Sound start calls s)
    (hr : machine.run start calls = some s) (c : GateCall) :
    Sound start (calls ++ [c]) (s.gate c).limits := by
  have hsame (hmade : s.checkMade c = none) {t : PolicyLimits} (ht : t.cache = s.cache) :
      Sound start (calls ++ [c]) t := by
    refine ⟨by rw [ht]; exact h.oneEach, fun e he => ?_⟩
    rw [ht] at he
    exact (h.answered e he).later hr fun _ => hmade
  rcases s.gate_cases c with ⟨decision, -, hmade, hgate⟩ | ⟨-, hmade, hcache⟩ |
      ⟨left, -, hmade, -, hcache⟩ | ⟨checked, normalized, hmade, hnorm, -, -, hcache⟩
  · exact hsame hmade (by rw [hgate])
  · exact hsame hmade hcache
  · exact hsame hmade hcache
  · constructor
    · rw [hcache]
      exact PolicyCache.storeCopy_oneEach h.oneEach hnorm _ _ _
    · intro e he
      obtain ⟨j, hj⟩ := PolicyCache.mem_used.mp he
      rw [hcache] at hj
      rcases PolicyCache.storeCopy_used h.oneEach hnorm hj with ⟨hold, hne⟩ | ⟨-, rfl⟩
      · -- another atSign's entry, which this check says nothing about
        apply (h.answered e (PolicyCache.mem_used.mpr ⟨j, hold⟩)).later hr
        intro heq
        exact absurd (Option.some.inj (heq.symm.trans hnorm)) hne
      · exact LastAnswered.now hr hmade hnorm

theorem sound_init {size : ℕ} {start : PolicyLimits} (h : init size = some start) :
    Sound start [] start := by
  obtain ⟨cache, hcache, rfl⟩ := Option.map_eq_some_iff.mp h
  have hempty : cache.used = [] := by
    unfold PolicyCache.init at hcache
    split at hcache
    · cases hcache
    · rw [← Option.some.inj hcache, PolicyCache.used]
      exact List.reduceOption_replicate_none
  refine ⟨fun i j e f he => ?_, fun e he => ?_⟩
  · have hmem : e ∈ cache.used := PolicyCache.mem_used.mpr ⟨i, he⟩
    rw [hempty] at hmem
    cases hmem
  · rw [hempty] at he
    cases he

theorem sound_run {size : ℕ} {start s : PolicyLimits} {calls : List GateCall}
    (hinit : init size = some start) (hr : machine.run start calls = some s) :
    Sound start calls s := by
  apply machine.run_induction (sound_init hinit) _ hr
  intro es c u v hu hsound hstep
  rw [← Option.some.inj hstep]
  exact sound_step hsound hu c

/-- What the clock answers to the call, in order. -/
def readings (c : GateCall) : List ℤ := [c.clock.lookupMs, c.clock.throttleMs, c.clock.storeMs]

/-- The check that answered at `storeMs` was made in the call itself, or at most
the time to live before it. -/
def Recent (s : PolicyLimits) (c : GateCall) (storeMs : ℤ) : Prop :=
  ((s.checkMade c).isSome ∧ storeMs = c.clock.storeMs) ∨
    storeMs ≤ c.clock.lookupMs ∧ c.clock.lookupMs - storeMs ≤ policyCacheTtlMs

/-- The decision handed out is the last answer of a check in the run for the
caller's atSign, and it is recent. -/
def Decided (start : PolicyLimits) (calls : List GateCall) (s : PolicyLimits) (c : GateCall) : Prop :=
  ∃ atsign storeMs, normalizeAtsign c.clientAtsign = some atsign ∧
    LastAnswered start (calls ++ [c]) atsign (s.gate c).decision storeMs ∧ Recent s c storeMs

theorem LastAnswered.le_lookup {start : PolicyLimits} {calls : List GateCall} {c : GateCall}
    {atsign : String} {decision : PolicyDecision} {storeMs : ℤ}
    (h : LastAnswered start calls atsign decision storeMs)
    (hclock : ((calls ++ [c]).flatMap readings).Pairwise (· ≤ ·)) : storeMs ≤ c.clock.lookupMs := by
  obtain ⟨before, source, after, u, rfl, -, -, -, rfl, -⟩ := h
  rw [List.flatMap_append] at hclock
  apply (List.pairwise_append.mp hclock).2.2
  · exact List.mem_flatMap.mpr ⟨source, by simp, by simp [readings]⟩
  · exact List.mem_flatMap.mpr ⟨c, List.mem_singleton_self c, by simp [readings]⟩

theorem decided_or {start s : PolicyLimits} {calls : List GateCall} (h : Sound start calls s)
    (hr : machine.run start calls = some s) {c : GateCall}
    (hclock : ((calls ++ [c]).flatMap readings).Pairwise (· ≤ ·)) :
    (s.gate c).result = .drop ∨
      (s.gate c).result = .deny ∧ s.checkMade c = none ∧ (∃ left, c.check = .error left) ∨
      (s.gate c).result = (s.gate c).decision.result ∧ Decided start calls s c := by
  rcases s.gate_cases c with ⟨decision, hhit, hmade, hgate⟩ | ⟨hdrop, -, -⟩ |
      ⟨left, hcheck, hmade, hdeny, -⟩ | ⟨checked, normalized, hmade, hnorm, hresult, hdecision, -⟩
  · obtain ⟨entry, hentry, hnorm, rfl, hfresh⟩ := PolicyCache.lookupInto_hit hhit
    have hlast := h.answered entry hentry
    refine Or.inr (Or.inr ⟨by rw [hgate], entry.atsign, entry.checkedAtMs, hnorm, ?_, ?_⟩)
    · rw [hgate]
      exact hlast.later hr fun _ => hmade
    · exact Or.inr ⟨hlast.le_lookup hclock, hfresh.le⟩
  · exact Or.inl hdrop
  · exact Or.inr (Or.inl ⟨hdeny, hmade, left, hcheck⟩)
  · refine Or.inr (Or.inr ⟨by rw [hresult, hdecision], normalized, c.clock.storeMs, hnorm, ?_, ?_⟩)
    · rw [hdecision]
      exact LastAnswered.now hr hmade hnorm
    · exact Or.inl ⟨by rw [hmade]; rfl, rfl⟩

theorem result_eq_allow {d : PolicyDecision} :
    d.result = .allow ↔ d.authorized = true := by
  unfold PolicyDecision.result
  split <;> simp_all

/-- Along any run of requests, each atSign has one entry at most. A request is
allowed only on the last answer of a check for its atSign, which authorized it,
made in the request itself or within the time to live; the decision handed out is
that answer, permit list and all. One denied without a check that could not be
asked is denied on such an answer too. -/
theorem policyGate_of_run {size : ℕ} {start s : PolicyLimits} {calls : List GateCall}
    (hinit : init size = some start) (hr : machine.run start calls = some s) (c : GateCall)
    (hclock : ((calls ++ [c]).flatMap readings).Pairwise (· ≤ ·)) :
    s.cache.OneEach ∧
      ((s.gate c).result = .allow →
        (s.gate c).decision.authorized = true ∧ Decided start calls s c) ∧
      ((s.gate c).result = .deny →
        (∃ left, c.check = .error left) ∨
          (s.gate c).decision.authorized = false ∧ Decided start calls s c) := by
  have hsound := sound_run hinit hr
  refine ⟨hsound.oneEach, fun hallow => ?_, fun hdeny => ?_⟩
  · rcases decided_or hsound hr hclock with h | ⟨h, -⟩ | ⟨h, hdecided⟩
    · rw [h] at hallow
      cases hallow
    · rw [h] at hallow
      cases hallow
    · rw [h] at hallow
      exact ⟨result_eq_allow.mp hallow, hdecided⟩
  · rcases decided_or hsound hr hclock with h | ⟨-, -, hunsent⟩ | ⟨h, hdecided⟩
    · rw [h] at hdeny
      cases hdeny
    · exact Or.inl hunsent
    · refine Or.inr ⟨?_, hdecided⟩
      rw [h] at hdeny
      by_contra hn
      rw [result_eq_allow.mpr (by simpa using hn)] at hdeny
      cases hdeny

/-- A request of `client` at `ms`, for which a check would answer `check`. -/
def sampleCall (client : String) (ms : ℤ) (check : PolicyDecision) : GateCall :=
  ⟨client, 4, ⟨ms, ms, ms⟩, .ok check, none, none, .zero⟩

/-- A second request under another spelling, allowed by the first one's check. -/
theorem policyGate_of_run_sample : ∃ start s, init 1 = some start ∧
    machine.run start [sampleCall "@al.ice" 5 ⟨true, ["*:22"]⟩] = some s ∧
      (s.gate (sampleCall "Alice" 15004 .zero)).result = .allow ∧
        Decided start [sampleCall "@al.ice" 5 ⟨true, ["*:22"]⟩] s
          (sampleCall "Alice" 15004 .zero) := by
  have hinit : init 1 = some _ := rfl
  refine ⟨_, _, hinit, rfl, by decide +kernel, ?_⟩
  exact ((policyGate_of_run hinit rfl (sampleCall "Alice" 15004 .zero)
    (by simp [readings, sampleCall])).2.1 (by decide +kernel)).2

end PolicyLimits
/-! The daemon's gate is this one with memory that suffices and its own kinds. -/

/-- The `int` the daemon passes for a kind of notification. -/
def NotificationKey.code : NotificationKey → ℤ
  | none => 0
  | sshpublickey => 1
  | ping => 2
  | sshRequest => 3
  | nptRequest => 4

theorem code_inj {k k' : NotificationKey} : k.code = k'.code ↔ k = k' := by
  cases k <;> cases k' <;> simp [NotificationKey.code]

def PolicyThrottleSlot.sender (s : PolicyThrottleSlot) : SenderSlot :=
  ⟨s.atsign, s.kind.code, s.checkedAtMs⟩

def PolicyThrottle.senders (throttle : PolicyThrottle) : List (Option SenderSlot) :=
  throttle.slots.map (Option.map PolicyThrottleSlot.sender)

theorem chooseSlot_map {α β : Type*} {f : α → β} {same : α → Bool} {same' : β → Bool}
    {checkedAt : α → ℤ} {checkedAt' : β → ℤ} (hsame : ∀ a, same' (f a) = same a)
    (hat : ∀ a, checkedAt' (f a) = checkedAt a) (slots : List (Option α)) :
    chooseSlot same' checkedAt' (slots.map (Option.map f)) = chooseSlot same checkedAt slots := by
  have hany : (Option.any same' ∘ Option.map f) = Option.any same := by
    funext x
    cases x <;> simp [hsame]
  have hnone : (Option.isNone ∘ Option.map f) = Option.isNone := by
    funext x
    cases x <;> rfl
  have hold : oldestSlot checkedAt' (slots.map (Option.map f)) = oldestSlot checkedAt slots := by
    have hread (i : ℕ) : ((slots.map (Option.map f))[i]?.join).map checkedAt' =
        (slots[i]?.join).map checkedAt := by
      rw [List.getElem?_map]
      rcases slots[i]? with _ | _ | a
      · rfl
      · rfl
      · simp [hat]
    simp only [oldestSlot, List.length_map, hread]
  simp only [chooseSlot, List.findIdx?_map, hany, hnone, hold]

theorem sendersAllow_senders (throttle : PolicyThrottle) (atsign : String) (kind : NotificationKey)
    (nowMs : ℤ) : sendersAllow throttle.senders atsign kind.code nowMs =
      (throttle.allows atsign kind nowMs).map PolicyThrottle.senders := by
  cases hnorm : normalizeAtsign atsign with
  | none => simp only [sendersAllow, PolicyThrottle.allows, hnorm, Option.map_none]
  | some normalized =>
    let same (s : PolicyThrottleSlot) : Bool := s.kind == kind && s.atsign == normalized
    let same' (s : SenderSlot) : Bool := s.kind == kind.code && s.atsign == normalized
    have hsame (s : PolicyThrottleSlot) : same' s.sender = same s := by
      have hkind : (s.kind.code == kind.code) = (s.kind == kind) := by
        rw [Bool.eq_iff_iff, beq_iff_eq, beq_iff_eq, code_inj]
      exact congrArg (· && (s.atsign == normalized)) hkind
    have hslot : chooseSlot same' (·.checkedAtMs) throttle.senders =
        chooseSlot same (·.checkedAtMs) throttle.slots :=
      chooseSlot_map hsame (fun _ => rfl) throttle.slots
    have hfind : throttle.senders.reduceOption.find? same' =
        (throttle.slots.reduceOption.find? same).map PolicyThrottleSlot.sender := by
      rw [PolicyThrottle.senders, List.reduceOption_map, List.find?_map]
      simp only [Function.comp_def, hsame]
    have hset (i : ℕ) : throttle.senders.set i (some ⟨normalized, kind.code, nowMs⟩) =
        PolicyThrottle.senders ⟨throttle.slots.set i (some ⟨normalized, kind, nowMs⟩)⟩ := by
      rw [PolicyThrottle.senders, PolicyThrottle.senders, List.map_set]
      rfl
    have hleft : sendersAllow throttle.senders atsign kind.code nowMs =
        (throttle.senders.reduceOption.find? same').elim
          (some (throttle.senders.set (chooseSlot same' (·.checkedAtMs) throttle.senders)
            (some ⟨normalized, kind.code, nowMs⟩)))
          fun last =>
            if nowMs - last.checkedAtMs < policyThrottleMs then none
            else some (throttle.senders.set (chooseSlot same' (·.checkedAtMs) throttle.senders)
              (some ⟨normalized, kind.code, nowMs⟩)) := by
      unfold sendersAllow
      cases hlast : throttle.senders.reduceOption.find? same' <;> simp only [same'] at hlast <;>
        simp only [hnorm, hlast, same', Option.elim_none, Option.elim_some]
    have hright : throttle.allows atsign kind nowMs =
        (throttle.slots.reduceOption.find? same).elim
          (some ⟨throttle.slots.set (chooseSlot same (·.checkedAtMs) throttle.slots)
            (some ⟨normalized, kind, nowMs⟩)⟩)
          fun last =>
            if nowMs - last.checkedAtMs < policyThrottleMs then none
            else some ⟨throttle.slots.set (chooseSlot same (·.checkedAtMs) throttle.slots)
              (some ⟨normalized, kind, nowMs⟩)⟩ := by
      unfold PolicyThrottle.allows
      cases hlast : throttle.slots.reduceOption.find? same <;> simp only [same] at hlast <;>
        simp only [hnorm, hlast, same, Option.elim_none, Option.elim_some]
    rw [hleft, hright, hfind, hslot]
    cases throttle.slots.reduceOption.find? same with
    | none => simp only [Option.map_none, Option.map_some, Option.elim_none, hset]
    | some last =>
      simp only [Option.map_some, Option.elim_some, PolicyThrottleSlot.sender, hset]
      split <;> rfl

/-- The call the daemon's loop makes, with memory for every copy. -/
def daemonCall (clientAtsign : String) (kind : NotificationKey) (clock : GateClock)
    (check : Option PolicyDecision) (decision : PolicyDecision) : GateCall :=
  ⟨clientAtsign, kind.code, clock, check.elim (.error .zero) .ok, none, none, decision⟩

theorem copyDecision_none (src : PolicyDecision) : copyDecision none src = (true, src) := by
  unfold copyDecision
  split
  · rename_i hnil
    rw [← hnil]
  · rfl

theorem storeCopy_none (cache : PolicyCache) (atsign : String) (decision : PolicyDecision)
    (nowMs : ℤ) : (cache.storeCopy atsign decision nowMs none).2 =
      cache.store atsign decision nowMs := by
  rcases cache with ⟨_ | ⟨entry, entries⟩⟩
  · rfl
  · cases hnorm : normalizeAtsign atsign with
    | none => simp only [PolicyCache.storeCopy, PolicyCache.store, hnorm]
    | some normalized =>
      simp only [PolicyCache.storeCopy, PolicyCache.store, hnorm, copyDecision_none]

/-- The loop's gate is the gate of its calls. -/
theorem policyGate_eq (cache : PolicyCache) (throttle : PolicyThrottle) (clientAtsign : String)
    (kind : NotificationKey) (clock : GateClock) (check : Option PolicyDecision)
    (decision : PolicyDecision) :
    PolicyLimits.gate ⟨cache, throttle.senders⟩
        (daemonCall clientAtsign kind clock check decision) =
      let answer := policyGate cache throttle clientAtsign kind clock check decision
      ⟨⟨answer.cache, answer.throttle.senders⟩, answer.result, answer.decision⟩ := by
  unfold policyGate PolicyLimits.gate PolicyCache.lookupInto daemonCall
  cases cache.lookup clientAtsign clock.lookupMs with
  | some cached => simp only [copyDecision_none]
  | none =>
    simp only [sendersAllow_senders]
    cases throttle.allows clientAtsign kind clock.throttleMs with
    | none => rfl
    | some throttle =>
      cases check with
      | none => rfl
      | some checked => simp only [Option.map_some, Option.elim_some, storeCopy_none]

end NoPorts.CDaemon
