import NoPorts.ArduinoClientKeys

/-! Whose turn it is to be checked: each pass checks the key of the first slot that is due. -/
namespace NoPorts.ArduinoClientKeys.Daemon
open Lib

variable (config : Config)

/-- The key is due in this slot. -/
def DueAt (d : Daemon) (slot : ℕ) (uri : String) : Prop :=
  ∃ key, d.client_keys[slot]? = some key ∧ key.due = true ∧ key.signing_key = some uri

def IsDue (d : Daemon) (uri : String) : Prop := ∃ slot, d.DueAt slot uri

/-- This event checks the key. -/
def Checked (d : Daemon) (e : Event) (uri : String) : Prop :=
  ∃ now answers found, e = .check now answers ∧ d.checks config now answers = some (uri, found)

/-- The daemon as an event's check finds it, in the round that the event may begin. -/
def marked (d : Daemon) : Event → Daemon
  | .check now _ => d.beginRound config now
  | .request _ _ | .slots _ => d

/-- `uri` has been checked while `other` was due, and `other` has been due ever since. -/
def Passed (n : ℕ) (es : List Event) (other uri : String) : Prop :=
  ∃ pre e mid u, es = pre ++ e :: mid ∧ (machine config).run (constructed n) pre = some u ∧
    Checked config u e uri ∧ uri ≠ other ∧ (u.marked config e).IsDue other ∧
      ∀ mid' v, mid' <+: mid → (machine config).run (constructed n) (pre ++ e :: mid') = some v → v.IsDue other

/-- A round that begins in `d` leaves due no key ahead of another that it has passed. -/
def RoundInOrder (n : ℕ) (es : List Event) (d : Daemon) (e : Event) : Prop :=
  ∀ now answers, e = .check now answers → now - d.last_key_check_ms ≥ intervalMs config →
    ∀ slot slot' uri other, (d.beginRound config now).DueAt slot uri → (d.beginRound config now).DueAt slot' other →
      Passed config n es other uri → slot' < slot

/-! ### What makes an entry due -/

variable {config} {d d' : Daemon}

/-- What is due stays due when a round begins. -/
def Armed (key : ClientSigningKey) : Prop := key.due = true → key.skip_rounds = 0 ∧ key.ending = false

theorem armed_of_not_due {key : ClientSigningKey} (h : key.due = false) : Armed key := by
  intro hdue
  rw [h] at hdue
  cases hdue

theorem armed_markDue (key : ClientSigningKey) : Armed key.markDue := by
  intro hdue
  change (key.signing_key.isSome && !key.ending && key.skip_rounds == 0) = true at hdue
  rw [Bool.and_eq_true, Bool.and_eq_true, Bool.not_eq_true', beq_iff_eq] at hdue
  refine ⟨?_, hdue.1.2⟩
  show key.skip_rounds - 1 = 0
  omega

theorem Armed.markDue_due {key : ClientSigningKey} (h : Armed key) (hdue : key.due = true)
    (hkey : key.signing_key.isSome = true) : key.markDue.due = true := by
  obtain ⟨hskip, hending⟩ := h hdue
  show (key.signing_key.isSome && !key.ending && key.skip_rounds == 0) = true
  rw [hkey, hending, hskip]
  rfl

theorem checkClientSigningKey_due {session_id : String} {signature : EnrollmentSignature}
    {client_key : ClientSigningKey} (h : d.checkClientSigningKey config session_id signature = some client_key) :
    client_key.due = false := by
  have hzero (h : (if config.require_enrollment_signature then none else some ClientSigningKey.zero) =
      some client_key) : client_key.due = false := by
    obtain ⟨-, h⟩ := Option.ite_none_left_eq_some.mp h
    rw [← Option.some.inj h]
    rfl
  unfold checkClientSigningKey at h
  obtain ⟨-, h⟩ := Option.ite_none_left_eq_some.mp h
  cases signature with
  | absent => exact hzero h
  | verified signing_key atserver_host atserver_port =>
    rw [← Option.some.inj h]
    rfl
  | refused => cases h
  | unchecked => exact hzero h

/-- An entry that is due was so before. -/
def DueBefore (d d' : Daemon) : Prop :=
  ∀ (slot : ℕ) (key : ClientSigningKey), d'.client_keys[slot]? = some key → key.due = true →
    d.client_keys[slot]? = some key

theorem dueBefore_of_eq (h : d'.client_keys = d.client_keys) : DueBefore d d' := by
  intro slot key hkey _
  rwa [← h]

theorem dueBefore_of_set {slot : ℕ} {key : ClientSigningKey} (hdue : key.due = false)
    (h : d'.client_keys = d.client_keys.set slot key) : DueBefore d d' := by
  intro k key' hkey' hdue'
  rw [h] at hkey'
  rcases getElem?_set_cases hkey' with ⟨-, rfl⟩ | ⟨-, hkey'⟩
  · rw [hdue] at hdue'
    cases hdue'
  · exact hkey'

theorem DueBefore.dueAt (h : DueBefore d d') {slot : ℕ} {uri : String} (hdue : d'.DueAt slot uri) :
    d.DueAt slot uri := by
  obtain ⟨key, hkey, hkeyDue, huri⟩ := hdue
  exact ⟨key, h slot key hkey hkeyDue, hkeyDue, huri⟩

theorem onSlots_due (hfresh : d.client_key.due = false) {e : ArduinoSlots.Event} (h : d.onSlots e = some d') :
    d'.client_key = d.client_key ∧ DueBefore d d' := by
  unfold onSlots at h
  split at h
  · cases h
  · split at h
    · obtain ⟨relay, -, h⟩ := Option.bind_eq_some_iff.mp h
      obtain ⟨slots, -, h⟩ := Option.bind_eq_some_iff.mp h
      dsimp only at h
      split at h
      · obtain rfl := Option.some.inj h
        refine ⟨rfl, ?_⟩
        by_cases hsigned : d.client_key.signing_key.isSome
        · exact dueBefore_of_set hfresh (if_pos hsigned)
        · exact dueBefore_of_eq (if_neg hsigned)
      · obtain rfl := Option.some.inj h
        exact ⟨rfl, dueBefore_of_eq rfl⟩
    · cases h
  · obtain ⟨relay, -, h⟩ := Option.bind_eq_some_iff.mp h
    obtain ⟨slots, -, h⟩ := Option.bind_eq_some_iff.mp h
    split at h
    · obtain rfl := Option.some.inj h
      exact ⟨rfl, dueBefore_of_set rfl rfl⟩
    · obtain rfl := Option.some.inj h
      exact ⟨rfl, dueBefore_of_eq rfl⟩
  · obtain ⟨slots, -, rfl⟩ := Option.map_eq_some_iff.mp h
    exact ⟨rfl, dueBefore_of_eq rfl⟩

/-- No step but a check makes an entry due. -/
theorem step_due (hfresh : d.client_key.due = false) {e : Event} (hno : ∀ now answers, e ≠ .check now answers)
    (h : d.step config e = some d') : d'.client_key.due = false ∧ DueBefore d d' := by
  cases e with
  | request session_id signature =>
    change d.onRequest config session_id signature = some d' at h
    rw [onRequest] at h
    split at h
    · obtain rfl := Option.some.inj h
      exact ⟨hfresh, dueBefore_of_eq rfl⟩
    · rename_i client_key hclient
      obtain ⟨slots, -, rfl⟩ := Option.map_eq_some_iff.mp h
      exact ⟨checkClientSigningKey_due hclient, dueBefore_of_eq rfl⟩
  | slots e =>
    obtain ⟨hsame, hdue⟩ := onSlots_due hfresh h
    exact ⟨hsame ▸ hfresh, hdue⟩
  | check now answers => exact absurd rfl (hno now answers)

/-- The entry that is checked is the first that is due. -/
theorem dueKey_first {slot : ℕ} {key : ClientSigningKey} {uri : String} (h : d.dueKey = some (slot, key, uri)) :
    d.DueAt slot uri ∧ ∀ slot' other, d.DueAt slot' other → slot ≤ slot' := by
  obtain ⟨i, hfind, h⟩ := Option.bind_eq_some_iff.mp h
  obtain ⟨key', hkey, h⟩ := Option.bind_eq_some_iff.mp h
  obtain ⟨uri', huri, h⟩ := Option.bind_eq_some_iff.mp h
  cases h
  obtain ⟨hi, hdue, hbefore⟩ := List.findIdx?_eq_some_iff_getElem.mp hfind
  rw [List.getElem?_eq_getElem hi] at hkey
  refine ⟨⟨key, ?_, ?_, huri⟩, fun slot' other hother => ?_⟩
  · rw [List.getElem?_eq_getElem hi, hkey]
  · rwa [← Option.some.inj hkey]
  · obtain ⟨key', hkey', hdue', -⟩ := hother
    obtain ⟨hlt, rfl⟩ := List.getElem?_eq_some_iff.mp hkey'
    by_contra hfirst
    exact hbefore slot' (by omega) hdue'

/-! ### Turns -/

/-- Entries that are due are armed, and the one that is to come is not due. -/
structure Rearmed (d : Daemon) : Prop where
  fresh : d.client_key.due = false
  armed : ∀ key ∈ d.client_keys, Armed key

theorem rearmed_constructed (n : ℕ) : Rearmed (constructed n) where
  fresh := rfl
  armed := by
    intro key hkey
    rw [List.eq_of_mem_replicate hkey]
    exact armed_of_not_due rfl

theorem Rearmed.beginRound (h : Rearmed d) (now : UInt32) : Rearmed (d.beginRound config now) := by
  rw [Daemon.beginRound]
  split
  · refine ⟨h.fresh, fun key hkey => ?_⟩
    obtain ⟨old, -, rfl⟩ := List.mem_map.mp hkey
    exact armed_markDue old
  · exact h

/-- A round leaves due what is due. -/
theorem Rearmed.beginRound_dueAt (h : Rearmed d) (now : UInt32) {slot : ℕ} {uri : String}
    (hdue : d.DueAt slot uri) : (d.beginRound config now).DueAt slot uri := by
  obtain ⟨key, hkey, hkeyDue, huri⟩ := hdue
  rw [Daemon.beginRound]
  split
  · refine ⟨key.markDue, ?_, ?_, huri⟩
    · show (d.client_keys.map _)[slot]? = _
      rw [List.getElem?_map, hkey]
      rfl
    · exact (h.armed key (List.mem_of_getElem? hkey)).markDue_due hkeyDue (by rw [huri]; rfl)
  · exact ⟨key, hkey, hkeyDue, huri⟩

theorem located_due (key : ClientSigningKey) (answers : CheckAnswers) :
    (key.located answers).due = key.due ∧ (key.located answers).skip_rounds = key.skip_rounds := by
  unfold ClientSigningKey.located
  split <;> exact ⟨rfl, rfl⟩

/-- After a check, what is due is so for another key, in the slots where it was. -/
theorem settleKey_due {slot : ℕ} {key : ClientSigningKey} (hkey : d.client_keys[slot]? = some key)
    (answers : CheckAnswers) (uri : String) (found : KeyCheck) :
    let located : Daemon := { d with client_keys := d.client_keys.set slot (key.located answers) }
    (located.settleKey uri found).client_key = d.client_key ∧
      ((∀ key ∈ d.client_keys, Armed key) → ∀ key ∈ (located.settleKey uri found).client_keys, Armed key) ∧
        ∀ slot' other, (located.settleKey uri found).DueAt slot' other → other ≠ uri ∧ d.DueAt slot' other := by
  intro located
  have hkeys : (located.settleKey uri found).client_key = d.client_key ∧
      (located.settleKey uri found).client_keys =
        located.client_keys.map fun key => if key.signing_key = some uri then key.settle found else key := by
    rw [Daemon.settleKey]
    dsimp only
    split
    · exact ⟨rfl, rfl⟩
    · exact ⟨rfl, rfl⟩
  obtain ⟨hdue, hskip⟩ := located_due key answers
  have hsame := located_same key answers
  refine ⟨hkeys.1, fun harmed x hx => ?_, fun slot' other hother => ?_⟩
  · rw [hkeys.2] at hx
    obtain ⟨old, hold, rfl⟩ := List.mem_map.mp hx
    split
    · exact armed_of_not_due rfl
    · rcases List.mem_or_eq_of_mem_set hold with hold | rfl
      · exact harmed old hold
      · have harm := harmed key (List.mem_of_getElem? hkey)
        intro hdueNow
        rw [hskip, (Prod.mk.inj hsame).2]
        exact harm (hdue ▸ hdueNow)
  · obtain ⟨x, hx, hxDue, hxKey⟩ := hother
    rw [hkeys.2, List.getElem?_map] at hx
    obtain ⟨old, hold, rfl⟩ := Option.map_eq_some_iff.mp hx
    split at hxDue
    · cases hxDue
    · rename_i hne
      rw [if_neg hne] at hxKey
      refine ⟨fun heq => hne (heq ▸ hxKey), ?_⟩
      rcases getElem?_set_cases hold with ⟨rfl, rfl⟩ | ⟨-, hold⟩
      · exact ⟨key, hkey, hdue ▸ hxDue, (Prod.mk.inj hsame).1 ▸ hxKey⟩
      · exact ⟨old, hold, hxDue, hxKey⟩

/-- A check keeps the entries armed; what is due after it was due in its round, but for the key that it checked. -/
theorem Rearmed.check (h : Rearmed d) (now : UInt32) (answers : CheckAnswers) :
    Rearmed (d.checkClientKeys config now answers) ∧
      (∀ slot uri, (d.checkClientKeys config now answers).DueAt slot uri →
        (d.beginRound config now).DueAt slot uri) ∧
      ∀ slot uri, (d.checkClientKeys config now answers).DueAt slot uri →
        ¬Checked config d (.check now answers) uri := by
  have hround : Rearmed (d.beginRound config now) := h.beginRound now
  have hunchecked (hnone : d.checks config now answers = none) (uri : String) :
      ¬Checked config d (.check now answers) uri := by
    rintro ⟨_, _, found, he, hchecks⟩
    cases he
    rw [hnone] at hchecks
    cases hchecks
  rcases d.checkClientKeys_cases config now answers with ⟨hnone, heq | heq⟩ | ⟨slot, key, uri, found, hkey, hchecks, heq⟩
  · rw [heq]
    exact ⟨h, fun _ _ => h.beginRound_dueAt now, fun _ uri _ => hunchecked hnone uri⟩
  · rw [heq]
    exact ⟨hround, fun _ _ hdue => hdue, fun _ uri _ => hunchecked hnone uri⟩
  · rw [heq]
    obtain ⟨hfresh, harmed, hdue⟩ := settleKey_due hkey answers uri found
    refine ⟨⟨(congrArg ClientSigningKey.due hfresh).trans hround.fresh, harmed hround.armed⟩,
      fun slot' other hother => (hdue slot' other hother).2, ?_⟩
    rintro slot' other hother ⟨_, _, found', he, hchecks'⟩
    cases he
    rw [hchecks] at hchecks'
    exact (hdue slot' other hother).1 (Prod.mk.inj (Option.some.inj hchecks')).1.symm

/-- What is due after a step is due where its check, if it makes one, looks; and it is not what that checked. -/
theorem Rearmed.step (h : Rearmed d) {e : Event} (hstep : d.step config e = some d') :
    Rearmed d' ∧ (∀ slot uri, d'.DueAt slot uri → (d.marked config e).DueAt slot uri) ∧
      ∀ slot uri, d'.DueAt slot uri → ¬Checked config d e uri := by
  have hquiet (hno : ∀ now answers, e ≠ .check now answers) (hmarked : d.marked config e = d) :
      Rearmed d' ∧ (∀ slot uri, d'.DueAt slot uri → (d.marked config e).DueAt slot uri) ∧
        ∀ slot uri, d'.DueAt slot uri → ¬Checked config d e uri := by
    obtain ⟨hfresh, hbefore⟩ := step_due h.fresh hno hstep
    rw [hmarked]
    refine ⟨⟨hfresh, fun key hkey => ?_⟩, fun _ _ hdue => hbefore.dueAt hdue, ?_⟩
    · obtain ⟨slot, hslot⟩ := List.mem_iff_getElem?.mp hkey
      intro hdue
      exact h.armed key (List.mem_of_getElem? (hbefore slot key hslot hdue)) hdue
    · rintro _ _ _ ⟨now, answers, _, he, -⟩
      exact hno now answers he
  cases e with
  | request session_id signature => exact hquiet (fun _ _ he => by cases he) rfl
  | slots e => exact hquiet (fun _ _ he => by cases he) rfl
  | check now answers =>
    obtain ⟨_, -, hstep⟩ := Option.bind_eq_some_iff.mp hstep
    obtain rfl := Option.some.inj hstep
    exact h.check now answers

theorem Rearmed.marked_dueAt (h : Rearmed d) {e : Event} {slot : ℕ} {uri : String} (hdue : d.DueAt slot uri) :
    (d.marked config e).DueAt slot uri := by
  cases e with
  | request session_id signature => exact hdue
  | slots e => exact hdue
  | check now answers => exact h.beginRound_dueAt now hdue

theorem Checked.first {e : Event} {uri : String} (h : Checked config d e uri) :
    ∃ slot, (d.marked config e).DueAt slot uri ∧
      ∀ slot' other, (d.marked config e).DueAt slot' other → slot ≤ slot' := by
  obtain ⟨now, answers, found, rfl, hchecks⟩ := h
  rw [Daemon.checks] at hchecks
  obtain ⟨-, hchecks⟩ := Option.ite_none_left_eq_some.mp hchecks
  obtain ⟨⟨slot, key, uri'⟩, hdue, heq⟩ := Option.map_eq_some_iff.mp hchecks
  obtain ⟨rfl, -⟩ := Prod.mk.inj heq
  exact ⟨slot, dueKey_first hdue⟩

section
variable {n : ℕ} {es : List Event} {other uri : String}

theorem rearmed_run (h : (machine config).run (constructed n) es = some d) : Rearmed d :=
  (machine config).invariant (fun _ _ _ hu hstep => (Rearmed.step hu hstep).1) (rearmed_constructed n) h

/-- What has been passed is due. -/
theorem Passed.isDue (h : Passed config n es other uri) (hrun : (machine config).run (constructed n) es = some d) :
    d.IsDue other := by
  obtain ⟨pre, e, mid, u, rfl, -, -, -, -, hmid⟩ := h
  exact hmid mid d List.prefix_rfl hrun

theorem Passed.of_concat {e : Event} (h : Passed config n (es ++ [e]) other uri)
    (hrun : (machine config).run (constructed n) es = some d) :
    Passed config n es other uri ∨ Checked config d e uri := by
  obtain ⟨pre, f, mid, u, heq, hu, hchecked, hne, hdue, hmid⟩ := h
  rcases List.eq_nil_or_concat mid with rfl | ⟨mid, last, rfl⟩
  · obtain ⟨rfl, hlast⟩ := List.append_inj' heq rfl
    obtain rfl := (List.cons.inj hlast).1
    obtain rfl := Option.some.inj (hu.symm.trans hrun)
    exact Or.inr hchecked
  · rw [List.concat_eq_append, ← List.cons_append, ← List.append_assoc] at heq
    refine Or.inl ⟨pre, f, mid, u, (List.append_inj' heq rfl).1, hu, hchecked, hne, hdue, fun mid' v hpre hv => ?_⟩
    exact hmid mid' v (hpre.trans (List.concat_eq_append ▸ List.prefix_append mid [last])) hv

/-- A key that has been passed is due ahead of the key that passed it. -/
def Ordered (config : Config) (n : ℕ) (es : List Event) (d : Daemon) : Prop :=
  ∀ slot slot' uri other, d.DueAt slot uri → d.DueAt slot' other → Passed config n es other uri → slot' < slot

theorem Ordered.marked (h : Ordered config n es d) {e : Event} (hround : RoundInOrder config n es d e) :
    Ordered config n es (d.marked config e) := by
  cases e with
  | request session_id signature => exact h
  | slots e => exact h
  | check now answers =>
    by_cases hbegins : now - d.last_key_check_ms ≥ intervalMs config
    · exact hround now answers rfl hbegins
    · have hsame : d.beginRound config now = d := if_neg hbegins
      show Ordered config n es (d.beginRound config now)
      rwa [hsame]

theorem ordered_run {pre : List Event} (hpre : pre <+: es)
    (hrounds : ∀ pre e u, pre ++ [e] <+: es → (machine config).run (constructed n) pre = some u →
      RoundInOrder config n pre u e)
    (hrun : (machine config).run (constructed n) pre = some d) : Ordered config n pre d := by
  induction pre using List.reverseRecOn generalizing d with
  | nil =>
    intro slot slot' uri other _ _ hpassed
    obtain ⟨pre, e, mid, u, heq, -⟩ := hpassed
    exact absurd heq.symm (by simp)
  | append_singleton pre e ih =>
    obtain ⟨u, hu, hstep⟩ := (machine config).run_concat hrun
    have hbefore := ih ((List.prefix_append pre [e]).trans hpre) hu
    obtain ⟨-, hdue, hunchecked⟩ := (rearmed_run hu).step hstep
    intro slot slot' uri other hslot hslot' hpassed
    rcases hpassed.of_concat hu with hpassed | hchecked
    · exact hbefore.marked (hrounds pre e u hpre hu) slot slot' uri other (hdue slot uri hslot)
        (hdue slot' other hslot') hpassed
    · exact absurd hchecked (hunchecked slot uri hslot)

/-- While no round lets a key in again ahead of one that it has passed, no key is checked twice while another waits. -/
theorem turns_of_roundsInOrder
    (hrounds : ∀ pre e u, pre ++ [e] <+: es → (machine config).run (constructed n) pre = some u →
      RoundInOrder config n pre u e) :
    ∀ pre e u uri, pre ++ [e] <+: es → (machine config).run (constructed n) pre = some u →
      Checked config u e uri → ∀ other, ¬Passed config n pre other uri := by
  intro pre e u uri hpre hu hchecked other hpassed
  have hordered := (ordered_run ((List.prefix_append pre [e]).trans hpre) hrounds hu).marked (hrounds pre e u hpre hu)
  obtain ⟨slot, hslot, hfirst⟩ := hchecked.first
  obtain ⟨slot', hslot'⟩ := hpassed.isDue hu
  have hmarked : (u.marked config e).DueAt slot' other := (rearmed_run hu).marked_dueAt hslot'
  have hahead := hordered slot slot' uri other hslot hmarked hpassed
  have hle := hfirst slot' other hmarked
  omega

/-- Whether the check begins a round. -/
def Begins (config : Config) (d : Daemon) : Event → Prop
  | .check now _ => now - d.last_key_check_ms ≥ intervalMs config
  | .request _ _ | .slots _ => False

instance (config : Config) (d : Daemon) : DecidablePred (Begins config d)
  | .check now _ => inferInstanceAs (Decidable (now - d.last_key_check_ms ≥ intervalMs config))
  | .request _ _ | .slots _ => .isFalse id

/-- A round begins once every key of the last has had its turn. -/
def NoneLeft (config : Config) (d : Daemon) (e : Event) : Prop :=
  Begins config d e → ∀ key ∈ d.client_keys, key.due = false

instance (config : Config) (d : Daemon) (e : Event) : Decidable (NoneLeft config d e) :=
  inferInstanceAs (Decidable (_ → _))

theorem NoneLeft.roundInOrder {e : Event} (h : NoneLeft config d e)
    (hrun : (machine config).run (constructed n) es = some d) : RoundInOrder config n es d e := by
  rintro now answers rfl hbegins slot slot' uri other - - hpassed
  obtain ⟨slot, key, hkey, hdue, -⟩ := hpassed.isDue hrun
  have hnone := h hbegins key (List.mem_of_getElem? hkey)
  rw [hdue] at hnone
  cases hnone

theorem roundsInOrder_of_meets (h : (machine config).Meets (NoneLeft config) (constructed n) es) :
    ∀ pre e u, pre ++ [e] <+: es → (machine config).run (constructed n) pre = some u → RoundInOrder config n pre u e := by
  rintro pre e u ⟨post, rfl⟩ hu
  have hlast := ((machine config).meets_append.mp h).1
  exact (((machine config).meets_concat.mp hlast).2 u hu).roundInOrder hu

theorem isDue_of_run (hrun : (machine config).run (constructed n) es = some d)
    (h : ((machine config).run (constructed n) es).all (fun d => d.client_keys.any fun key =>
      key.due && key.signing_key == some uri) = true) : d.IsDue uri := by
  rw [hrun, Option.all_some] at h
  obtain ⟨key, hkey, hand⟩ := List.any_eq_true.mp h
  obtain ⟨slot, hslot⟩ := List.mem_iff_getElem?.mp hkey
  obtain ⟨hdue, huri⟩ := Bool.and_eq_true_iff.mp hand
  exact ⟨slot, key, hslot, hdue, beq_iff_eq.mp huri⟩

end

/-! ### Three keys, each of them five seconds in the checking -/

def secondKey : String := "public:_apsk.e2.a.__e@bob"

def thirdKey : String := "public:_apsk.e3.a.__e@carol"

/-- The task of a session connects before the next request comes. -/
def connects (task : ℕ) : List Event := List.replicate 3 (.slots (.task task .next))

/-- A request is given this slot, those before it being in use. -/
def beginsIn (slot : ℕ) (session_id signing_key : String) (p : ArduinoSlots.Ptr) : List Event :=
  .request session_id (.verified signing_key "host" 64) ::
    (List.replicate (slot + 1) (.slots (.probe false)) ++
      [.slots .compare, .slots (.start (ArduinoSlots.Daemon.sampleConfig p) (ArduinoSlots.Daemon.sampleAnswers (p + 4)))] ++
      connects slot)

def threeSigned : List Event :=
  .slots (.setMaxRelays 3) :: beginsIn 0 "s1" sampleKey 10 ++ beginsIn 1 "s2" secondKey 20 ++ beginsIn 2 "s3" thirdKey 30

def published : CheckAnswers := ⟨.found, none, true, true, .failed, none, none⟩

/-- With twenty seconds to a round the third key has its turn in each: these are the second's passes but the last. -/
def twoRounds : List Event :=
  threeSigned ++ ([20000, 25000, 30000, 40000, 45000].map fun now => .check now published)

theorem turns_of_roundsInOrder_second : ∃ u, (machine ⟨20, false⟩).run (constructed 5) twoRounds = some u ∧
    Checked ⟨20, false⟩ u (.check 50000 published) thirdKey ∧
      ∀ other, ¬Passed ⟨20, false⟩ 5 twoRounds other thirdKey := by
  obtain ⟨u, hu, hchecks⟩ := Option.map_eq_some_iff.mp (by decide +kernel :
    ((machine ⟨20, false⟩).run (constructed 5) twoRounds).map (·.checks ⟨20, false⟩ 50000 published) =
      some (some (thirdKey, .published)))
  have hchecked : Checked ⟨20, false⟩ u (.check 50000 published) thirdKey := ⟨50000, published, .published, rfl, hchecks⟩
  have hrounds : (machine ⟨20, false⟩).Meets (NoneLeft ⟨20, false⟩) (constructed 5)
      (twoRounds ++ [.check 50000 published]) := by decide +kernel
  exact ⟨u, hu, hchecked,
    turns_of_roundsInOrder (roundsInOrder_of_meets hrounds) twoRounds _ u _ List.prefix_rfl hu hchecked⟩

/-- The next round begins before the third key has been checked. -/
theorem third_waits : ∃ u, (machine sampleConfig).run (constructed 5)
      (threeSigned ++ [.check 10000 published, .check 15000 published]) = some u ∧
    Checked sampleConfig u (.check 20000 published) sampleKey ∧
      Passed sampleConfig 5 (threeSigned ++ [.check 10000 published, .check 15000 published]) thirdKey sampleKey := by
  obtain ⟨u, hu⟩ := Option.isSome_iff_exists.mp (by decide +kernel : ((machine sampleConfig).run (constructed 5)
    threeSigned).isSome = true)
  obtain ⟨v, hv⟩ := Option.isSome_iff_exists.mp (by decide +kernel : ((machine sampleConfig).run (constructed 5)
    (threeSigned ++ [.check 10000 published, .check 15000 published])).isSome = true)
  refine ⟨v, hv, ⟨20000, published, .published, rfl, ?_⟩, threeSigned, .check 10000 published,
    [.check 15000 published], u, rfl, hu, ⟨10000, published, .published, rfl, ?_⟩, by decide, ?_, ?_⟩
  · have hchecks : ((machine sampleConfig).run (constructed 5)
        (threeSigned ++ [.check 10000 published, .check 15000 published])).map
        (·.checks sampleConfig 20000 published) = some (some (sampleKey, .published)) := by decide +kernel
    rw [hv] at hchecks
    exact Option.some.inj hchecks
  · have hchecks : ((machine sampleConfig).run (constructed 5) threeSigned).map
        (·.checks sampleConfig 10000 published) = some (some (sampleKey, .published)) := by decide +kernel
    rw [hu] at hchecks
    exact Option.some.inj hchecks
  · have hdue : ((machine sampleConfig).run (constructed 5) threeSigned).all (fun d =>
        (d.beginRound sampleConfig 10000).client_keys[2]?.any fun key =>
          key.due && key.signing_key == some thirdKey) = true := by decide +kernel
    rw [hu, Option.all_some] at hdue
    obtain ⟨key, hkey, hand⟩ := (Option.any_eq_true _ _).mp hdue
    obtain ⟨hkeyDue, huri⟩ := Bool.and_eq_true_iff.mp hand
    exact ⟨2, key, hkey, hkeyDue, beq_iff_eq.mp huri⟩
  · intro mid' w hmid hw
    have hlast : mid' <+: [] ++ [.check 15000 published] := hmid
    rcases List.prefix_concat_iff.mp hlast with rfl | hnil
    · exact isDue_of_run hw (by decide +kernel)
    · obtain rfl := List.prefix_nil.mp hnil
      exact isDue_of_run hw (by decide +kernel)

end NoPorts.ArduinoClientKeys.Daemon
