import NoPorts.Lib.Except
import NoPorts.RelaySelection

/-! Every run of a selection, whatever the relays and the daemon send. -/
namespace NoPorts.RelaySelection
open Lib

def Request.isOver (r : Request) : Bool := r.completer.isSome || r.timedOut

def DeviceRequest.isOver (d : DeviceRequest) : Bool := d.completer.isSome || d.timedOut

/-- `rv` has answered its request with `fields`. -/
def Answered (rt : Runtime) (es : List Event) (rv : String) (fields : Fields) : Prop :=
  ∃ i value, .request i (.notification rv (some value)) ∈ es ∧ discoverFields rt value = some fields

/-- The daemon has sent `latencies`. -/
def Reported (rt : Runtime) (es : List Event) (latencies : Latencies) : Prop :=
  ∃ value, .device (.notification rt.sshnpdAtSign value) ∈ es ∧ decodeLatencies rt value = some latencies

def State.ReachedByClient (s : State) (rv : String) : Prop :=
  ∃ measured, s.clientLatency = some measured ∧ Reached measured.latencies rv

/-- The daemon's latencies have come before the selection stopped waiting for them. -/
def State.InTime (s : State) (latencies : Latencies) : Prop :=
  ∃ d, s.device = some d ∧ d.latency = some (some latencies)

/-- No subscription is listening. -/
def State.Quiet (s : State) : Prop :=
  (∀ r ∈ s.requests, r.listening = false) ∧ ∀ d, s.device = some d → d.listening = false

/-- What a selection among `rvs` keeps to. -/
structure Sound (rt : Runtime) (rvs : List String) (es : List Event) (s : State) : Prop where
  uncaught : s.uncaught = 0
  chosen : ∀ rv, s.result = some (.ok rv) → rv ∈ rvs ∧ (∃ fields, Answered rt es rv fields) ∧ s.ReachedByClient rv
  thrown : ∀ e, s.result = some (.error e) → (∀ rv ∈ rvs, ¬s.ReachedByClient rv) ∨
    ∃ latencies, s.InTime latencies ∧ Reported rt es latencies ∧
      ∀ rv ∈ rvs, ¬(s.ReachedByClient rv ∧ Reached latencies rv)
  quiet : s.result.isSome → s.Quiet

/-! The steps that end a selection, by the state before them. -/

/-- What completes the selection's wait for the daemon. -/
def DeviceRequest.Settles (rt : Runtime) (d : DeviceRequest) : DeviceEvent → Prop
  | .notification fromAtSign _ => fromAtSign = rt.sshnpdAtSign ∧ d.completer = none ∧ d.notify = .sent
  | .notifyReturned => d.completer.isSome
  | .notifyThrew => True
  | .timeout => False
  | .deviceLatencyTimeout => True

def Ends (rt : Runtime) (s : State) : Event → Prop
  | .request i e => s.rvIpMap.entries = [] ∧ (∀ j r, s.requests[j]? = some r → j ≠ i → r.ended = true) ∧
      match e with
      | .notifyThrew | .timeout => True
      | .notification .. | .notifyReturned => False
  | .device e => s.clientLatency.isSome ∧ ∃ d, s.device = some d ∧ d.latency = none ∧ d.Settles rt e
  | .measured _ _ => (∃ rv addr, s.rvIpMap.get? rv = some addr ∧ ¬Readable addr) ∨
      ∃ d, s.device = some d ∧ d.latency.isSome

/-- What a step brings that the selection copes with. -/
structure Fit (rt : Runtime) (s : State) (e : Event) : Prop where
  /-- The first answer of a relay is an object. -/
  discover : ∀ i r value, s.requests[i]? = some r → r.completer = none →
    e = .request i (.notification r.rv (some value)) → (discoverFields rt value).isSome
  /-- What the daemon sends before its `notify` has returned is well formed. -/
  report : ∀ d value, s.device = some d → d.completer = none → d.notify ≠ .sent →
    e = .device (.notification rt.sshnpdAtSign value) → (decodeLatencies rt value).isSome
  /-- Every address is readable, unless no relay can be reached. -/
  readable : ∀ order probe, e = .measured order probe →
    (∀ rv addr, s.rvIpMap.get? rv = some addr → Readable addr) ∨
      ∀ rv addr, s.rvIpMap.get? rv = some addr → ¬Reaches addr (probe rv)
  /-- The step that ends the selection finds every relay and the daemon to have answered, or to have timed out. -/
  isOver : s.result = none → Ends rt s e →
    (∀ j r, s.requests[j]? = some r → r.isOver ∨ e = .request j .timeout) ∧
      ∀ d, s.device = some d → d.isOver ∨ ∃ fromAtSign value, e = .device (.notification fromAtSign value)

/-! One request -/

theorem Answered.later {rt : Runtime} {es : List Event} {rv : String} {fields : Fields} (h : Answered rt es rv fields)
    (e : Event) : Answered rt (es ++ [e]) rv fields := by
  obtain ⟨i, value, hmem, hfields⟩ := h
  exact ⟨i, value, List.mem_append_left [e] hmem, hfields⟩

theorem Reported.later {rt : Runtime} {es : List Event} {latencies : Latencies} (h : Reported rt es latencies)
    (e : Event) : Reported rt (es ++ [e]) latencies := by
  obtain ⟨value, hmem, hlatencies⟩ := h
  exact ⟨value, List.mem_append_left [e] hmem, hlatencies⟩

structure Request.Fits (rt : Runtime) (rvs : List String) (es : List Event) (r : Request) : Prop where
  candidate : r.rv ∈ rvs
  answered : ∀ fields, r.completer = some fields → Answered rt es r.rv fields
  listening : r.listening = !r.isOver
  timedOut : r.timedOut = true → r.notify = .sent

theorem Request.Fits.later {rt : Runtime} {rvs : List String} {es : List Event} {r : Request} (h : r.Fits rt rvs es)
    (e : Event) : r.Fits rt rvs (es ++ [e]) :=
  ⟨h.candidate, fun fields hf => (h.answered fields hf).later e, h.listening, h.timedOut⟩

theorem Request.Fits.quiet_iff {rt : Runtime} {rvs : List String} {es : List Event} {r : Request} (h : r.Fits rt rvs es) :
    r.listening = false ↔ r.isOver = true := by
  rw [h.listening, Bool.not_eq_false']

/-- What one event does to a request. -/
structure Request.Turned (r : Request) (e : RequestEvent) (r' : Request) : Prop where
  rv : r'.rv = r.rv
  isOver : r.isOver ∨ e = .timeout → r'.isOver
  /-- A request ends without an address only where `notify` throws or the answer does not come. -/
  ended : r.ended = false → r'.ended = true → (r.ipInfo = none ∧ r'.ipInfo.isSome) ∨ e = .notifyThrew ∨ e = .timeout

theorem Request.turned_self {r : Request} (e : RequestEvent) (he : e ≠ .timeout) : r.Turned e r where
  rv := rfl
  isOver := by
    rintro (h | h)
    · exact h
    · exact absurd h he
  ended h h' := by
    rw [h] at h'
    cases h'

section
variable {rt : Runtime} {rvs : List String} {es : List Event} {i : ℕ} {r r' : Request} {e : RequestEvent} {errors : ℕ}

theorem Request.turn_notification {fromAtSign : String} {value : Option String} (hr : r.Fits rt rvs es)
    (hfit : ∀ text, r.completer = none → fromAtSign = r.rv → value = some text → (discoverFields rt text).isSome)
    (h : r.receive rt fromAtSign value = (r', errors)) :
    errors = 0 ∧ r'.Fits rt rvs (es ++ [.request i (.notification fromAtSign value)]) ∧
      r.Turned (.notification fromAtSign value) r' := by
  have hself : (r, 0) = (r', errors) → errors = 0 ∧
      r'.Fits rt rvs (es ++ [.request i (.notification fromAtSign value)]) ∧
        r.Turned (.notification fromAtSign value) r' := by
    intro hsame
    obtain ⟨rfl, rfl⟩ := Prod.mk.inj hsame
    exact ⟨rfl, hr.later _, Request.turned_self _ nofun⟩
  unfold Request.receive at h
  split at h
  · rename_i hfirst
    obtain ⟨hnone, rfl⟩ := hfirst
    have hnone := Option.isNone_iff_eq_none.mp hnone
    cases value with
    | none => exact hself h
    | some value =>
      obtain ⟨fields, hfields⟩ := Option.isSome_iff_exists.mp (hfit value hnone rfl rfl)
      simp only [hfields, Prod.mk.injEq] at h
      obtain ⟨rfl, rfl⟩ := h
      refine ⟨rfl, ⟨hr.candidate, ?_, rfl, hr.timedOut⟩, rfl, fun _ => rfl, fun hended hended' => ?_⟩
      · intro fields' hf
        obtain rfl := Option.some.inj hf
        exact ⟨i, value, List.mem_append_right es List.mem_cons_self, hfields⟩
      · -- the request ends at its answer where `notify` has returned, not before
        cases hn : r.notify with
        | sending =>
          simp only [Request.ended, hn] at hended'
          cases hended'
        | threw =>
          simp only [Request.ended, hn] at hended
          cases hended
        | sent => exact Or.inl ⟨by simp only [Request.ipInfo, hn, hnone], by simp only [Request.ipInfo, Option.isSome_some]⟩
  · exact hself h

theorem Request.turn_spec (hr : r.Fits rt rvs es) (h : r.turn rt e = some (r', errors))
    (hfit : ∀ value, r.completer = none → e = .notification r.rv (some value) → (discoverFields rt value).isSome) :
    errors = 0 ∧ r'.Fits rt rvs (es ++ [.request i e]) ∧ r.Turned e r' := by
  cases e with
  | notification fromAtSign value =>
    obtain ⟨-, hreceive⟩ := of_guarded h
    apply Request.turn_notification hr _ hreceive.symm
    rintro text hnone rfl rfl
    exact hfit text hnone rfl
  | notifyReturned =>
    obtain ⟨hsending, hturn⟩ := of_guarded h
    obtain ⟨rfl, rfl⟩ := Prod.mk.inj hturn
    -- the timeout is attached once `notify` has returned
    have hwaiting : r.timedOut = false := by
      rw [← Bool.not_eq_true]
      intro htimed
      rw [hr.timedOut htimed] at hsending
      cases hsending
    refine ⟨rfl, ⟨hr.candidate, (hr.later _).answered, hr.listening, fun _ => rfl⟩, rfl, ?_, fun _ hended => Or.inl ?_⟩
    · rintro (hover | hover)
      · exact hover
      · cases hover
    · simp only [Request.ended, hwaiting, Bool.or_false] at hended
      exact ⟨by simp only [Request.ipInfo, hsending], hended⟩
  | notifyThrew =>
    obtain ⟨hsending, hturn⟩ := of_guarded h
    obtain ⟨rfl, rfl⟩ := Prod.mk.inj hturn
    refine ⟨rfl, ⟨hr.candidate, (hr.later _).answered, hr.listening, fun htimed => ?_⟩, rfl, ?_,
      fun _ _ => Or.inr (Or.inl rfl)⟩
    · rw [hr.timedOut htimed] at hsending
      cases hsending
    · rintro (hover | hover)
      · exact hover
      · cases hover
  | timeout =>
    obtain ⟨hwaiting, hturn⟩ := of_guarded h
    obtain ⟨rfl, rfl⟩ := Prod.mk.inj hturn
    have hover : ({ r with timedOut := true, listening := false } : Request).isOver = true := by
      simp only [Request.isOver, Bool.or_true]
    refine ⟨rfl, ⟨hr.candidate, (hr.later _).answered, ?_, fun _ => hwaiting.1⟩, rfl, fun _ => hover,
      fun _ _ => Or.inr (Or.inr rfl)⟩
    rw [hover]
    rfl

end

/-! The daemon's request -/

structure DeviceRequest.Fits (rt : Runtime) (es : List Event) (d : DeviceRequest) : Prop where
  reported : ∀ latencies, d.completer = some (some latencies) → Reported rt es latencies
  latency : ∀ latencies, d.latency = some (some latencies) → d.completer = some (some latencies)
  listening : d.listening = !d.isOver
  settled : d.latency = none → d.fetched = none
  timedOut : d.timedOut = true → d.latency.isSome

theorem DeviceRequest.Fits.later {rt : Runtime} {es : List Event} {d : DeviceRequest} (h : d.Fits rt es)
    (e : Event) : d.Fits rt (es ++ [e]) :=
  ⟨fun latencies hc => (h.reported latencies hc).later e, h.latency, h.listening, h.settled, h.timedOut⟩

theorem DeviceRequest.Fits.quiet_iff {rt : Runtime} {es : List Event} {d : DeviceRequest} (h : d.Fits rt es) :
    d.listening = false ↔ d.isOver = true := by
  rw [h.listening, Bool.not_eq_false']

/-- What one event does to the daemon's request. -/
structure DeviceRequest.Turned (rt : Runtime) (d : DeviceRequest) (e : DeviceEvent) (d' : DeviceRequest) : Prop where
  latency : ∀ latencies, d.latency = some latencies → d'.latency = some latencies
  isOver : d.isOver → d'.isOver
  settles : d.latency = none → d'.latency.isSome → d.Settles rt e ∧
    ∀ fromAtSign value, e = .notification fromAtSign value → d'.isOver

section
variable {rt : Runtime} {es : List Event} {d d' : DeviceRequest} {e : DeviceEvent} {errors : ℕ}

theorem DeviceRequest.settle_latency {latencies : Option Latencies} (h : d.latency = some latencies) :
    d.settle.latency = some latencies := by
  rw [settle, h]
  rfl

theorem DeviceRequest.settle_latency_none (h : d.latency = none) : d.settle.latency = d.fetched := by
  rw [settle, h]
  rfl

theorem DeviceRequest.fetched_isSome (h : d.settle.latency.isSome) (hl : d.latency = none) : d.fetched.isSome := by
  rwa [settle_latency_none hl] at h

theorem DeviceRequest.settle_eq_self (h : d.latency = none → d.fetched = none) : d.settle = d := by
  obtain ⟨notify, completer, timedOut, listening, latency⟩ := d
  cases latency with
  | some latency => rfl
  | none =>
    have hfetched := h rfl
    simp only [settle, hfetched]
    rfl

/-- What has been fetched is settled with, unless the wait is over. -/
theorem DeviceRequest.settle_fits (hr : ∀ latencies, d.completer = some (some latencies) → Reported rt es latencies)
    (hlatency : ∀ latencies, d.latency = some (some latencies) → d.completer = some (some latencies))
    (hlistening : d.listening = !d.isOver) (htimedOut : d.timedOut = true → d.latency.isSome) : d.settle.Fits rt es where
  reported := hr
  latency latencies h := by
    cases hl : d.latency with
    | some l =>
      rw [settle_latency hl] at h
      exact hlatency latencies (hl.trans h)
    | none =>
      rw [settle_latency_none hl, fetched] at h
      cases hn : d.notify with
      | sending =>
        rw [hn] at h
        cases h
      | threw =>
        rw [hn] at h
        cases h
      | sent =>
        rw [hn] at h
        cases hc : d.completer with
        | some c =>
          rw [hc] at h
          exact hc.trans h
        | none =>
          rw [hc] at h
          change (if d.timedOut = true then some none else none) = _ at h
          split at h <;> cases h
  listening := hlistening
  settled h := by
    cases hl : d.latency with
    | some l =>
      rw [settle_latency hl] at h
      cases h
    | none =>
      rw [settle_latency_none hl] at h
      exact h
  timedOut h := by
    obtain ⟨l, hl⟩ := Option.isSome_iff_exists.mp (htimedOut h)
    rw [settle_latency hl]
    rfl

theorem DeviceRequest.turned_self : d.Turned rt e d where
  latency _ h := h
  isOver h := h
  settles h h' := by
    rw [h] at h'
    cases h'

theorem DeviceRequest.turn_notification {fromAtSign : String} {value : Option String} (hd : d.Fits rt es)
    (hfit : d.completer = none → d.notify ≠ .sent → fromAtSign = rt.sshnpdAtSign → (decodeLatencies rt value).isSome)
    (h : d.receive rt fromAtSign value = (d', errors)) :
    errors = 0 ∧ d'.settle.Fits rt (es ++ [.device (.notification fromAtSign value)]) ∧
      d.Turned rt (.notification fromAtSign value) d'.settle := by
  unfold receive at h
  split at h
  · rename_i hfirst
    obtain ⟨rfl, hnone⟩ := hfirst
    have hnone := Option.isNone_iff_eq_none.mp hnone
    obtain ⟨rfl, rfl⟩ := Prod.mk.inj h
    refine ⟨if_neg ?_, settle_fits ?_ ?_ rfl hd.timedOut, fun l hl => settle_latency hl, fun _ => rfl, fun hl hsome => ?_⟩
    · rintro ⟨hmalformed, hn⟩
      have hsome := hfit hnone hn rfl
      rw [Option.isNone_iff_eq_none.mp hmalformed] at hsome
      cases hsome
    · intro latencies hl
      exact ⟨value, List.mem_append_right es List.mem_cons_self, Option.some.inj hl⟩
    · intro latencies hl
      have hc := hd.latency latencies hl
      rw [hnone] at hc
      cases hc
    · refine ⟨⟨rfl, hnone, ?_⟩, fun _ _ _ => rfl⟩
      have hfetched := fetched_isSome hsome hl
      cases hn : d.notify with
      | sending =>
        simp only [fetched, hn] at hfetched
        cases hfetched
      | threw =>
        -- the selection would have stopped waiting
        have hbefore := hd.settled hl
        simp only [fetched, hn] at hbefore
        cases hbefore
      | sent => rfl
  · obtain ⟨rfl, rfl⟩ := Prod.mk.inj h
    rw [settle_eq_self hd.settled]
    exact ⟨rfl, hd.later _, turned_self⟩

theorem DeviceRequest.turn_spec (hd : d.Fits rt es) (h : d.turn rt e = some (d', errors))
    (hfit : ∀ value, d.completer = none → d.notify ≠ .sent → e = .notification rt.sshnpdAtSign value →
      (decodeLatencies rt value).isSome) :
    errors = 0 ∧ d'.settle.Fits rt (es ++ [.device e]) ∧ d.Turned rt e d'.settle := by
  have hlater := hd.later (.device e)
  cases e with
  | notification fromAtSign value =>
    obtain ⟨-, hreceive⟩ := of_guarded h
    apply DeviceRequest.turn_notification hd _ hreceive.symm
    rintro hnone hn rfl
    exact hfit value hnone hn rfl
  | notifyReturned =>
    obtain ⟨hsending, hturn⟩ := of_guarded h
    obtain ⟨rfl, rfl⟩ := Prod.mk.inj hturn
    refine ⟨rfl, settle_fits hlater.reported hlater.latency hlater.listening hlater.timedOut,
      fun l hl => settle_latency hl, id, fun hl hsome => ⟨?_, nofun⟩⟩
    have hfetched := fetched_isSome hsome hl
    simp only [Settles]
    cases hc : d.completer with
    | some c => rfl
    | none =>
      -- the wait can't have timed out before it began
      have hwaiting : d.timedOut = false := by
        rw [← Bool.not_eq_true]
        intro htimed
        have hsome := hd.timedOut htimed
        rw [hl] at hsome
        cases hsome
      simp only [fetched, hc, hwaiting] at hfetched
      cases hfetched
  | notifyThrew =>
    obtain ⟨hsending, hturn⟩ := of_guarded h
    obtain ⟨rfl, rfl⟩ := Prod.mk.inj hturn
    exact ⟨rfl, settle_fits hlater.reported hlater.latency hlater.listening hlater.timedOut,
      fun l hl => settle_latency hl, id, fun _ _ => ⟨trivial, nofun⟩⟩
  | timeout =>
    obtain ⟨⟨-, -, -, hsome⟩, hturn⟩ := of_guarded h
    obtain ⟨rfl, rfl⟩ := Prod.mk.inj hturn
    have hover : ({ d with timedOut := true, listening := false } : DeviceRequest).isOver = true := by
      simp only [isOver, Bool.or_true]
    refine ⟨rfl, settle_fits hlater.reported hlater.latency ?_ fun _ => hsome,
      fun l hl => settle_latency hl, fun _ => hover, fun hl _ => ?_⟩
    · rw [hover]
      rfl
    · rw [hl] at hsome
      cases hsome
  | deviceLatencyTimeout =>
    obtain ⟨hnone, hturn⟩ := of_guarded h
    obtain ⟨rfl, rfl⟩ := Prod.mk.inj hturn
    refine ⟨rfl, settle_fits hlater.reported nofun hlater.listening fun _ => rfl, fun l hl => ?_, id,
      fun _ _ => ⟨trivial, nofun⟩⟩
    rw [hl] at hnone
    cases hnone

end

/-! The selection -/

/-- What is known of a state, whatever the result is. -/
structure Known (rt : Runtime) (rvs : List String) (es : List Event) (s : State) : Prop where
  uncaught : s.uncaught = 0
  requests : ∀ r ∈ s.requests, r.Fits rt rvs es
  rvIpMap : ∀ rv fields, s.rvIpMap.get? rv = some fields → rv ∈ rvs ∧ Answered rt es rv fields
  device : ∀ d, s.device = some d → d.Fits rt es
  latencies : ∀ m, s.clientLatency = some m → ∀ rv n, m.latencies.get? rv = some n →
    ∃ fields, s.rvIpMap.get? rv = some fields
  thrown : ∀ m, s.clientLatency = some m → m.thrown = none ∨ ∀ rv, ¬Reached m.latencies rv
  idle : s.device = none → s.clientLatency = none
  selected : s.result.isSome → s.device.isSome → s.clientLatency.isSome

/-- What the selection waits for while it has no result. -/
structure Waiting (s : State) : Prop where
  requests : s.device = none → s.result = none → s.requests.all Request.ended = false
  latencies : s.result = none → ∀ m d, s.clientLatency = some m → s.device = some d → m.thrown = none ∧ d.latency = none

structure Invariant (rt : Runtime) (rvs : List String) (es : List Event) (s : State) : Prop where
  known : Known rt rvs es s
  waiting : Waiting s
  sound : Sound rt rvs es s

section
variable {rt : Runtime} {rvs : List String} {es : List Event} {s t : State}

theorem Known.answered_later (hk : Known rt rvs es s) (e : Event) (rv : String) (fields : Fields)
    (h : s.rvIpMap.get? rv = some fields) : rv ∈ rvs ∧ Answered rt (es ++ [e]) rv fields :=
  ⟨(hk.rvIpMap rv fields h).1, (hk.rvIpMap rv fields h).2.later e⟩

theorem sound_of_pending (huncaught : s.uncaught = 0) (hresult : s.result = none) : Sound rt rvs es s where
  uncaught := huncaught
  chosen rv h := by
    rw [hresult] at h
    cases h
  thrown e h := by
    rw [hresult] at h
    cases h
  quiet h := by
    rw [hresult] at h
    cases h

/-- A step that changes neither the result nor what it was made of. -/
theorem Sound.keep (hs : Sound rt rvs es s) (e : Event) (huncaught : t.uncaught = 0) (hresult : t.result = s.result)
    (hclient : t.clientLatency = s.clientLatency) (htime : ∀ latencies, s.InTime latencies → t.InTime latencies)
    (hquiet : s.Quiet → t.Quiet) : Sound rt rvs (es ++ [e]) t := by
  have hreached : ∀ rv, t.ReachedByClient rv ↔ s.ReachedByClient rv := by
    intro rv
    rw [State.ReachedByClient, State.ReachedByClient, hclient]
  refine ⟨huncaught, fun rv h => ?_, fun f h => ?_, fun h => ?_⟩
  · obtain ⟨hrv, ⟨fields, hanswered⟩, hclient⟩ := hs.chosen rv (hresult ▸ h)
    exact ⟨hrv, ⟨fields, hanswered.later e⟩, (hreached rv).mpr hclient⟩
  · rcases hs.thrown f (hresult ▸ h) with hnone | ⟨latencies, htimely, hreported, hnone⟩
    · exact Or.inl fun rv hrv hr => hnone rv hrv ((hreached rv).mp hr)
    · refine Or.inr ⟨latencies, htime latencies htimely, hreported.later e, fun rv hrv hr => ?_⟩
      exact hnone rv hrv ⟨(hreached rv).mp hr.1, hr.2⟩
  · exact hquiet (hs.quiet (hresult ▸ h))

/-! Once every request has ended -/

theorem State.discovered_cases (s : State) :
    s.discovered = s ∧ (s.device = none → s.result = none → s.requests.all Request.ended = false) ∨
      s.device = none ∧ s.result = none ∧ s.requests.all Request.ended ∧
        (s.rvIpMap.entries = [] ∧
            s.discovered = { s with result := some (.error (.stateError "No RV servers could be resolved")) } ∨
          s.discovered = { s with device := some fetchDeviceLatencies }) := by
  unfold discovered
  split
  · rename_i h
    obtain ⟨hdevice, hresult, hended⟩ := h
    refine Or.inr ⟨Option.isNone_iff_eq_none.mp hdevice, Option.isNone_iff_eq_none.mp hresult, hended, ?_⟩
    split
    · rename_i hempty
      exact Or.inl ⟨List.isEmpty_iff.mp hempty, rfl⟩
    · exact Or.inr rfl
  · rename_i h
    refine Or.inl ⟨rfl, fun hdevice hresult => ?_⟩
    rw [hdevice, hresult] at h
    rw [← Bool.not_eq_true]
    exact fun hended => h ⟨rfl, rfl, hended⟩

theorem discovered_invariant (hk : Known rt rvs es s) (hs : Sound rt rvs es s)
    (hlatencies : s.result = none → ∀ m d, s.clientLatency = some m → s.device = some d →
      m.thrown = none ∧ d.latency = none)
    (hquiet : s.device = none → s.result = none → s.requests.all Request.ended → s.rvIpMap.entries = [] → s.Quiet) :
    Invariant rt rvs es s.discovered := by
  rcases s.discovered_cases with ⟨hsame, hrequests⟩ | ⟨hdevice, hresult, hended, ⟨hempty, hthrow⟩ | hfetch⟩
  · rw [hsame]
    exact ⟨hk, ⟨hrequests, hlatencies⟩, hs⟩
  · rw [hthrow]
    refine ⟨⟨hk.uncaught, hk.requests, hk.rvIpMap, hk.device, hk.latencies, hk.thrown, hk.idle, fun _ hsome => ?_⟩,
      ⟨fun _ => nofun, nofun⟩, hk.uncaught, nofun, fun e _ => Or.inl ?_,
      fun _ => hquiet hdevice hresult hended hempty⟩
    · rw [hdevice] at hsome
      cases hsome
    · rintro rv - ⟨m, hm, -⟩
      rw [show s.clientLatency = none from hk.idle hdevice] at hm
      cases hm
  · rw [hfetch]
    have hclient := hk.idle hdevice
    refine ⟨⟨hk.uncaught, hk.requests, hk.rvIpMap, fun d hd => ?_, hk.latencies, hk.thrown, nofun, fun hsome => ?_⟩,
      ⟨nofun, fun _ m d hm => ?_⟩, sound_of_pending hk.uncaught hresult⟩
    · obtain rfl := Option.some.inj hd
      exact ⟨nofun, nofun, rfl, fun _ => rfl, nofun⟩
    · rw [show s.result = none from hresult] at hsome
      cases hsome
    · rw [show s.clientLatency = none from hclient] at hm
      cases hm

/-! Once both latencies have come -/

theorem State.select_cases (rt : Runtime) (s : State) :
    s.select rt = s ∧ (s.result = none → ∀ m d, s.clientLatency = some m → s.device = some d →
        m.thrown = none ∧ d.latency = none) ∨
      s.result = none ∧ ∃ m d result, s.clientLatency = some m ∧ s.device = some d ∧
        (m.thrown.isSome ∨ d.latency.isSome) ∧ s.select rt = { s with result := some result } ∧
          ((∃ e, m.thrown = some e ∧ result = .error e) ∨
            d.latency = some none ∧ result = lowestLatency rt m.latencies ∨
              ∃ l, d.latency = some (some l) ∧ result = lowestAverageLatency rt l m.latencies) := by
  unfold select
  split
  · rename_i m d hresult hm hd
    rw [hresult, hm, hd]
    split
    · rename_i e he
      exact Or.inr ⟨rfl, m, d, _, rfl, rfl, Or.inl (by rw [he]; rfl), rfl, Or.inl ⟨e, he, rfl⟩⟩
    · rename_i hthrown hlatency
      refine Or.inl ⟨rfl, fun _ m' d' hm' hd' => ?_⟩
      obtain rfl := Option.some.inj hm'
      obtain rfl := Option.some.inj hd'
      exact ⟨hthrown, hlatency⟩
    · rename_i _ hlatency
      exact Or.inr ⟨rfl, m, d, _, rfl, rfl, Or.inr (by rw [hlatency]; rfl), rfl, Or.inr (Or.inl ⟨hlatency, rfl⟩)⟩
    · rename_i l _ hlatency
      exact Or.inr ⟨rfl, m, d, _, rfl, rfl, Or.inr (by rw [hlatency]; rfl), rfl,
        Or.inr (Or.inr ⟨l, hlatency, rfl⟩)⟩
  · rename_i hnot
    refine Or.inl ⟨rfl, fun hresult m d hm hd => ?_⟩
    exact absurd hd (hnot m d hresult hm)

theorem select_invariant (hrt : ∀ rv ∈ rvs, rt.toAtsign rv = .ok rv) (hk : Known rt rvs es s)
    (hs : Sound rt rvs es s) (hdevice : s.device.isSome)
    (hquiet : ∀ m d, s.result = none → s.clientLatency = some m → s.device = some d →
      m.thrown.isSome ∨ d.latency.isSome → s.Quiet) : Invariant rt rvs es (s.select rt) := by
  have hsome : s.device ≠ none := Option.isSome_iff_ne_none.mp hdevice
  rcases s.select_cases rt with ⟨hsame, hlatencies⟩ | ⟨hresult, m, d, result, hm, hd, hends, hselect, hof⟩
  · rw [hsame]
    exact ⟨hk, ⟨fun hnone => absurd hnone hsome, hlatencies⟩, hs⟩
  rw [hselect]
  have hknown : ∀ rv n, m.latencies.get? rv = some n → rv ∈ rvs ∧ ∃ fields, Answered rt es rv fields := by
    intro rv n hn
    obtain ⟨fields, hfields⟩ := hk.latencies m hm rv n hn
    obtain ⟨hrv, hanswered⟩ := hk.rvIpMap rv fields hfields
    exact ⟨hrv, fields, hanswered⟩
  have hatsign : ∀ rv n, m.latencies.get? rv = some n → rt.toAtsign rv = .ok rv := by
    intro rv n hn
    exact hrt rv (hknown rv n hn).1
  have hchosen : ∀ rv n, m.latencies.get? rv = some n → n ≠ -1 →
      rv ∈ rvs ∧ (∃ fields, Answered rt es rv fields) ∧ s.ReachedByClient rv := by
    intro rv n hn hne
    obtain ⟨hrv, hanswered⟩ := hknown rv n hn
    exact ⟨hrv, hanswered, m, hm, n, hn, hne⟩
  -- what the client reached is in `m`
  have hreached : ∀ rv, s.ReachedByClient rv → Reached m.latencies rv := by
    rintro rv ⟨m', hm', hr⟩
    obtain rfl := Option.some.inj (hm.symm.trans hm')
    exact hr
  refine ⟨⟨hk.uncaught, hk.requests, hk.rvIpMap, hk.device, hk.latencies, hk.thrown, hk.idle, fun _ _ => ?_⟩,
    ⟨fun hnone => absurd hnone hsome, nofun⟩, hk.uncaught, fun rv h => ?_, fun e h => ?_,
    fun _ => hquiet m d hresult hm hd hends⟩
  · simp only [hm, Option.isSome_some]
  · obtain rfl := Option.some.inj h
    rcases hof with ⟨e, -, he⟩ | ⟨-, hlow⟩ | ⟨l, -, hlow⟩
    · cases he
    · obtain ⟨n, hn, hne, -⟩ := lowestLatency_ok hatsign hlow.symm
      exact hchosen rv n hn hne
    · obtain ⟨_, n, -, hn, -, hne, -⟩ := lowestAverageLatency_ok hatsign hlow.symm
      exact hchosen rv n hn hne
  · obtain rfl := Option.some.inj h
    rcases hof with ⟨f, hf, -⟩ | ⟨-, hlow⟩ | ⟨l, hl, hlow⟩
    · rcases hk.thrown m hm with hnone | hnone
      · rw [hf] at hnone
        cases hnone
      · exact Or.inl fun rv _ hr => hnone rv (hreached rv hr)
    · exact Or.inl fun rv _ hr => lowestLatency_error hatsign hlow.symm rv (hreached rv hr)
    · have hfits := hk.device d hd
      refine Or.inr ⟨l, ⟨d, hd, hl⟩, hfits.reported l (hfits.latency l hl), fun rv _ hr => ?_⟩
      exact lowestAverageLatency_error hatsign hlow.symm rv ⟨hreached rv hr.1, hr.2⟩

/-! The steps -/

theorem Request.ipInfo_completer {r : Request} {fields : Fields} (h : r.ipInfo = some fields) :
    r.completer = some fields := by
  unfold ipInfo at h
  split at h
  · exact h
  · cases h

/-- Request `i` and nothing else, unless it has returned an address. -/
theorem State.setRequest_cases (s : State) (i : ℕ) (r r' : Request) :
    s.setRequest i r r' = { s with requests := s.requests.set i r' } ∧ (r.ipInfo = none → r'.ipInfo = none) ∨
      ∃ fields, r'.ipInfo = some fields ∧
        s.setRequest i r r' = { s with requests := s.requests.set i r', rvIpMap := s.rvIpMap.set r.rv fields } := by
  unfold setRequest
  split
  · rename_i fields _ hfields
    exact Or.inr ⟨fields, hfields, rfl⟩
  · rename_i hnot
    refine Or.inl ⟨rfl, fun hnone => ?_⟩
    cases hinfo : r'.ipInfo with
    | none => rfl
    | some fields => exact absurd hinfo (hnot fields hnone)

theorem set_entries_ne_nil {κ α : Type*} [DecidableEq κ] (t : Table κ α) (k : κ) (a : α) : (t.set k a).entries ≠ [] := by
  apply List.ne_nil_of_mem
  apply Table.mem_entries_iff.mpr
  rw [Table.get?_set, if_pos rfl]

theorem request_invariant {i : ℕ} {e : RequestEvent} (hi : Invariant rt rvs es s) (hfit : Fit rt s (.request i e))
    (h : step rt s (.request i e) = some t) : Invariant rt rvs (es ++ [.request i e]) t := by
  obtain ⟨r, hr, h⟩ := Option.bind_eq_some_iff.mp h
  obtain ⟨⟨r', errors⟩, hturn, h⟩ := Option.bind_eq_some_iff.mp h
  obtain rfl := Option.some.inj h
  have hk := hi.known
  have hfits := hk.requests r (List.mem_of_getElem? hr)
  obtain ⟨rfl, hfits', hturned⟩ := Request.turn_spec hfits hturn fun value hnone he =>
    hfit.discover i r value hr hnone (by rw [he])
  have hrequests : ∀ x ∈ s.requests.set i r', x.Fits rt rvs (es ++ [.request i e]) := by
    intro x hx
    rcases List.mem_or_eq_of_mem_set hx with hmem | rfl
    · exact (hk.requests x hmem).later _
    · exact hfits'
  have hdevice : ∀ d, s.device = some d → d.Fits rt (es ++ [.request i e]) := fun d hd => (hk.device d hd).later _
  -- a request that listened no more still doesn't
  have hstill : s.Quiet → ∀ x ∈ s.requests.set i r', x.listening = false := by
    intro hq x hx
    rcases List.mem_or_eq_of_mem_set hx with hmem | rfl
    · exact hq.1 x hmem
    · have hover := hfits.quiet_iff.mp (hq.1 r (List.mem_of_getElem? hr))
      exact hfits'.quiet_iff.mpr (hturned.isOver (Or.inl hover))
  -- the last request to end without an address ends the selection, where there is none
  have hlast : s.device = none → s.result = none → (s.requests.set i r').all Request.ended →
      s.rvIpMap.entries = [] → (r.ipInfo = none → r'.ipInfo = none) → ∀ x ∈ s.requests.set i r', x.listening = false := by
    intro hd hres hended hempty hnone
    have hothers : ∀ j x, s.requests[j]? = some x → j ≠ i → x.ended = true := by
      intro j x hx hj
      apply List.all_eq_true.mp hended
      apply List.mem_of_getElem?
      rw [List.getElem?_set_ne (Ne.symm hj), hx]
    have hmem : r' ∈ s.requests.set i r' := by
      apply List.mem_set
      exact (List.getElem?_eq_some_iff.mp hr).1
    have hbefore : r.ended = false := by
      rw [← Bool.not_eq_true]
      intro hrended
      have hall := hi.waiting.requests hd hres
      rw [← Bool.not_eq_true] at hall
      apply hall
      apply List.all_eq_true.mpr
      intro x hx
      obtain ⟨j, hj⟩ := List.getElem?_of_mem hx
      by_cases hji : j = i
      · subst hji
        rw [Option.some.inj (hj.symm.trans hr)]
        exact hrended
      · exact hothers j x hj hji
    have hends : Ends rt s (.request i e) := by
      refine ⟨hempty, hothers, ?_⟩
      rcases hturned.ended hbefore (List.all_eq_true.mp hended r' hmem) with ⟨hinfo, hsome⟩ | rfl | rfl
      · rw [hnone hinfo] at hsome
        cases hsome
      · trivial
      · trivial
    obtain ⟨hover, -⟩ := hfit.isOver hres hends
    intro x hx
    apply (hrequests x hx).quiet_iff.mpr
    obtain ⟨j, hj⟩ := List.getElem?_of_mem hx
    rcases getElem?_set_cases hj with ⟨-, rfl⟩ | ⟨hji, hj⟩
    · apply hturned.isOver
      rcases hover i r hr with hrover | he
      · exact Or.inl hrover
      · injection he with _ he
        exact Or.inr he
    · rcases hover j x hj with hxover | he
      · exact hxover
      · injection he with hij
        exact absurd hij.symm hji
  rcases s.setRequest_cases i r r' with ⟨hset, hnone⟩ | ⟨fields, hinfo, hset⟩
  · rw [hset]
    apply discovered_invariant
    · exact ⟨hk.uncaught, hrequests, hk.answered_later _,
        hdevice, hk.latencies, hk.thrown, hk.idle, hk.selected⟩
    · exact hi.sound.keep _ hk.uncaught rfl rfl (fun _ => id) fun hq => ⟨hstill hq, hq.2⟩
    · exact hi.waiting.latencies
    · intro hd hres hended hempty
      refine ⟨hlast hd hres hended hempty hnone, fun d hd' => ?_⟩
      rw [show s.device = none from hd] at hd'
      cases hd'
  · rw [hset]
    have hanswered := hfits'.answered fields (Request.ipInfo_completer hinfo)
    apply discovered_invariant
    · refine ⟨hk.uncaught, hrequests, fun rv fields' hf => ?_, hdevice, fun m hm rv n hn => ?_, hk.thrown, hk.idle,
        hk.selected⟩
      · simp only [Table.get?_set] at hf
        split at hf
        · rename_i hrv
          obtain rfl := Option.some.inj hf
          subst hrv
          exact ⟨hfits.candidate, hturned.rv ▸ hanswered⟩
        · exact hk.answered_later _ rv fields' hf
      · simp only [Table.get?_set]
        split
        · exact ⟨fields, rfl⟩
        · exact hk.latencies m hm rv n hn
    · exact hi.sound.keep _ hk.uncaught rfl rfl (fun _ => id) fun hq => ⟨hstill hq, hq.2⟩
    · exact hi.waiting.latencies
    · intro _ _ _ hempty
      exact absurd hempty (set_entries_ne_nil s.rvIpMap r.rv fields)

theorem device_invariant {e : DeviceEvent} (hrt : ∀ rv ∈ rvs, rt.toAtsign rv = .ok rv) (hi : Invariant rt rvs es s)
    (hfit : Fit rt s (.device e)) (h : step rt s (.device e) = some t) : Invariant rt rvs (es ++ [.device e]) t := by
  obtain ⟨d, hd, h⟩ := Option.bind_eq_some_iff.mp h
  obtain ⟨⟨d', errors⟩, hturn, h⟩ := Option.bind_eq_some_iff.mp h
  obtain rfl := Option.some.inj h
  have hk := hi.known
  have hfits := hk.device d hd
  obtain ⟨rfl, hfits', hturned⟩ := DeviceRequest.turn_spec hfits hturn fun value hnone hn he =>
    hfit.report d value hd hnone hn (by rw [he])
  apply select_invariant hrt
  · refine ⟨hk.uncaught, fun r hr => (hk.requests r hr).later _,
      hk.answered_later _, fun x hx => ?_,
      hk.latencies, hk.thrown, nofun, fun hresult _ => hk.selected hresult (by rw [hd]; rfl)⟩
    obtain rfl := Option.some.inj hx
    exact hfits'
  · refine hi.sound.keep _ hk.uncaught rfl rfl ?_ ?_
    · rintro latencies ⟨x, hx, hlatency⟩
      obtain rfl := Option.some.inj (hd.symm.trans hx)
      exact ⟨d'.settle, rfl, hturned.latency _ hlatency⟩
    · intro hq
      refine ⟨hq.1, fun x hx => ?_⟩
      obtain rfl := Option.some.inj hx
      apply hfits'.quiet_iff.mpr
      apply hturned.isOver
      exact hfits.quiet_iff.mp (hq.2 d hd)
  · rfl
  · intro m x hres hm hx hends
    obtain rfl := Option.some.inj hx
    obtain ⟨hthrown, hlatency⟩ := hi.waiting.latencies hres m d hm hd
    have hsome : d'.settle.latency.isSome := by
      rcases hends with hsome | hsome
      · rw [hthrown] at hsome
        cases hsome
      · exact hsome
    obtain ⟨hsettles, hanswer⟩ := hturned.settles hlatency hsome
    obtain ⟨hrequests, hdevice⟩ := hfit.isOver hres ⟨by rw [show s.clientLatency = some m from hm]; rfl, d, hd, hlatency, hsettles⟩
    refine ⟨fun r hr => ?_, fun x hx => ?_⟩
    · obtain ⟨j, hj⟩ := List.getElem?_of_mem hr
      rcases hrequests j r hj with hover | he
      · exact (hk.requests r hr).quiet_iff.mpr hover
      · cases he
    · obtain rfl := Option.some.inj hx
      apply hfits'.quiet_iff.mpr
      rcases hdevice d hd with hover | ⟨fromAtSign, value, he⟩
      · exact hturned.isOver hover
      · injection he with he
        exact hanswer fromAtSign value he

theorem measured_invariant {order : List String} {probe : String → Option ℕ} (hrt : ∀ rv ∈ rvs, rt.toAtsign rv = .ok rv)
    (hi : Invariant rt rvs es s) (hfit : Fit rt s (.measured order probe)) (h : step rt s (.measured order probe) = some t) :
    Invariant rt rvs (es ++ [.measured order probe]) t := by
  obtain ⟨⟨hdevice, hclient, horder⟩, rfl⟩ := of_guarded h
  have hk := hi.known
  -- a selection that has ended had measured before
  have hnone : s.result = none := by
    cases hres : s.result with
    | none => rfl
    | some result =>
      have hsome := hk.selected (by rw [hres]; rfl) hdevice
      rw [Option.isNone_iff_eq_none.mp hclient] at hsome
      cases hsome
  have hquiet : Ends rt s (.measured order probe) → s.Quiet := by
    intro hends
    obtain ⟨hrequests, hover⟩ := hfit.isOver hnone hends
    refine ⟨fun r hr => ?_, fun d hd => ?_⟩
    · obtain ⟨j, hj⟩ := List.getElem?_of_mem hr
      rcases hrequests j r hj with hrover | he
      · exact (hk.requests r hr).quiet_iff.mpr hrover
      · cases he
    · rcases hover d hd with hdover | ⟨fromAtSign, value, he⟩
      · exact (hk.device d hd).quiet_iff.mpr hdover
      · cases he
  apply select_invariant hrt
  · refine ⟨hk.uncaught, fun r hr => (hk.requests r hr).later _,
      hk.answered_later _,
      fun d hd => (hk.device d hd).later _, fun m hm rv n hn => ?_, fun m hm => ?_, fun hno => ?_, fun _ _ => rfl⟩
    · obtain rfl := Option.some.inj hm
      obtain ⟨-, addr, haddr, -⟩ := get?_measureLatencies.mp hn
      exact ⟨addr, haddr⟩
    · obtain rfl := Option.some.inj hm
      -- an address that can't be read spoils the measurements only where a relay can be reached
      rcases hfit.readable order probe rfl with hreadable | hunreached
      · left
        cases hthrown : (measureLatencies s.rvIpMap order probe).thrown with
        | none => rfl
        | some e =>
          obtain ⟨rv, -, addr, haddr, hnot⟩ := measureLatencies_thrown hthrown
          exact absurd (hreadable rv addr haddr) hnot
      · right
        intro rv hreached
        obtain ⟨-, addr, haddr, hreaches⟩ := reached_measureLatencies.mp hreached
        exact hunreached rv addr haddr hreaches
    · rw [show s.device = none from hno] at hdevice
      cases hdevice
  · exact sound_of_pending hk.uncaught hnone
  · exact hdevice
  · intro m d _ hm hd hends
    obtain rfl := Option.some.inj hm
    apply hquiet
    rcases hends with hthrown | hlatency
    · obtain ⟨e, he⟩ := Option.isSome_iff_exists.mp hthrown
      obtain ⟨rv, -, addr, haddr, hnot⟩ := measureLatencies_thrown he
      exact Or.inl ⟨rv, addr, haddr, hnot⟩
    · exact Or.inr ⟨d, hd, hlatency⟩

theorem step_invariant {e : Event} (hrt : ∀ rv ∈ rvs, rt.toAtsign rv = .ok rv) (hi : Invariant rt rvs es s)
    (hfit : Fit rt s e) (h : step rt s e = some t) : Invariant rt rvs (es ++ [e]) t := by
  cases e with
  | request i e => exact request_invariant hi hfit h
  | device e => exact device_invariant hrt hi hfit h
  | measured order probe => exact measured_invariant hrt hi hfit h

theorem selectBestRelay_invariant (rt : Runtime) (rvs : List String) : Invariant rt rvs [] (selectBestRelay rvs) := by
  have hrequests : ∀ r ∈ rvs.map requestRelayIpAddress, r.Fits rt rvs [] ∧ r.ended = false := by
    intro r hr
    obtain ⟨rv, hrv, rfl⟩ := List.mem_map.mp hr
    exact ⟨⟨hrv, nofun, rfl, nofun⟩, rfl⟩
  apply discovered_invariant
  · exact ⟨rfl, fun r hr => (hrequests r hr).1, nofun, nofun, nofun, nofun, fun _ => rfl, nofun⟩
  · exact sound_of_pending rfl rfl
  · exact fun _ _ _ => nofun
  · intro _ _ hended _
    refine ⟨fun r hr => ?_, nofun⟩
    have hr' := List.all_eq_true.mp hended r hr
    rw [(hrequests r hr).2] at hr'
    cases hr'

theorem toCheck_ok {rvAtSigns : Option (List String)} {fetchStandardRelays : Except Thrown Fields}
    (hgiven : ∀ given, rvAtSigns = some given → ∀ rv ∈ given, rt.toAtsign rv = .ok rv)
    (htoAtsign : ∀ name rv, rt.toAtsign name = .ok rv → rt.toAtsign rv = .ok rv)
    (h : toCheck rt rvAtSigns fetchStandardRelays = .ok rvs) : ∀ rv ∈ rvs, rt.toAtsign rv = .ok rv := by
  unfold toCheck at h
  split at h
  · rename_i rv rest
    obtain rfl := Except.ok.inj h
    exact hgiven (rv :: rest) rfl
  · obtain ⟨standardRelaysRaw, -, h⟩ := bind_eq_ok.mp h
    split at h
    · cases h
    · intro rv hrv
      obtain ⟨entry, -, hentry⟩ := exists_of_mem_mapM h rv hrv
      exact htoAtsign entry.1 rv hentry

/-- No run whose steps all fit raises an error of its own, chooses a relay that is no candidate, hasn't answered or
can't be reached, throws where there is one to choose, or ends with a subscription left. -/
theorem selectBestRelay_sound {rvAtSigns : Option (List String)} {fetchStandardRelays : Except Thrown Fields}
    (hgiven : ∀ given, rvAtSigns = some given → ∀ rv ∈ given, rt.toAtsign rv = .ok rv)
    (htoAtsign : ∀ name rv, rt.toAtsign name = .ok rv → rt.toAtsign rv = .ok rv)
    (hcheck : toCheck rt rvAtSigns fetchStandardRelays = .ok rvs)
    (hfit : (machine rt).Meets (Fit rt) (selectBestRelay rvs) es)
    (hr : (machine rt).run (selectBestRelay rvs) es = some s) : Sound rt rvs es s := by
  have hrt := toCheck_ok hgiven htoAtsign hcheck
  have hinv : Invariant rt rvs es s :=
    (machine rt).run_induction_of_meets (selectBestRelay_invariant rt rvs)
      (fun _ _ _ _ _ hi hg hstep => step_invariant hrt hi hg hstep) hfit hr
  exact hinv.sound

end

/-! Steps that fit -/

section
variable {rt : Runtime} {s : State}

theorem fit_notifyReturned (rt : Runtime) (s : State) (i : ℕ) : Fit rt s (.request i .notifyReturned) :=
  ⟨nofun, nofun, nofun, fun _ hends => hends.2.2.elim⟩

/-- A relay's answer that is an object. -/
theorem fit_discover {i : ℕ} {fromAtSign value : String} (h : (discoverFields rt value).isSome) :
    Fit rt s (.request i (.notification fromAtSign (some value))) := by
  refine ⟨fun j r text _ _ he => ?_, nofun, nofun, fun _ hends => hends.2.2.elim⟩
  injection he with _ he
  injection he with _ he
  rwa [← Option.some.inj he]

theorem fit_device_notifyReturned (h : s.clientLatency = none) : Fit rt s (.device .notifyReturned) := by
  refine ⟨nofun, nofun, nofun, fun _ hends => ?_⟩
  have hmeasured := hends.1
  rw [h] at hmeasured
  cases hmeasured

/-- The daemon's latencies, before the client's. -/
theorem fit_report {fromAtSign : String} {value : Option String} (hvalue : (decodeLatencies rt value).isSome)
    (h : s.clientLatency = none) : Fit rt s (.device (.notification fromAtSign value)) := by
  refine ⟨nofun, fun d text _ _ _ he => ?_, nofun, fun _ hends => ?_⟩
  · injection he with he
    injection he with _ he
    rwa [← he]
  · have hmeasured := hends.1
    rw [h] at hmeasured
    cases hmeasured

/-- The client's latencies, with every relay's and the daemon's answer there. -/
theorem fit_measured {order : List String} {probe : String → Option ℕ}
    (hreadable : ∀ e ∈ s.rvIpMap.entries, Readable e.2) (hrequests : ∀ r ∈ s.requests, r.isOver)
    (hdevice : ∀ d, s.device = some d → d.isOver) : Fit rt s (.measured order probe) := by
  refine ⟨nofun, nofun, fun _ _ _ => Or.inl fun rv addr haddr => ?_, fun _ _ => ⟨fun j r hr => ?_, fun d hd => ?_⟩⟩
  · exact hreadable (rv, addr) (Table.mem_entries_iff.mpr haddr)
  · exact Or.inl (hrequests r (List.mem_of_getElem? hr))
  · exact Or.inl (hdevice d hd)

end

/-! Runs of one selection among two relays -/

def amAddress : String := "\x7b\"ipaddr\":\"192.0.2.1\",\"port\":443\x7d"

def euAddress : String := "\x7b\"ipaddr\":\"192.0.2.2\",\"port\":443\x7d"

def euAddressPortText : String := "\x7b\"ipaddr\":\"192.0.2.2\",\"port\":\"443\"\x7d"

def daemonReport : String := "\x7b\"@rv_am\":20,\"@rv_eu\":90\x7d"

def sampleRuntime : Runtime where
  sshnpdAtSign := "@daemon"
  jsonDecode value :=
    if value = amAddress then some (.obj [("ipaddr", .str "192.0.2.1"), ("port", .int 443)])
    else if value = euAddress then some (.obj [("ipaddr", .str "192.0.2.2"), ("port", .int 443)])
    else if value = euAddressPortText then some (.obj [("ipaddr", .str "192.0.2.2"), ("port", .str "443")])
    else if value = daemonReport then some (.obj [("@rv_am", .int 20), ("@rv_eu", .int 90)])
    else none
  toAtsign := .ok

def sampleRelays : List String := ["@rv_am", "@rv_eu"]

/-- Both relays answer, the second with `euAnswer`. -/
def discovery (euAnswer : String) : List Event :=
  [.request 0 .notifyReturned, .request 1 .notifyReturned, .request 0 (.notification "@rv_am" (some amAddress)),
    .request 1 (.notification "@rv_eu" (some euAnswer))]

/-- A run of the sample that is not sound. -/
def SampleUnsound (es : List Event) : Prop :=
  ∃ s, (machine sampleRuntime).run (selectBestRelay sampleRelays) es = some s ∧ ¬Sound sampleRuntime sampleRelays es s

/-- A relay's answer that is no JSON; the daemon's, before its `notify` has returned; a port that is a text; a silent
daemon; requests whose `notify` throws. -/
theorem selections_unsound :
    SampleUnsound [.request 0 (.notification "@rv_am" (some "not-valid-json"))] ∧
      SampleUnsound (discovery euAddress ++ [.device (.notification "@daemon" (some "not-valid-json"))]) ∧
      SampleUnsound (discovery euAddressPortText ++ [.measured sampleRelays fun _ => some 5]) ∧
      SampleUnsound (discovery euAddress ++ [.device .notifyReturned, .measured sampleRelays fun _ => some 5,
        .device .deviceLatencyTimeout]) ∧
      SampleUnsound [.request 0 .notifyThrew, .request 1 .notifyThrew] := by
  refine ⟨⟨_, rfl, fun h => ?_⟩, ⟨_, rfl, fun h => ?_⟩, ⟨_, rfl, fun h => ?_⟩, ⟨_, rfl, fun h => ?_⟩, ⟨_, rfl, fun h => ?_⟩⟩
  · cases h.uncaught
  · cases h.uncaught
  · rcases h.thrown .typeError rfl with hnone | ⟨latencies, ⟨d, hd, hlatency⟩, -⟩
    · exact hnone "@rv_am" List.mem_cons_self ⟨_, rfl, 5, rfl, by decide⟩
    · cases hd
      cases hlatency
  · cases (h.quiet rfl).2 _ rfl
  · cases (h.quiet rfl).1 _ List.mem_cons_self

def sampleRun : List Event :=
  discovery euAddress ++ [.device .notifyReturned, .device (.notification "@daemon" (some daemonReport)),
    .measured sampleRelays fun _ => some 5]

theorem selectBestRelay_sound_sample : ∃ s, (machine sampleRuntime).run (selectBestRelay sampleRelays) sampleRun = some s ∧
    s.result = some (.ok "@rv_am") ∧ Sound sampleRuntime sampleRelays sampleRun s := by
  have hcheck : toCheck sampleRuntime (some sampleRelays) (.error .typeError) = .ok sampleRelays := rfl
  refine ⟨_, rfl, by decide +kernel, selectBestRelay_sound (fun _ _ _ _ => rfl) (fun _ _ _ => rfl) hcheck ?_ rfl⟩
  apply Machine.meets_cons _ (fit_notifyReturned _ _ 0) rfl
  apply Machine.meets_cons _ (fit_notifyReturned _ _ 1) rfl
  apply Machine.meets_cons _ (fit_discover rfl) rfl
  apply Machine.meets_cons _ (fit_discover rfl) rfl
  apply Machine.meets_cons _ (fit_device_notifyReturned rfl) rfl
  apply Machine.meets_cons _ (fit_report rfl rfl) rfl
  refine ⟨fit_measured ?_ ?_ ?_, fun _ _ => trivial⟩
  · intro entry hentry
    rcases List.mem_cons.mp hentry with rfl | hentry
    · exact ⟨some "192.0.2.1", some 443, rfl, rfl⟩
    obtain rfl := List.mem_singleton.mp hentry
    exact ⟨some "192.0.2.2", some 443, rfl, rfl⟩
  · exact List.forall_mem_cons.mpr ⟨rfl, List.forall_mem_singleton.mpr rfl⟩
  · intro d hd
    obtain rfl := Option.some.inj hd
    rfl

end NoPorts.RelaySelection
