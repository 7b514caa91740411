import Mathlib.Data.List.Basic
import Mathlib.Data.Option.Basic
import NoPorts.Lib.Machine

/-! A session of the client: `run` and `runInline` through their awaits, with `close` called at any
of them. -/
namespace NoPorts.NptSession
open Lib

/-- The awaits of `_preRun`, those of `initialize` first. -/
inductive Startup where
  | loadEnvelopeSigningKey
  | sshnpdChannelInitialization
  | srvdChannelInitialization
  | featureCheck
  | delayed
  | sendDefinitiveAuthModes
  | initialized
  | signAndWrapRequest
  | notify
  | waitForDaemonResponse
  | bind
  | serverClose
  | preRan
  deriving DecidableEq, Repr

/-- Only a failure to load the signing key is caught where it happens. -/
def Startup.caught : Startup → Bool
  | loadEnvelopeSigningKey => true
  | _ => false

def Startup.next (localPort : ℕ) : Startup → Option Startup
  | loadEnvelopeSigningKey => some sshnpdChannelInitialization
  | sshnpdChannelInitialization => some srvdChannelInitialization
  | srvdChannelInitialization => some featureCheck
  | featureCheck => some delayed
  | delayed => some sendDefinitiveAuthModes
  | sendDefinitiveAuthModes => some initialized
  | initialized => some signAndWrapRequest
  | signAndWrapRequest => some notify
  | notify => some waitForDaemonResponse
  | waitForDaemonResponse => some (if localPort = 0 then bind else preRan)
  | bind => some serverClose
  | serverClose => some preRan
  | preRan => none

inductive Call where
  | run
  | runInline (localRvPort : Option ℕ)
  deriving DecidableEq, Repr

structure Params where
  inline : Bool
  localPort : ℕ
  deriving DecidableEq, Repr

/-- Where the call is. -/
inductive Pc where
  | idle
  | preRun (await : Startup)
  | runSrv
  /-- In the `catch` of `runInline`, at `close`. -/
  | inlineClosing (close : ℕ)
  /-- `run` has yet to go on from its `runInline`. -/
  | inlineReturned (threw : Bool)
  /-- In `run`, at its `close`. -/
  | runClosing (close : ℕ) (threw : Bool)
  | settled (threw : Bool)
  deriving DecidableEq, Repr

inductive Teardown where
  | tunnel
  | sshnpdChannel
  | srvdChannel
  deriving DecidableEq, Repr

/-- Where a `close` is. -/
inductive Close where
  | closing (step : Teardown)
  | finished
  | threw
  deriving DecidableEq, Repr

inductive Connector where
  | none
  | opened
  | closed
  deriving DecidableEq, Repr

def Connector.close : Connector → Connector
  | opened => closed
  | c => c

theorem Connector.close_ne_opened (c : Connector) : c.close ≠ opened := by
  cases c <;> exact fun h => by cases h

structure Session where
  pc : Pc
  /-- `_closed` -/
  closed : Bool
  /-- `_completer` is completed. -/
  done : Bool
  /-- What `runSrv` gave when it runs in line. -/
  connector : Connector
  /-- `_inlineConnector` is set. -/
  inlineConnector : Bool
  /-- Its `done` has yet to end the session. -/
  watching : Bool
  /-- An srv process is running. -/
  srv : Bool
  closes : List Close
  deriving DecidableEq, Repr

inductive SrvOutcome where
  | ready
  /-- A process that has been started may be left when its standard input cannot be closed. -/
  | threw (left : Bool)
  deriving DecidableEq, Repr

inductive Event where
  | begin
  /-- An await of `_preRun` ends. -/
  | settle (threw : Bool)
  | srv (outcome : SrvOutcome)
  /-- The call goes on from a `close` or a `runInline`. -/
  | resume
  /-- `close`, called from outside. -/
  | close
  /-- A step of a `close` ends. -/
  | teardown (close : ℕ) (threw : Bool)
  /-- The connector is done. -/
  | connectorDone
  deriving DecidableEq, Repr

namespace Session
variable (call : Call) (params : Params)

/-- `close` up to its first await. -/
def close (s : Session) : Session :=
  { s with
    closed := true
    connector := if s.inlineConnector then s.connector.close else s.connector
    closes := s.closes ++ [.closing .tunnel] }

/-- `complete` of a `Completer`; it throws when that is completed. -/
def complete (done : Bool) : Option Bool := if done then none else some true

/-- A step of `close` ends; what it throws is caught. -/
def onTeardown (s : Session) (k : ℕ) : Teardown → Session
  | .tunnel => { s with closes := s.closes.set k (.closing .sshnpdChannel) }
  | .sshnpdChannel => { s with closes := s.closes.set k (.closing .srvdChannel) }
  | .srvdChannel =>
    if s.done then { s with closes := s.closes.set k .finished }
    else
      match complete s.done with
      | some done => { s with done, closes := s.closes.set k .finished }
      | none => { s with closes := s.closes.set k .threw }

/-- `runInline` throws. -/
def throwInline (s : Session) : Session := { s.close with pc := .inlineClosing s.closes.length }

/-- `run` goes to its `close`. -/
def closeRun (s : Session) (threw : Bool) : Session := { s.close with pc := .runClosing s.closes.length threw }

/-- The call throws before or at `runSrv`; `inInline` when it is in `runInline`. -/
def throwFrom (s : Session) (inInline : Bool) : Session :=
  if inInline then s.throwInline else s.closeRun true

def first : Pc :=
  match call with
  | .runInline (some _) => .runSrv
  | .run | .runInline none => .preRun .loadEnvelopeSigningKey

def onSettle (s : Session) (await : Startup) (threw : Bool) : Session :=
  if threw && !await.caught then s.throwFrom (call != Call.run)
  else
    match await.next params.localPort with
    | some await => { s with pc := .preRun await }
    | none => { s with pc := .runSrv }

/-- `runInline` returns. -/
def returned (threw : Bool) : Pc := if call = .run then .inlineReturned threw else .settled threw

/-- `runSrv` ends: the channel of an inline session gives a connector, the other one a process. -/
def onSrv (s : Session) : SrvOutcome → Session
  | .ready =>
    if params.inline then
      if s.closed then { s with connector := .closed }.throwInline
      else { s with
        connector := .opened
        inlineConnector := true
        watching := true
        pc := returned call false }
    -- `runInline` takes the process for a connector, and throws
    else if call = .run then { s with srv := true }.closeRun false
    else { s with srv := true }.throwInline
  | .threw left => { s with srv := s.srv || (left && !params.inline) }.throwFrom (params.inline || call != Call.run)

def onResume (s : Session) : Option Session :=
  match s.pc with
  | .inlineClosing k => do
    guard (s.closes[k]? = some .finished)
    return { s with pc := returned call true }
  | .inlineReturned threw => some (if threw then s.closeRun true else { s with pc := .settled false })
  | .runClosing k threw => do
    guard (s.closes[k]? = some .finished)
    return { s with pc := .settled threw }
  | _ => none

def step (s : Session) : Event → Option Session
  | .begin => do
    guard (s.pc = .idle)
    return { s with pc := first call }
  | .settle threw =>
    match s.pc with
    | .preRun await => some (s.onSettle call params await threw)
    | _ => none
  | .srv outcome => do
    guard (s.pc = .runSrv)
    return s.onSrv call params outcome
  | .resume => s.onResume call
  | .close => some s.close
  | .teardown k _ =>
    match s.closes[k]? with
    | some (.closing step) => some (s.onTeardown k step)
    | _ => none
  | .connectorDone => do
    guard (s.watching = true)
    return { s with watching := false, connector := s.connector.close }.close

def machine : Machine Session Event := ⟨step call params⟩

def start : Session := ⟨.idle, false, false, .none, false, false, false, []⟩

/-- The tunnel, or the process, has been handed back, by `runInline` to `run` at least. -/
def handedBack : Pc → Bool
  | .inlineReturned threw | .runClosing _ threw | .settled threw => !threw
  | _ => false

/-- What is to hold of a run. -/
structure NoTunnelLeft (es : List Event) (t : Session) : Prop where
  never_throws : .threw ∉ t.closes
  left : ∀ threw, t.pc = .settled threw → (∀ c ∈ t.closes, c = .finished) → threw = true ∨ .close ∈ es →
    t.done = true ∧ t.connector ≠ .opened ∧ (params.inline = true → t.srv = false)
  throws : ∀ threw, params.inline = true → t.pc = .settled threw →
    (machine call params).At start es (fun s e => e = .close ∧ handedBack s.pc = false) → threw = true

/-! ### The invariant -/

structure Sound (s : Session) : Prop where
  opened : s.connector = .opened → s.inlineConnector = true ∧ s.closed = false
  closed : s.closes ≠ [] → s.closed = true
  finished : .finished ∈ s.closes → s.done = true
  never_throws : .threw ∉ s.closes
  threw : s.pc = .inlineReturned true ∨ s.pc = .settled true → s.done = true ∧ s.closed = true
  srv : params.inline = true → s.srv = false

/-- What a step from `s` to `t` keeps. -/
structure Goes (s t : Session) : Prop where
  sound : Sound params t
  closes : s.closes ≠ [] → t.closes ≠ []
  early : params.inline = true → s.closed = true → handedBack s.pc = false →
    t.closed = true ∧ handedBack t.pc = false

structure Inv (es : List Event) (s : Session) : Prop where
  sound : Sound params s
  called : .close ∈ es → s.closes ≠ []
  early : params.inline = true →
    (machine call params).At start es (fun s e => e = .close ∧ handedBack s.pc = false) →
    s.closed = true ∧ handedBack s.pc = false

variable {call : Call} {params : Params} {es : List Event} {s t : Session}

theorem Sound.close (h : Sound params s) : Sound params s.close := by
  refine ⟨fun hopened => ?_, fun _ => rfl, fun hmem => ?_, fun hmem => ?_, fun hpc => ⟨(h.threw hpc).1, rfl⟩,
    h.srv⟩
  · -- what is open is recorded, so `close` has just closed it
    rw [Session.close] at hopened
    cases hrecorded : s.inlineConnector with
    | true =>
      simp only [hrecorded, if_true] at hopened
      exact absurd hopened (Connector.close_ne_opened _)
    | false =>
      simp only [hrecorded, Bool.false_eq_true, if_false] at hopened
      rw [(h.opened hopened).1] at hrecorded
      cases hrecorded
  · rcases List.mem_append.mp hmem with hmem | hmem
    · exact h.finished hmem
    · cases List.mem_singleton.mp hmem
  · rcases List.mem_append.mp hmem with hmem | hmem
    · exact h.never_throws hmem
    · cases List.mem_singleton.mp hmem

theorem Sound.withPc (h : Sound params s) {pc : Pc}
    (hpc : pc = .inlineReturned true ∨ pc = .settled true → s.done = true ∧ s.closed = true) :
    Sound params { s with pc } := ⟨h.opened, h.closed, h.finished, h.never_throws, hpc, h.srv⟩

theorem closes_close_ne (s : Session) : s.close.closes ≠ [] := List.append_ne_nil_of_right_ne_nil _ (List.cons_ne_nil _ _)

theorem Goes.close (h : Sound params s) : Goes params s s.close :=
  ⟨h.close, fun _ => closes_close_ne s, fun _ _ hearly => ⟨rfl, hearly⟩⟩

theorem Goes.withPc (h : Sound params s) {pc : Pc}
    (hpc : pc = .inlineReturned true ∨ pc = .settled true → s.done = true ∧ s.closed = true)
    (hearly : params.inline = true → handedBack s.pc = false → handedBack pc = false) :
    Goes params s { s with pc } :=
  ⟨h.withPc hpc, id, fun hinline hclosed hback => ⟨hclosed, hearly hinline hback⟩⟩

/-- The steps of a throw: what `catch` does is `close`. -/
theorem Goes.closePc (h : Sound params s) {pc : Pc} (hpc : pc ≠ .inlineReturned true ∧ pc ≠ .settled true)
    (hearly : params.inline = true → handedBack s.pc = false → handedBack pc = false) :
    Goes params s { s.close with pc } := by
  refine ⟨h.close.withPc fun hor => ?_, fun _ => closes_close_ne s, fun hinline _ hback => ⟨rfl, hearly hinline hback⟩⟩
  rcases hor with hor | hor
  · exact absurd hor hpc.1
  · exact absurd hor hpc.2

theorem Goes.throwInline (h : Sound params s) : Goes params s s.throwInline :=
  Goes.closePc h ⟨fun hn => (by cases hn), fun hn => (by cases hn)⟩ fun _ _ => rfl

theorem Goes.closeRun (h : Sound params s) {threw : Bool}
    (hearly : params.inline = true → handedBack s.pc = false → threw = true) :
    Goes params s (s.closeRun threw) := by
  apply Goes.closePc h ⟨fun hn => (by cases hn), fun hn => (by cases hn)⟩
  intro hinline hback
  rw [hearly hinline hback]
  rfl

theorem Goes.throwFrom (h : Sound params s) (inInline : Bool) : Goes params s (s.throwFrom inInline) := by
  rw [Session.throwFrom]
  split
  · exact Goes.throwInline h
  · exact Goes.closeRun h fun _ _ => rfl

/-- A step taken after a change that keeps the `close`s. -/
theorem Goes.after {u : Session} (h : Goes params u t) (hcloses : u.closes = s.closes)
    (hclosed : u.closed = s.closed) (hpc : u.pc = s.pc) : Goes params s t :=
  ⟨h.sound, fun hn => h.closes (by rwa [hcloses]), fun hinline hc hback =>
    h.early hinline (hclosed.trans hc) (by rwa [hpc])⟩

theorem Goes.onTeardown (h : Sound params s) {k : ℕ} {step : Teardown} (hk : s.closes[k]? = some (.closing step)) :
    Goes params s (s.onTeardown k step) := by
  have hkeep {next : Close} : s.closes ≠ [] → s.closes.set k next ≠ [] := by
    intro hne hset
    have hlength := congrArg List.length hset
    rw [List.length_set] at hlength
    exact hne (List.eq_nil_of_length_eq_zero hlength)
  have hmem {c next : Close} (hc : c ∈ s.closes.set k next) : c ∈ s.closes ∨ c = next :=
    List.mem_or_eq_of_mem_set hc
  have hclosed : s.closed = true := h.closed (List.ne_nil_of_mem (List.mem_of_getElem? hk))
  have hgoesOn {next : Teardown} : Goes params s { s with closes := s.closes.set k (.closing next) } := by
    refine ⟨⟨h.opened, fun _ => hclosed, fun hc => ?_, fun hc => ?_, h.threw, h.srv⟩, hkeep,
      fun _ hc hback => ⟨hc, hback⟩⟩
    · rcases hmem hc with hc | hc
      · exact h.finished hc
      · cases hc
    · rcases hmem hc with hc | hc
      · exact h.never_throws hc
      · cases hc
  -- the last step completes `done`, unless an earlier `close` has
  have hfinish {done : Bool} (hdone : done = true) :
      Goes params s { s with done, closes := s.closes.set k .finished } := by
    refine ⟨⟨h.opened, fun _ => hclosed, fun _ => hdone, fun hc => ?_, fun hpc => ⟨hdone, (h.threw hpc).2⟩, h.srv⟩,
      hkeep, fun _ hc hback => ⟨hc, hback⟩⟩
    rcases hmem hc with hc | hc
    · exact h.never_throws hc
    · cases hc
  cases step with
  | tunnel => exact hgoesOn
  | sshnpdChannel => exact hgoesOn
  | srvdChannel =>
    rw [Session.onTeardown]
    cases hdone : s.done with
    | true =>
      rw [if_pos rfl]
      have hsame : s = { s with done := true } := by rw [← hdone]
      rw [hsame]
      exact hsame ▸ hfinish rfl
    | false => exact hfinish rfl

theorem Goes.onSettle (h : Sound params s) (await : Startup) (threw : Bool) :
    Goes params s (s.onSettle call params await threw) := by
  rw [Session.onSettle]
  split
  · exact Goes.throwFrom h _
  · split
    · exact Goes.withPc h (fun hor => by rcases hor with hor | hor <;> cases hor) fun _ _ => rfl
    · exact Goes.withPc h (fun hor => by rcases hor with hor | hor <;> cases hor) fun _ _ => rfl

theorem returned_ne {call : Call} : returned call false ≠ .inlineReturned true ∧ returned call false ≠ .settled true := by
  rw [returned]
  split
  · exact ⟨fun hn => (by cases hn), fun hn => (by cases hn)⟩
  · exact ⟨fun hn => (by cases hn), fun hn => (by cases hn)⟩

theorem handedBack_returned (call : Call) (threw : Bool) : handedBack (returned call threw) = !threw := by
  rw [returned]
  split
  · rfl
  · rfl

theorem Goes.onSrv (h : Sound params s) (outcome : SrvOutcome) : Goes params s (s.onSrv call params outcome) := by
  cases outcome with
  | threw left =>
    refine Goes.after (u := { s with srv := s.srv || (left && !params.inline) }) (Goes.throwFrom ?_ _) rfl rfl rfl
    refine ⟨h.opened, h.closed, h.finished, h.never_throws, h.threw, fun hinline => ?_⟩
    rw [h.srv hinline, hinline, Bool.not_true, Bool.and_false, Bool.or_false]
  | ready =>
    rw [Session.onSrv]
    by_cases hinline : params.inline = true
    · rw [if_pos hinline]
      by_cases hclosed : s.closed = true
      · rw [if_pos hclosed]
        refine Goes.after (u := { s with connector := .closed }) (Goes.throwInline ?_) rfl rfl rfl
        exact ⟨fun hopened => (by cases hopened), h.closed, h.finished, h.never_throws, h.threw, h.srv⟩
      · rw [if_neg hclosed]
        refine ⟨⟨fun _ => ⟨rfl, Bool.eq_false_iff.mpr hclosed⟩, h.closed, h.finished, h.never_throws, ?_, h.srv⟩,
          id, fun _ hc => absurd hc hclosed⟩
        rintro (hpc | hpc)
        · exact absurd hpc returned_ne.1
        · exact absurd hpc returned_ne.2
    · have hsound : Sound params { s with srv := true } :=
        ⟨h.opened, h.closed, h.finished, h.never_throws, h.threw, fun hi => absurd hi hinline⟩
      rw [if_neg hinline]
      split
      · refine Goes.after (u := { s with srv := true }) (Goes.closeRun hsound ?_) rfl rfl rfl
        exact fun hi => absurd hi hinline
      · exact Goes.after (u := { s with srv := true }) (Goes.throwInline hsound) rfl rfl rfl

theorem Goes.onResume (h : Sound params s) (hresume : s.onResume call = some t) : Goes params s t := by
  have hdone {k : ℕ} (hk : s.closes[k]? = some .finished) : s.done = true ∧ s.closed = true :=
    ⟨h.finished (List.mem_of_getElem? hk), h.closed (List.ne_nil_of_mem (List.mem_of_getElem? hk))⟩
  rw [Session.onResume] at hresume
  split at hresume
  · rename_i k hpc
    obtain ⟨_, hk, hresume⟩ := Option.bind_eq_some_iff.mp hresume
    obtain rfl := Option.some.inj hresume
    apply Goes.withPc h (fun _ => hdone ((Option.guard_eq_some' _).mp hk))
    intro _ _
    exact handedBack_returned call true
  · rename_i threw hpc
    obtain rfl := Option.some.inj hresume
    cases threw with
    | true => exact Goes.closeRun h fun _ _ => rfl
    | false =>
      apply Goes.withPc h (fun hor => by rcases hor with hor | hor <;> cases hor)
      intro _ hback
      rw [hpc] at hback
      cases hback
  · rename_i k threw hpc
    obtain ⟨_, hk, hresume⟩ := Option.bind_eq_some_iff.mp hresume
    obtain rfl := Option.some.inj hresume
    apply Goes.withPc h (fun _ => hdone ((Option.guard_eq_some' _).mp hk))
    intro _ hback
    rw [hpc] at hback
    exact hback
  · cases hresume

theorem Goes.step (h : Sound params s) {e : Event} (hstep : s.step call params e = some t) : Goes params s t := by
  cases e with
  | begin =>
    obtain ⟨_, hpc, hstep⟩ := Option.bind_eq_some_iff.mp hstep
    obtain rfl := Option.some.inj hstep
    have hfirst : first call = .runSrv ∨ first call = .preRun .loadEnvelopeSigningKey := by
      cases call with
      | run => exact Or.inr rfl
      | runInline localRvPort =>
        cases localRvPort with
        | none => exact Or.inr rfl
        | some port => exact Or.inl rfl
    rcases hfirst with hfirst | hfirst <;> rw [hfirst]
    · exact Goes.withPc h (fun hor => by rcases hor with hor | hor <;> cases hor) fun _ _ => rfl
    · exact Goes.withPc h (fun hor => by rcases hor with hor | hor <;> cases hor) fun _ _ => rfl
  | settle threw =>
    rw [Session.step] at hstep
    split at hstep
    · obtain rfl := Option.some.inj hstep
      exact Goes.onSettle h _ threw
    · cases hstep
  | srv outcome =>
    obtain ⟨_, hpc, hstep⟩ := Option.bind_eq_some_iff.mp hstep
    obtain rfl := Option.some.inj hstep
    exact Goes.onSrv h outcome
  | resume => exact Goes.onResume h hstep
  | close =>
    obtain rfl := Option.some.inj hstep
    exact Goes.close h
  | teardown k threw =>
    rw [Session.step] at hstep
    split at hstep
    · rename_i step hk
      obtain rfl := Option.some.inj hstep
      exact Goes.onTeardown h hk
    · cases hstep
  | connectorDone =>
    obtain ⟨_, -, hstep⟩ := Option.bind_eq_some_iff.mp hstep
    obtain rfl := Option.some.inj hstep
    refine Goes.after (u := { s with watching := false, connector := s.connector.close }) (Goes.close ?_)
      rfl rfl rfl
    exact ⟨fun hopened => absurd hopened (Connector.close_ne_opened _), h.closed, h.finished, h.never_throws,
      h.threw, h.srv⟩

theorem inv_run (hr : (machine call params).run start es = some t) : Inv call params es t := by
  apply (machine call params).run_induction _ _ hr
  · refine ⟨⟨fun h => (by cases h), fun h => absurd rfl h, fun h => (by cases h), fun h => (by cases h), ?_,
      fun _ => rfl⟩, fun h => (by cases h), ?_⟩
    · rintro (h | h) <;> cases h
    · rintro - ⟨pre, e, post, u, hes, -⟩
      cases pre <;> cases hes
  · intro es e u v hu h hstep
    have hgoes : Goes params u v := Goes.step h.sound hstep
    refine ⟨hgoes.sound, fun hmem => ?_, fun hinline hat => ?_⟩
    · rcases List.mem_append.mp hmem with hmem | hmem
      · exact hgoes.closes (h.called hmem)
      · obtain rfl := List.mem_singleton.mp hmem
        obtain rfl := Option.some.inj hstep
        exact closes_close_ne u
    · rcases hat.of_concat hu with hbefore | ⟨rfl, hback⟩
      · obtain ⟨hclosed, hback⟩ := h.early hinline hbefore
        exact hgoes.early hinline hclosed hback
      · obtain rfl := Option.some.inj hstep
        exact ⟨rfl, hback⟩

theorem noTunnelLeft_run (hr : (machine call params).run start es = some t) : NoTunnelLeft call params es t := by
  have h := inv_run hr
  refine ⟨h.sound.never_throws, fun threw hpc hfinished hended => ?_, fun threw hinline hpc hat => ?_⟩
  · have hover : t.done = true ∧ t.closed = true := by
      rcases hended with rfl | hcalled
      · exact h.sound.threw (Or.inr hpc)
      · have hne := h.called hcalled
        obtain ⟨c, hc⟩ := List.exists_mem_of_ne_nil _ hne
        exact ⟨h.sound.finished (hfinished c hc ▸ hc), h.sound.closed hne⟩
    refine ⟨hover.1, fun hopened => ?_, h.sound.srv⟩
    rw [(h.sound.opened hopened).2] at hover
    cases hover.2
  · have hback := (h.early hinline hat).2
    rw [hpc] at hback
    simpa [handedBack] using hback

/-! ### A session that runs in line, and a detached one -/

/-- Closed while `runSrv` is under way. -/
def closedAtRunSrv : List Event :=
  [.begin, .close, .srv .ready, .teardown 0 false, .teardown 0 true, .teardown 0 false, .teardown 1 false,
    .teardown 1 false, .teardown 1 false, .resume]

theorem noTunnelLeft_run_sample : ∃ t,
    (machine (.runInline (some 2222)) ⟨true, 0⟩).run start closedAtRunSrv = some t ∧ t.pc = .settled true ∧
    t.connector = .closed ∧ NoTunnelLeft (.runInline (some 2222)) ⟨true, 0⟩ closedAtRunSrv t := by
  have hrun : (machine (.runInline (some 2222)) ⟨true, 0⟩).run start closedAtRunSrv = some _ := rfl
  exact ⟨_, hrun, rfl, rfl, noTunnelLeft_run hrun⟩

/-- Closed as soon as it starts, a detached `run` goes on. -/
def closedDetached : List Event :=
  [.begin, .close, .teardown 0 false, .teardown 0 false, .teardown 0 false] ++
    List.replicate 11 (.settle false) ++
    [.srv .ready, .teardown 1 false, .teardown 1 false, .teardown 1 false, .resume]

/-- Closed once it has returned, a detached `run` leaves its process too. -/
def detachedThenClosed : List Event :=
  .begin :: List.replicate 11 (.settle false) ++
    [.srv .ready, .teardown 0 false, .teardown 0 false, .teardown 0 false, .resume, .close, .teardown 1 false,
      .teardown 1 false, .teardown 1 false]

theorem detached_left :
    (∃ t, (machine .run ⟨false, 2222⟩).run start closedDetached = some t ∧
      (∀ c ∈ t.closes, c = .finished) ∧
      (machine .run ⟨false, 2222⟩).At start closedDetached (fun s e => e = .close ∧ ∃ await, s.pc = .preRun await) ∧
      t.pc = .settled false ∧ t.srv = true) ∧
    ∃ t, (machine .run ⟨false, 2222⟩).run start detachedThenClosed = some t ∧
      (∀ c ∈ t.closes, c = .finished) ∧
      (machine .run ⟨false, 2222⟩).At start detachedThenClosed (fun s e => e = .close ∧ s.pc = .settled false) ∧
      t.pc = .settled false ∧ t.srv = true := by
  refine ⟨⟨_, rfl, by decide, ?_, rfl, rfl⟩, _, rfl, by decide, ?_, rfl, rfl⟩
  · exact ⟨[.begin], .close, closedDetached.drop 2, _, rfl, rfl, rfl, _, rfl⟩
  · exact ⟨detachedThenClosed.take 17, .close, detachedThenClosed.drop 18, _, rfl, rfl, rfl, rfl⟩

end Session
end NoPorts.NptSession
