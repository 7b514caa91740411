import NoPorts.Lib.Machine
import NoPorts.LegacyReverse

/-! The private keys that legacy clients send, and the reverse ssh sessions that are started with them. The daemon
handles many notifications at a time: each handling goes on, from one `await` to the next, in any order with the
others. -/
namespace NoPorts.PrivateKeys
open Lib SshnpdRequests

/-- What a handling of a notification is waiting for. -/
inductive Stage where
  | preProcessor
  | authCheck
  | sessionMutex (auth : Npp.NPAAuthCheckResponse)
  | ended
  deriving DecidableEq

/-- A reverse ssh session: who asked for it, the key it is given, and how many notifications had come. -/
structure ReverseSession where
  client : String
  privateKey : Option String
  arrivals : ℕ
  deriving DecidableEq

structure Daemon where
  impl : SshnpdImpl
  /-- The notifications, in the order in which they came. -/
  arrived : List AtNotification
  stages : List Stage
  /-- Of the `privatekey` notifications that have set `_privateKey`, which they were. -/
  keyed : List ℕ
  sessions : List ReverseSession

section
variable (rt : Runtime)

namespace Daemon
variable (s : Daemon)

def messageType (n : AtNotification) : String := s.impl.messageType rt n

/-- The session that the switch starts for a notification, if it does. -/
def reverseSession (n : AtNotification) (auth : Npp.NPAAuthCheckResponse) (a : Answers) : Option ReverseSession :=
  if s.messageType rt n = "sshd" then
    match s.impl.legacyReverse rt n a auth with
    | .ok (some req) => some ⟨n.fromAtsign, req.privateKey, s.arrived.length⟩
    | _ => none
  else none

def at_ (i : ℕ) (stage : Stage) : Daemon := { s with stages := s.stages.set i stage }

/-- The switch. -/
def switch (i : ℕ) (n : AtNotification) (auth : Npp.NPAAuthCheckResponse) (a : Answers) : Daemon :=
  match s.impl.dispatch rt n a (s.messageType rt n) auth with
  | .error _ => s.at_ i .ended
  | .ok started =>
    { s.at_ i .ended with
      -- one key for all the clients
      impl := { s.impl with privateKey := started.privateKey }
      keyed := if s.messageType rt n = "privatekey" then s.keyed ++ [i] else s.keyed
      sessions := s.sessions ++ (s.reverseSession rt n auth a).toList }

/-- `authCheck` has answered. -/
def checked (i : ℕ) (n : AtNotification) (a : Answers) : Daemon :=
  match s.impl.authCheck n a with
  | .error _ => s.at_ i .ended
  | .ok auth =>
    if !auth.authorized then s.at_ i .ended
    else if ["ssh_request", "npt_request", "sshd"].contains (s.messageType rt n) then
      if !SshnpdImpl.hasValidSessionId rt n (s.messageType rt n) then s.at_ i .ended else s.at_ i (.sessionMutex auth)
    else s.switch rt i n auth a

/-- What the `i`th handling waits for has come: it goes on to the next `await`, or to its end. -/
def resume (i : ℕ) (a : Answers) : Option Daemon :=
  match s.arrived[i]?, s.stages[i]? with
  | some _, some .preProcessor =>
    match a.notifPreProcessor with
    | .error _ => some (s.at_ i .ended)
    | .ok _ => some (s.at_ i .authCheck)
  | some n, some .authCheck => some (s.checked rt i n a)
  | some n, some (.sessionMutex auth) =>
    if !SshnpdImpl.tryAcquireSessionMutex a then some (s.at_ i .ended) else some (s.switch rt i n auth a)
  | _, _ => none

end Daemon

inductive Event where
  | arrives (notification : AtNotification)
  /-- What the `i`th handling waits for has come. -/
  | resumes (i : ℕ) (answers : Answers)

def step (s : Daemon) : Event → Option Daemon
  | .arrives n => some { s with arrived := s.arrived ++ [n], stages := s.stages ++ [.preProcessor] }
  | .resumes i a => s.resume rt i a

def machine : Machine Daemon Event := ⟨step rt⟩

/-- A daemon to which nothing has come. -/
def started (impl : SshnpdImpl) : Daemon := ⟨{ impl with privateKey := "" }, [], [], [], []⟩

/-- The client sent a key with it. -/
def IsKey (impl : SshnpdImpl) (client : String) (n : AtNotification) : Prop :=
  n.fromAtsign = client ∧ impl.messageType rt n = "privatekey"

/-- The `i`th of the notifications is the one that the client sent a key with most recently. -/
structure LastSent (impl : SshnpdImpl) (client : String) (arrived : List AtNotification) (i : ℕ)
    (n : AtNotification) : Prop where
  sent : arrived[i]? = some n
  key : IsKey rt impl client n
  latest : ∀ j m, i < j → arrived[j]? = some m → ¬IsKey rt impl client m

/-- Each session is given the key that its client had sent most recently. -/
def OwnKeys (s : Daemon) : Prop :=
  ∀ session ∈ s.sessions, ∃ i n, LastSent rt s.impl session.client (s.arrived.take session.arrivals) i n ∧
    session.privateKey = n.value

/-- A session is started only when its client's most recent key is also the key that was handled last. -/
def Clean (s : Daemon) : Event → Prop
  | .arrives _ => True
  | .resumes i a => ∀ n auth, s.arrived[i]? = some n → s.stages[i]? = some (.sessionMutex auth) →
    SshnpdImpl.tryAcquireSessionMutex a = true → ∀ session ∈ s.reverseSession rt n auth a,
      ∃ k key, s.keyed.getLast? = some k ∧ LastSent rt s.impl session.client s.arrived k key

instance {impl : SshnpdImpl} {client : String} {n : AtNotification} : Decidable (IsKey rt impl client n) :=
  inferInstanceAs (Decidable (_ ∧ _))

theorem lastSent_iff {impl : SshnpdImpl} {client : String} {arrived : List AtNotification} {i : ℕ}
    {n : AtNotification} : LastSent rt impl client arrived i n ↔
      arrived[i]? = some n ∧ IsKey rt impl client n ∧ ∀ m ∈ arrived.drop (i + 1), ¬IsKey rt impl client m := by
  constructor
  · rintro ⟨hsent, hkey, hlatest⟩
    refine ⟨hsent, hkey, fun m hm => ?_⟩
    obtain ⟨j, hj⟩ := List.mem_iff_getElem?.mp hm
    rw [List.getElem?_drop] at hj
    exact hlatest _ m (by omega) hj
  · rintro ⟨hsent, hkey, hlatest⟩
    refine ⟨hsent, hkey, fun j m hj hm => hlatest m (List.mem_of_getElem? (i := j - (i + 1)) ?_)⟩
    rw [List.getElem?_drop, Nat.add_sub_cancel' hj, hm]

instance {impl : SshnpdImpl} {client : String} {arrived : List AtNotification} {i : ℕ} {n : AtNotification} :
    Decidable (LastSent rt impl client arrived i n) := decidable_of_iff' _ (lastSent_iff rt)

/-- What the handling goes on with once it has the mutex. -/
def Stage.auth? : Stage → Option Npp.NPAAuthCheckResponse
  | .sessionMutex auth => some auth
  | _ => none

theorem Stage.auth?_eq_some {stage : Stage} {auth : Npp.NPAAuthCheckResponse} :
    stage.auth? = some auth ↔ stage = .sessionMutex auth := by
  cases stage <;> simp [Stage.auth?]

theorem clean_resumes_iff {s : Daemon} {i : ℕ} {a : Answers} : Clean rt s (.resumes i a) ↔
    ∀ n ∈ s.arrived[i]?, ∀ auth ∈ s.stages[i]?.bind Stage.auth?, SshnpdImpl.tryAcquireSessionMutex a = true →
      ∀ session ∈ s.reverseSession rt n auth a, ∃ k ∈ s.keyed.getLast?, ∃ key ∈ s.arrived[k]?,
        LastSent rt s.impl session.client s.arrived k key := by
  constructor
  · intro h n hn auth hauth hacquired session hsession
    obtain ⟨stage, hstage, hwaits⟩ := Option.bind_eq_some_iff.mp hauth
    rw [Stage.auth?_eq_some.mp hwaits] at hstage
    obtain ⟨k, key, hk, hlast⟩ := h n auth hn hstage hacquired session hsession
    exact ⟨k, hk, key, hlast.sent, hlast⟩
  · intro h n auth hn hstage hacquired session hsession
    have hauth : s.stages[i]?.bind Stage.auth? = some auth := by
      rw [hstage]
      exact Stage.auth?_eq_some.mpr rfl
    obtain ⟨k, hk, key, -, hlast⟩ := h n hn auth hauth hacquired session hsession
    exact ⟨k, key, hk, hlast⟩

instance (s : Daemon) : DecidablePred (Clean rt s)
  | .arrives _ => isTrue trivial
  | .resumes _ _ => decidable_of_iff' _ (clean_resumes_iff rt)

/-! ### Every session of a clean run -/

/-- `_privateKey` is the value of the notification that was handled last, and the sessions are as they should be. -/
structure Inv (s : Daemon) : Prop where
  current : ∀ k, s.keyed.getLast? = some k → ∃ n, s.arrived[k]? = some n ∧ n.value = some s.impl.privateKey
  arrivals : ∀ session ∈ s.sessions, session.arrivals ≤ s.arrived.length
  own : OwnKeys rt s

variable {rt} {s t : Daemon} {i : ℕ} {n : AtNotification} {auth : Npp.NPAAuthCheckResponse} {a : Answers}

theorem inv_started (impl : SshnpdImpl) : Inv rt (started impl) := by
  constructor
  · intro k hk
    cases hk
  · intro session hsession
    cases hsession
  · intro session hsession
    cases hsession

theorem inv_at (h : Inv rt s) (stage : Stage) : Inv rt (s.at_ i stage) := ⟨h.current, h.arrivals, h.own⟩

theorem inv_arrives (h : Inv rt s) :
    Inv rt { s with arrived := s.arrived ++ [n], stages := s.stages ++ [.preProcessor] } := by
  constructor
  · intro k hk
    obtain ⟨m, hm, hvalue⟩ := h.current k hk
    have hlt := (List.getElem?_eq_some_iff.mp hm).1
    exact ⟨m, by rw [List.getElem?_append_left hlt, hm], hvalue⟩
  · intro session hsession
    have hle := h.arrivals session hsession
    rw [List.length_append]
    omega
  · intro session hsession
    obtain ⟨k, m, hlast, hkey⟩ := h.own session hsession
    refine ⟨k, m, ?_, hkey⟩
    rwa [List.take_append_of_le_length (h.arrivals session hsession)]

/-- The switch sets the key for a `privatekey` notification only, and to its value. -/
theorem dispatch_privateKey {d : SshnpdImpl} {messageType : String} {started : SshnpdImpl.Started}
    (h : d.dispatch rt n a messageType auth = .ok started) :
    messageType = "privatekey" ∧ n.value = some started.privateKey ∨
      messageType ≠ "privatekey" ∧ started.privateKey = d.privateKey := by
  unfold SshnpdImpl.dispatch at h
  split at h
  · obtain ⟨key, hkey, h⟩ := bind_eq_ok.mp h
    rw [← Except.ok.inj h]
    exact Or.inl ⟨rfl, cast_eq_ok.mp hkey⟩
  · obtain ⟨⟨⟩, -, h⟩ := bind_eq_ok.mp h
    rw [← Except.ok.inj h]
    exact Or.inr ⟨by decide, rfl⟩
  · rw [← Except.ok.inj h]
    exact Or.inr ⟨by decide, rfl⟩
  · rw [← Except.ok.inj h]
    exact Or.inr ⟨by decide, rfl⟩
  · rw [← Except.ok.inj h]
    exact Or.inr ⟨by decide, rfl⟩
  · rw [← Except.ok.inj h]
    exact Or.inr ⟨by decide, rfl⟩
  · obtain ⟨⟨⟩, -, h⟩ := bind_eq_ok.mp h
    rw [← Except.ok.inj h]
    exact Or.inr ⟨by decide, rfl⟩
  · rename_i hkey _ _ _ _ _ _
    rw [← Except.ok.inj h]
    exact Or.inr ⟨hkey, rfl⟩

/-- Whose keys are whose doesn't depend on the key there is now. -/
theorem LastSent.with_privateKey {impl : SshnpdImpl} {client : String} {arrived : List AtNotification}
    (h : LastSent rt impl client arrived i n) (key : String) :
    LastSent rt { impl with privateKey := key } client arrived i n := ⟨h.sent, h.key, h.latest⟩

/-- A session is given the daemon's key. -/
theorem reverseSession_spec {session : ReverseSession} (h : session ∈ s.reverseSession rt n auth a) :
    s.messageType rt n = "sshd" ∧ session.privateKey = some s.impl.privateKey ∧
      session.arrivals = s.arrived.length ∧ session.client = n.fromAtsign := by
  unfold Daemon.reverseSession at h
  split at h
  · rename_i htype
    split at h
    · rename_i req hreq
      obtain ⟨username, hstarted⟩ := SshnpdImpl.legacyReverse_spec hreq
      rw [← Option.some.inj h]
      exact ⟨htype, hstarted.privateKey, rfl, rfl⟩
    · cases h
  · cases h

/-- The switch keeps the invariant, where what it starts is given its client's own key. -/
theorem inv_switch (h : Inv rt s) (hn : s.arrived[i]? = some n)
    (hclean : ∀ session ∈ s.reverseSession rt n auth a,
      ∃ k key, s.keyed.getLast? = some k ∧ LastSent rt s.impl session.client s.arrived k key) :
    Inv rt (s.switch rt i n auth a) := by
  unfold Daemon.switch
  split
  · exact inv_at h _
  · rename_i started hdispatch
    constructor
    · intro k hk
      rcases dispatch_privateKey hdispatch with ⟨hkey, hvalue⟩ | ⟨hkey, hsame⟩
      · -- this notification is the one handled last
        rw [if_pos hkey, List.getLast?_concat] at hk
        rw [← Option.some.inj hk]
        exact ⟨n, hn, hvalue⟩
      · rw [if_neg hkey] at hk
        obtain ⟨m, hm, hvalue⟩ := h.current k hk
        exact ⟨m, hm, by rw [hvalue, hsame]⟩
    · intro session hsession
      rcases List.mem_append.mp hsession with hold | hnew
      · exact h.arrivals session hold
      · exact (reverseSession_spec (Option.mem_toList.mp hnew)).2.2.1.le
    · intro session hsession
      rcases List.mem_append.mp hsession with hold | hnew
      · obtain ⟨k, key, hlast, hgiven⟩ := h.own session hold
        exact ⟨k, key, hlast.with_privateKey started.privateKey, hgiven⟩
      · have hnew := Option.mem_toList.mp hnew
        obtain ⟨-, hgiven, harrivals, -⟩ := reverseSession_spec hnew
        obtain ⟨k, key, hk, hlast⟩ := hclean session hnew
        obtain ⟨m, hm, hvalue⟩ := h.current k hk
        have hsame : key = m := Option.some.inj (hlast.sent.symm.trans hm)
        refine ⟨k, key, ?_, by rw [hgiven, hsame, hvalue]⟩
        dsimp only [Daemon.at_]
        rw [harrivals, List.take_length]
        exact hlast.with_privateKey started.privateKey

theorem inv_checked (h : Inv rt s) (hn : s.arrived[i]? = some n) : Inv rt (s.checked rt i n a) := by
  unfold Daemon.checked
  split
  · exact inv_at h _
  · rename_i auth hauth
    split
    · exact inv_at h _
    · split
      · split
        · exact inv_at h _
        · exact inv_at h _
      · rename_i hsession
        -- a legacy request is switched only with the mutex
        apply inv_switch h hn
        intro session hnew
        rw [(reverseSession_spec hnew).1] at hsession
        exact absurd (by decide) hsession

theorem inv_resume (h : Inv rt s) (hclean : Clean rt s (.resumes i a)) (hstep : s.resume rt i a = some t) :
    Inv rt t := by
  unfold Daemon.resume at hstep
  split at hstep
  · split at hstep
    · rw [← Option.some.inj hstep]
      exact inv_at h _
    · rw [← Option.some.inj hstep]
      exact inv_at h _
  · rename_i n hn _
    rw [← Option.some.inj hstep]
    exact inv_checked h hn
  · rename_i n auth hn hstage
    split at hstep
    · rw [← Option.some.inj hstep]
      exact inv_at h _
    · rename_i hacquired
      rw [← Option.some.inj hstep]
      apply inv_switch h hn
      exact hclean n auth hn hstage (by simpa using hacquired)
  · cases hstep

theorem inv_step {e : Event} (h : Inv rt s) (hclean : Clean rt s e) (hstep : (machine rt).step s e = some t) :
    Inv rt t := by
  cases e with
  | arrives n =>
    rw [← Option.some.inj hstep]
    exact inv_arrives h
  | resumes i a => exact inv_resume h hclean hstep

/-- In every clean run each reverse ssh session is given the private key that its own client sent most recently. -/
theorem own_keys_of_clean (rt : Runtime) (impl : SshnpdImpl) {es : List Event} {s : Daemon}
    (hclean : (machine rt).Meets (Clean rt) (started impl) es) (hrun : (machine rt).run (started impl) es = some s) :
    OwnKeys rt s := by
  have hinv : Inv rt s :=
    (machine rt).invariant_of_meets (fun _ _ _ hs hg hstep => inv_step hs hg hstep) (inv_started impl) hclean hrun
  exact hinv.own

/-- A daemon with two managers. -/
def twoManagers : SshnpdImpl := { SshnpdImpl.managed with managerAtsigns := ["@a", "@b"] }

def keyFrom (client key : String) : AtNotification :=
  ⟨"1", "@daemon:privatekey.dev.sshnp" ++ client, client, "@daemon", some key⟩

def requestFrom (client : String) : AtNotification :=
  ⟨"2", "@daemon:sshd.dev.sshnp" ++ client, client, "@daemon",
    some "22 22 alice host 01234567-89ab-cdef-0123-456789abcdef"⟩

/-- A client's request waits for the mutex while another client's key comes; this client asks then. -/
def keyed : List Event :=
  [.arrives (keyFrom "@a" "KEY A"), .resumes 0 SshnpdImpl.answering, .resumes 0 SshnpdImpl.answering,
    .arrives (requestFrom "@a"), .resumes 1 SshnpdImpl.answering, .arrives (keyFrom "@b" "KEY B"),
    .resumes 2 SshnpdImpl.answering, .resumes 1 SshnpdImpl.answering, .resumes 1 SshnpdImpl.answering,
    .resumes 2 SshnpdImpl.answering, .arrives (requestFrom "@b"), .resumes 3 SshnpdImpl.answering,
    .resumes 3 SshnpdImpl.answering, .resumes 3 SshnpdImpl.answering]

/-- Both ask for a session, and each is given its key. -/
theorem own_keys_keyed : ∃ s, (machine SshnpdImpl.lowercased).run (started twoManagers) keyed = some s ∧
    s.sessions = [⟨"@a", some "KEY A", 3⟩, ⟨"@b", some "KEY B", 4⟩] ∧ OwnKeys SshnpdImpl.lowercased s := by
  have hclean : (machine SshnpdImpl.lowercased).Meets (Clean SshnpdImpl.lowercased) (started twoManagers) keyed := by
    decide +kernel
  have hsessions : ((machine SshnpdImpl.lowercased).run (started twoManagers) keyed).map Daemon.sessions =
      some [⟨"@a", some "KEY A", 3⟩, ⟨"@b", some "KEY B", 4⟩] := by
    decide +kernel
  obtain ⟨s, hs, hgiven⟩ := Option.map_eq_some_iff.mp hsessions
  exact ⟨s, hs, hgiven, own_keys_of_clean SshnpdImpl.lowercased twoManagers hclean hs⟩

/-- Another client's key comes between the client's key and its request. -/
def overwritten : List Event :=
  [.arrives (keyFrom "@a" "KEY A"), .resumes 0 SshnpdImpl.answering, .resumes 0 SshnpdImpl.answering,
    .arrives (keyFrom "@b" "KEY B"), .resumes 1 SshnpdImpl.answering, .resumes 1 SshnpdImpl.answering,
    .arrives (requestFrom "@a"), .resumes 2 SshnpdImpl.answering, .resumes 2 SshnpdImpl.answering,
    .resumes 2 SshnpdImpl.answering]

theorem another_clients_key : ∃ s, (machine SshnpdImpl.lowercased).run (started twoManagers) overwritten = some s ∧
    s.sessions.map ReverseSession.client = ["@a"] ∧ s.sessions.map ReverseSession.privateKey = [some "KEY B"] ∧
      ¬OwnKeys SshnpdImpl.lowercased s := by
  have hstate : ((machine SshnpdImpl.lowercased).run (started twoManagers) overwritten).map (fun s =>
      (s.sessions, s.arrived)) = some ([⟨"@a", some "KEY B", 3⟩],
        [keyFrom "@a" "KEY A", keyFrom "@b" "KEY B", requestFrom "@a"]) := by
    decide +kernel
  obtain ⟨s, hs, hparts⟩ := Option.map_eq_some_iff.mp hstate
  simp only [Prod.mk.injEq] at hparts
  obtain ⟨hsessions, harrived⟩ := hparts
  refine ⟨s, hs, by rw [hsessions]; rfl, by rw [hsessions]; rfl, ?_⟩
  intro hown
  obtain ⟨i, n, hlast, hgiven⟩ := hown _ (by rw [hsessions]; exact List.mem_singleton_self _)
  rw [harrived] at hlast
  have hmem := List.mem_of_getElem? hlast.sent
  -- the key is in none of the notifications that this client has sent
  have hnone : ∀ m ∈ [keyFrom "@a" "KEY A", keyFrom "@b" "KEY B", requestFrom "@a"],
      m.fromAtsign = "@a" → m.value ≠ some "KEY B" := by
    decide +kernel
  exact hnone n (List.mem_of_mem_take hmem) hlast.key.1 hgiven.symm

/-! ### One handling alone -/

theorem resume_authCheck (hn : s.arrived[i]? = some n) (hstage : s.stages[i]? = some .authCheck) :
    s.resume rt i a = some (s.checked rt i n a) := by
  rw [Daemon.resume, hn, hstage]

theorem resume_sessionMutex (hn : s.arrived[i]? = some n) (hstage : s.stages[i]? = some (.sessionMutex auth)) :
    s.resume rt i a =
      if !SshnpdImpl.tryAcquireSessionMutex a then some (s.at_ i .ended) else some (s.switch rt i n auth a) := by
  rw [Daemon.resume, hn, hstage]

/-- What the switch leaves is what the handler leaves of an admitted notification. -/
theorem switch_impl (hadmitted : s.impl.admitted rt n a = .ok (some (s.messageType rt n, auth))) :
    (s.switch rt i n auth a).impl = (s.impl.clientRequestNotificationHandler rt n a).daemon := by
  rw [SshnpdImpl.clientRequestNotificationHandler, SshnpdImpl.handleClientRequest, hadmitted, Daemon.switch]
  cases hdispatch : s.impl.dispatch rt n a (s.messageType rt n) auth with
  | error e => simp only [ok_bind, hdispatch, Daemon.at_]
  | ok started => simp only [ok_bind, hdispatch]

/-- One that is not admitted leaves the daemon as it was. -/
theorem daemon_of_refused (hrefused : s.impl.admitted rt n a = .ok none) :
    (s.impl.clientRequestNotificationHandler rt n a).daemon = s.impl := by
  rw [SshnpdImpl.clientRequestNotificationHandler, SshnpdImpl.handleClientRequest, hrefused]
  rfl

theorem daemon_of_thrown {e : Thrown} (hthrown : s.impl.admitted rt n a = .error e) :
    (s.impl.clientRequestNotificationHandler rt n a).daemon = s.impl := by
  rw [SshnpdImpl.clientRequestNotificationHandler, SshnpdImpl.handleClientRequest, hthrown]
  rfl

theorem admitted_eq (hpre : a.notifPreProcessor = .ok ()) (hauth : s.impl.authCheck n a = .ok auth) :
    s.impl.admitted rt n a =
      if !auth.authorized then .ok none
      else if ["ssh_request", "npt_request", "sshd"].contains (s.messageType rt n) &&
          (!SshnpdImpl.hasValidSessionId rt n (s.messageType rt n) || !SshnpdImpl.tryAcquireSessionMutex a) then .ok none
      else .ok (some (s.messageType rt n, auth)) := by
  rw [SshnpdImpl.admitted, hpre]
  dsimp only
  rw [hauth]
  rfl

/-- The handling of a notification that has been checked is over, or needs only the mutex. -/
theorem checked_cases (hpre : a.notifPreProcessor = .ok ()) :
    (s.checked rt i n a).impl = (s.impl.clientRequestNotificationHandler rt n a).daemon ∨
      ∃ auth, s.checked rt i n a = s.at_ i (.sessionMutex auth) ∧ s.impl.admitted rt n a =
        if !SshnpdImpl.tryAcquireSessionMutex a then .ok none else .ok (some (s.messageType rt n, auth)) := by
  unfold Daemon.checked
  cases hauth : s.impl.authCheck n a with
  | error e =>
    have hthrown : s.impl.admitted rt n a = .error e := by
      rw [SshnpdImpl.admitted, hpre]
      dsimp only
      rw [hauth]
      rfl
    rw [daemon_of_thrown hthrown]
    exact Or.inl rfl
  | ok auth =>
    have hadmitted : s.impl.admitted rt n a = _ := admitted_eq hpre hauth
    dsimp only
    cases hauthorized : auth.authorized with
    | false =>
      rw [hauthorized] at hadmitted
      rw [daemon_of_refused hadmitted]
      exact Or.inl rfl
    | true =>
      rw [hauthorized] at hadmitted
      by_cases hsession : ["ssh_request", "npt_request", "sshd"].contains (s.messageType rt n) = true
      · rw [hsession] at hadmitted ⊢
        cases hvalid : SshnpdImpl.hasValidSessionId rt n (s.messageType rt n) with
        | false =>
          rw [hvalid] at hadmitted
          rw [daemon_of_refused hadmitted]
          exact Or.inl rfl
        | true =>
          rw [hvalid] at hadmitted
          exact Or.inr ⟨auth, rfl, by simpa using hadmitted⟩
      · rw [Bool.eq_false_iff.mpr hsession] at hadmitted ⊢
        exact Or.inl (switch_impl hadmitted)

/-- A handling that no other comes between leaves the daemon as `clientRequestNotificationHandler` does. -/
theorem run_alone (hlength : s.stages.length = s.arrived.length) :
    ∃ resumed t, (machine rt).run s (.arrives n :: List.replicate resumed (.resumes s.arrived.length a)) = some t ∧
      t.impl = (s.impl.clientRequestNotificationHandler rt n a).daemon := by
  let s₁ : Daemon := { s with arrived := s.arrived ++ [n], stages := s.stages ++ [.preProcessor] }
  have harrives (es : List Event) : (machine rt).run s (.arrives n :: es) = (machine rt).run s₁ es :=
    (machine rt).run_step rfl es
  have hn : s₁.arrived[s.arrived.length]? = some n := List.getElem?_concat_length
  have hstage : s₁.stages[s.arrived.length]? = some .preProcessor := by
    rw [← hlength]
    exact List.getElem?_concat_length
  have hset (stage : Stage) : (s₁.at_ s.arrived.length stage).stages[s.arrived.length]? = some stage := by
    apply List.getElem?_set_self
    exact (List.getElem?_eq_some_iff.mp hstage).1
  cases hpre : a.notifPreProcessor with
  | error e =>
    refine ⟨1, s₁.at_ s.arrived.length .ended, ?_, ?_⟩
    · rw [harrives]
      apply (machine rt).run_step
      change s₁.resume rt s.arrived.length a = _
      rw [Daemon.resume, hn, hstage, hpre]
    · have hrefused : s.impl.admitted rt n a = .ok none := by rw [SshnpdImpl.admitted, hpre]
      rw [daemon_of_refused hrefused]
      rfl
  | ok u =>
    let s₂ := s₁.at_ s.arrived.length .authCheck
    -- once it is checked, it is over or waits for the mutex
    have hchecked (es : List Event) : (machine rt).run s
        (.arrives n :: .resumes s.arrived.length a :: .resumes s.arrived.length a :: es) =
          (machine rt).run (s₂.checked rt s.arrived.length n a) es := by
      have hfirst : (machine rt).step s₁ (.resumes s.arrived.length a) = some s₂ := by
        change s₁.resume rt s.arrived.length a = _
        rw [Daemon.resume, hn, hstage, hpre]
      have hsecond : (machine rt).step s₂ (.resumes s.arrived.length a) = some (s₂.checked rt s.arrived.length n a) :=
        resume_authCheck (s := s₂) hn (hset .authCheck)
      rw [harrives, (machine rt).run_step hfirst, (machine rt).run_step hsecond]
    have hcases : (s₂.checked rt s.arrived.length n a).impl = _ ∨ _ := checked_cases hpre
    rcases hcases with hover | ⟨auth, hwaits, hadmitted⟩
    · exact ⟨2, _, hchecked [], hover⟩
    · let s₃ := s₂.at_ s.arrived.length (.sessionMutex auth)
      have hmutex : s₃.stages[s.arrived.length]? = some (.sessionMutex auth) := by
        apply List.getElem?_set_self
        exact (List.getElem?_eq_some_iff.mp (hset .authCheck)).1
      have hresume : s₃.resume rt s.arrived.length a = _ := resume_sessionMutex hn hmutex
      cases hacquired : SshnpdImpl.tryAcquireSessionMutex a with
      | false =>
        rw [hacquired] at hadmitted hresume
        have hlast : (machine rt).step s₃ (.resumes s.arrived.length a) = some (s₃.at_ s.arrived.length .ended) :=
          hresume
        refine ⟨3, s₃.at_ s.arrived.length .ended, (hchecked [.resumes s.arrived.length a]).trans ?_,
          (daemon_of_refused (s := s₂) hadmitted).symm⟩
        rw [hwaits]
        exact (machine rt).run_step hlast []
      | true =>
        rw [hacquired] at hadmitted hresume
        have hlast : (machine rt).step s₃ (.resumes s.arrived.length a) =
            some (s₃.switch rt s.arrived.length n auth a) := hresume
        refine ⟨3, s₃.switch rt s.arrived.length n auth a, (hchecked [.resumes s.arrived.length a]).trans ?_,
          switch_impl (s := s₃) hadmitted⟩
        rw [hwaits]
        exact (machine rt).run_step hlast []

end
end NoPorts.PrivateKeys
