import NoPorts.CSrvWorker
import NoPorts.SshnpdChannel

/-! A daemon's answer to a session request, as either daemon writes it, and the client that hears it: both
ends of the session have the same keys. -/
namespace NoPorts.SshnpdAnswers
open Lib Signing SshnpdChannel

variable {rt : Runtime} {params : Params}

/-! ### A client that hears an answer -/

/-- A notification whose signature verifies under `pk`, and which leaves `keys` in the channel. -/
structure Answers (rt : Runtime) (params : Params) (notification : AtNotification) (pk : String)
    (keys : Keys) (response : Response) (hashing : HashingAlgoType) : Prop where
  value : ∃ value, notification.value = some value ∧ value.toList.head? = some '\x7b' ∧
    rt.readEnvelope value = some response
  session : response.sessionId = params.sessionId
  hashes : response.hashing? = some hashing
  verifies : Channel.verifies rt response hashing pk = true
  read : ∀ c : Channel, c.keys = Channel.noKeys → ∃ config, rt.readResponse response.payload c =
    .ok { c with keys := keys, eventLoggingConfig := config }

/-- What may happen: notifications of other sessions come, and the daemon's public key is found. -/
def Undisturbed (rt : Runtime) (params : Params) (notification : AtNotification) (pk : String) :
    Event → Prop
  | .deliver other => other = notification ∨ rt.isForAnotherSession params other = true
  | .fetched _ server => server (rt.publicKeyRecord params) = some pk
  | _ => True

/-- Where a client is with the answer. -/
inductive Phase (pk : String) (keys : Keys) (response : Response) (hashing : HashingAlgoType)
    (c : Channel) : PayloadPc → Prop
  | fetching (hkeys : c.keys = Channel.noKeys) (hack : c.sshnpdAck = .notAcknowledged)
      (hacked : c.acked = false) : Phase pk keys response hashing c (.fetching response hashing)
  | verifying (hkeys : c.keys = Channel.noKeys) (hack : c.sshnpdAck = .notAcknowledged)
      (hacked : c.acked = false) : Phase pk keys response hashing c (.verifying response hashing pk)
  | returned (hkeys : c.keys = keys) (hack : c.sshnpdAck = .notAcknowledged)
      (hacked : c.acked = false) : Phase pk keys response hashing c (.returned (some .acknowledged))
  | done (hkeys : c.keys = keys) (hack : c.sshnpdAck = .acknowledged) (hacked : c.acked = true) :
      Phase pk keys response hashing c .done

structure Waits (c : Channel) : Prop where
  handlers : c.handlers = []
  responded : c.responded = false
  keys : c.keys = Channel.noKeys
  sshnpdAck : c.sshnpdAck = .notAcknowledged
  acked : c.acked = false

/-- The answer has not come, or it is the one that is being handled; nothing has gone wrong. -/
structure Hearing (notification : AtNotification) (pk : String) (keys : Keys) (response : Response)
    (hashing : HashingAlgoType) (c : Channel) : Prop where
  errorReceived : c.errorReceived = none
  phase : Waits c ∨ c.responded = true ∧ ∃ pc, c.handlers = [⟨notification, pc⟩] ∧
    Phase pk keys response hashing c pc

section
variable {notification : AtNotification} {pk : String} {keys : Keys} {response : Response}
  {hashing : HashingAlgoType} {c d : Channel} {e : Event}

/-- The handler a step finds is the answer's. -/
theorem Hearing.at (h : Hearing notification pk keys response hashing c) {i : ℕ} {found : Handler}
    (hi : c.handlers[i]? = some found) : i = 0 ∧ c.responded = true ∧
      found.notification = notification ∧ c.handlers = [found] ∧
      Phase pk keys response hashing c found.pc := by
  rcases h.phase with hwaits | ⟨hresponded, pc, hhandlers, hphase⟩
  · rw [hwaits.handlers] at hi
    cases hi
  · rw [hhandlers] at hi
    cases i with
    | zero =>
      cases hi
      exact ⟨rfl, hresponded, rfl, hhandlers, hphase⟩
    | succ i => cases hi

/-- Another notification leaves the channel as it is. -/
theorem not_foreign (ha : Answers rt params notification pk keys response hashing) :
    rt.isForAnotherSession params notification = false := by
  obtain ⟨value, hvalue, -, hread⟩ := ha.value
  rw [Runtime.isForAnotherSession, Channel.namedSession_of_read hvalue hread, ha.session]
  exact bne_self_eq_false _

theorem Hearing.deliver (ha : Answers rt params notification pk keys response hashing)
    (h : Hearing notification pk keys response hashing c) :
    Hearing notification pk keys response hashing
      (c.handleSshnpdResponses rt params notification) := by
  obtain ⟨value, hvalue, hbrace, hread⟩ := ha.value
  rcases h.phase with hwaits | ⟨hresponded, hphase⟩
  · rw [Channel.handleSshnpdResponses, hwaits.responded, if_neg Bool.false_ne_true, not_foreign ha,
      if_neg Bool.false_ne_true]
    have hbegun : Channel.handleSshnpdPayload rt { c with responded := true } notification =
        ({ c with responded := true }, .fetching response hashing) := by
      rw [Channel.handleSshnpdPayload, hvalue]
      simp only [hbrace, ne_eq, not_true_eq_false, if_false, hread, ha.hashes]
    rw [hbegun]
    refine ⟨h.errorReceived, .inr ⟨rfl, .fetching response hashing, ?_, ?_⟩⟩
    · rw [hwaits.handlers]
      rfl
    · exact .fetching hwaits.keys hwaits.sshnpdAck hwaits.acked
  · rw [Channel.handleSshnpdResponses, hresponded, if_pos rfl]
    exact ⟨h.errorReceived, .inr ⟨hresponded, hphase⟩⟩

theorem handlers_setPc {found : Handler} {pc : PayloadPc} (hhandlers : c.handlers = [found])
    (hnotification : found.notification = notification) :
    (c.setPc 0 found pc).handlers = [⟨notification, pc⟩] := by
  rw [Channel.setPc, hhandlers, ← hnotification]
  rfl

/-- The waiters are nothing to the handler. -/
theorem Hearing.waiters (h : Hearing notification pk keys response hashing c) (ws : List Waiter) :
    Hearing notification pk keys response hashing { c with waiters := ws } := by
  refine ⟨h.errorReceived, ?_⟩
  rcases h.phase with w | ⟨hresponded, pc, hhandlers, hphase⟩
  · exact .inl ⟨w.handlers, w.responded, w.keys, w.sshnpdAck, w.acked⟩
  · refine .inr ⟨hresponded, pc, hhandlers, ?_⟩
    cases hphase with
    | fetching hkeys hack hacked => exact .fetching hkeys hack hacked
    | verifying hkeys hack hacked => exact .verifying hkeys hack hacked
    | returned hkeys hack hacked => exact .returned hkeys hack hacked
    | done hkeys hack hacked => exact .done hkeys hack hacked

/-- One step of the client, one case for each event. -/
theorem Hearing.step (ha : Answers rt params notification pk keys response hashing)
    (h : Hearing notification pk keys response hashing c)
    (hu : Undisturbed rt params notification pk e) (hs : (Channel.machine rt params).step c e = some d) :
    Hearing notification pk keys response hashing d := by
  cases e with
  | deliver other =>
    obtain rfl := Option.some.inj hs
    rcases hu with rfl | hforeign
    · exact h.deliver ha
    · rw [Channel.handleSshnpdResponses, hforeign, if_pos rfl, ite_self]
      exact h
  | fetched i server =>
    obtain ⟨found, hi, hs⟩ := Option.bind_eq_some_iff.mp hs
    obtain ⟨rfl, hresponded, hnotification, hhandlers, hphase⟩ := h.at hi
    split at hs
    · rename_i response' hashing' hpc
      obtain rfl := Option.some.inj hs
      rw [hpc] at hphase
      cases hphase with
      | fetching hkeys hack hacked =>
        have hserver : server (rt.publicKeyRecord params) = some pk := hu
        have hnext : c.onFetched rt params 0 found response hashing server =
            c.setPc 0 found (.verifying response hashing pk) := by
          rw [Channel.onFetched, hserver]
        rw [hnext]
        refine ⟨h.errorReceived, .inr ⟨hresponded, _, handlers_setPc hhandlers hnotification, ?_⟩⟩
        exact .verifying hkeys hack hacked
    · cases hs
  | verified i =>
    obtain ⟨found, hi, hs⟩ := Option.bind_eq_some_iff.mp hs
    obtain ⟨rfl, hresponded, hnotification, hhandlers, hphase⟩ := h.at hi
    split at hs
    · rename_i response' hashing' pk' hpc
      obtain rfl := Option.some.inj hs
      rw [hpc] at hphase
      cases hphase with
      | verifying hkeys hack hacked =>
        obtain ⟨config, hread⟩ := ha.read c hkeys
        have hnext : c.onVerified rt 0 found response hashing pk =
            Channel.setPc { c with keys := keys, eventLoggingConfig := config } 0 found
              (.returned (some .acknowledged)) := by
          rw [Channel.onVerified, ha.verifies, if_pos rfl, hread]
        rw [hnext]
        refine ⟨h.errorReceived, .inr ⟨hresponded, _, handlers_setPc hhandlers hnotification, ?_⟩⟩
        exact .returned rfl hack hacked
    · cases hs
  | resumed i =>
    obtain ⟨found, hi, hs⟩ := Option.bind_eq_some_iff.mp hs
    obtain ⟨rfl, hresponded, hnotification, hhandlers, hphase⟩ := h.at hi
    split at hs
    · rename_i ack hpc
      obtain rfl := Option.some.inj hs
      rw [hpc] at hphase
      cases hphase with
      | returned hkeys hack hacked =>
        refine ⟨h.errorReceived, .inr ⟨hresponded, _, handlers_setPc hhandlers hnotification, ?_⟩⟩
        exact .done hkeys rfl rfl
    · cases hs
  | wait =>
    obtain rfl := Option.some.inj hs
    exact h.waiters _
  | waited w timedOut =>
    obtain ⟨-, -, hs⟩ := Option.bind_eq_some_iff.mp hs
    obtain ⟨-, -, hs⟩ := Option.bind_eq_some_iff.mp hs
    obtain rfl := Option.some.inj hs
    exact h.waiters _
  | logged w threw =>
    obtain ⟨-, -, hs⟩ := Option.bind_eq_some_iff.mp hs
    obtain rfl := Option.some.inj hs
    exact h.waiters _

theorem hearing_run (ha : Answers rt params notification pk keys response hashing) {es : List Event}
    (hu : (Channel.machine rt params).Meets (fun _ e => Undisturbed rt params notification pk e)
      Channel.start es)
    (hr : (Channel.machine rt params).run Channel.start es = some c) :
    Hearing notification pk keys response hashing c :=
  (Channel.machine rt params).invariant_of_meets (fun _ _ _ h hu hs => h.step ha hu hs)
    ⟨rfl, .inl ⟨rfl, rfl, rfl, rfl, rfl⟩⟩ hu hr

/-- A step of the answer's handler, and what is left to do after it. -/
theorem Hearing.leads (ha : Answers rt params notification pk keys response hashing)
    (h : Hearing notification pk keys response hashing c)
    (hu : Undisturbed rt params notification pk e) (hs : (Channel.machine rt params).step c e = some d)
    (hrest : Hearing notification pk keys response hashing d → ∃ es t,
      (Channel.machine rt params).run d es = some t ∧ t.acked = true) :
    ∃ es t, (Channel.machine rt params).run c es = some t ∧ t.acked = true := by
  obtain ⟨es, t, hr, hacked⟩ := hrest (h.step ha hu hs)
  exact ⟨e :: es, t, by rw [Machine.run_cons, hs]; exact hr, hacked⟩

/-- Once the answer has come, the steps of its handler lead to the acknowledgement. -/
theorem Hearing.acks (ha : Answers rt params notification pk keys response hashing)
    (h : Hearing notification pk keys response hashing c) (hresponded : c.responded = true) :
    ∃ es t, (Channel.machine rt params).run c es = some t ∧ t.acked = true := by
  have hfound : ∀ {c : Channel} {pc : PayloadPc}, c.handlers = [⟨notification, pc⟩] →
      c.handlers[0]? = some ⟨notification, pc⟩ := by
    intro c pc hhandlers
    rw [hhandlers]
    rfl
  have hreturned : ∀ {c : Channel}, Hearing notification pk keys response hashing c →
      c.handlers = [⟨notification, .returned (some .acknowledged)⟩] →
      ∃ es t, (Channel.machine rt params).run c es = some t ∧ t.acked = true := by
    intro c h hhandlers
    have hs : (Channel.machine rt params).step c (.resumed 0) =
        some (c.onResumed 0 ⟨notification, .returned (some .acknowledged)⟩ (some .acknowledged)) := by
      apply Option.bind_eq_some_iff.mpr
      exact ⟨_, hfound hhandlers, rfl⟩
    exact h.leads (e := .resumed 0) ha trivial hs fun _ => ⟨[], _, rfl, rfl⟩
  have hverifying : ∀ {c : Channel}, Hearing notification pk keys response hashing c →
      c.handlers = [⟨notification, .verifying response hashing pk⟩] → c.keys = Channel.noKeys →
      ∃ es t, (Channel.machine rt params).run c es = some t ∧ t.acked = true := by
    intro c h hhandlers hkeys
    have hs : (Channel.machine rt params).step c (.verified 0) =
        some (c.onVerified rt 0 ⟨notification, .verifying response hashing pk⟩ response hashing pk) := by
      apply Option.bind_eq_some_iff.mpr
      exact ⟨_, hfound hhandlers, rfl⟩
    refine h.leads (e := .verified 0) ha trivial hs fun h' => hreturned h' ?_
    obtain ⟨config, hread⟩ := ha.read c hkeys
    rw [Channel.onVerified, ha.verifies, if_pos rfl, hread]
    exact handlers_setPc hhandlers rfl
  rcases h.phase with hwaits | ⟨-, pc, hhandlers, hphase⟩
  · rw [hwaits.responded] at hresponded
    cases hresponded
  · cases hphase with
    | fetching hkeys hack hacked =>
      have hs : (Channel.machine rt params).step c (.fetched 0 fun _ => some pk) =
          some (c.setPc 0 ⟨notification, .fetching response hashing⟩
            (.verifying response hashing pk)) := by
        apply Option.bind_eq_some_iff.mpr
        exact ⟨_, hfound hhandlers, rfl⟩
      exact h.leads (e := .fetched 0 fun _ => some pk) ha rfl hs fun h' => hverifying h' (handlers_setPc hhandlers rfl) hkeys
    | verifying hkeys hack hacked => exact hverifying h hhandlers hkeys
    | returned hkeys hack hacked => exact hreturned h hhandlers
    | done hkeys hack hacked => exact ⟨[], c, rfl, hacked⟩

end

/-- Whatever the order in which things happen, the client takes the answer and nothing else: it is never
told of an error, it has no key before the answer is verified and exactly `keys` once it has acknowledged. -/
structure Heard (rt : Runtime) (params : Params) (keys : Keys) (t : Channel) : Prop where
  errorReceived : t.errorReceived = none
  acknowledged : t.acked = true → t.sshnpdAck = .acknowledged ∧ t.keys = keys
  waiting : t.acked = false → t.sshnpdAck = .notAcknowledged ∧ (t.keys = Channel.noKeys ∨ t.keys = keys)
  leads : t.responded = true → ∃ es u,
    (Channel.machine rt params).run t es = some u ∧ u.acked = true

theorem Hearing.heard {notification : AtNotification} {pk : String} {keys : Keys} {response : Response}
    {hashing : HashingAlgoType} {c : Channel}
    (ha : Answers rt params notification pk keys response hashing)
    (h : Hearing notification pk keys response hashing c) : Heard rt params keys c := by
  refine ⟨h.errorReceived, ?_, ?_, h.acks ha⟩
  · intro hacked
    rcases h.phase with w | ⟨-, pc, -, hphase⟩
    · rw [w.acked] at hacked
      cases hacked
    · cases hphase with
      | done hkeys hack _ => exact ⟨hack, hkeys⟩
      | fetching _ _ hnot | verifying _ _ hnot | returned _ _ hnot =>
        rw [hnot] at hacked
        cases hacked
  · intro hnot
    rcases h.phase with w | ⟨-, pc, -, hphase⟩
    · exact ⟨w.sshnpdAck, .inl w.keys⟩
    · cases hphase with
      | done _ _ hacked =>
        rw [hnot] at hacked
        cases hacked
      | fetching hkeys hack _ | verifying hkeys hack _ => exact ⟨hack, .inl hkeys⟩
      | returned hkeys hack _ => exact ⟨hack, .inr hkeys⟩

/-! ### A response that can be read -/

theorem decryptPair_of_readable {key iv : Json} (h : Channel.readablePair rt key iv = true)
    (c : Channel) (setKey setIv : Keys → String → Keys) :
    ∃ k v c', text key = some k ∧ text iv = some v ∧ rt.decryptPair c setKey setIv k v = .ok c' := by
  unfold Channel.readablePair at h
  split at h
  · rename_i k v hk hv
    rw [Bool.and_eq_true] at h
    obtain ⟨aes, haes⟩ := Option.isSome_iff_exists.mp h.1
    obtain ⟨d, hd⟩ := Option.isSome_iff_exists.mp h.2
    have hpair : rt.decryptPair c setKey setIv (some k) (some v) =
        .ok { c with keys := setIv (setKey c.keys aes) d } := by
      simp only [Runtime.decryptPair, haes, hd, Runtime.orThrow, ok_bind]
      rfl
    exact ⟨some k, some v, _, hk, hv, hpair⟩
  · rename_i k v hnot hk hv
    refine ⟨k, v, c, hk, hv, ?_⟩
    cases k with
    | none => rfl
    | some k =>
      cases v with
      | none => rfl
      | some v => exact absurd rfl (hnot k v rfl)
  · cases h

theorem readResponse_of_readable {payload : List (String × Json)}
    (h : Channel.readable rt payload = true) (c : Channel) (hfresh : c.keys = Channel.noKeys) :
    ∃ config, rt.readResponse payload c =
      .ok { c with keys := Channel.keysOf rt payload, eventLoggingConfig := config } := by
  obtain ⟨c', hc'⟩ : ∃ c', rt.readResponse payload c = .ok c' := by
    simp only [Channel.readable, Bool.and_eq_true] at h
    obtain ⟨⟨⟨hephemeral, hc2d⟩, hd2c⟩, hconfig⟩ := h
    obtain ⟨ephemeral, hephemeral⟩ := Option.isSome_iff_exists.mp hephemeral
    obtain ⟨key, iv, c1, hkey, hiv, hc1⟩ := decryptPair_of_readable hc2d
      { c with keys := { c.keys with ephemeralPrivateKey := ephemeral } }
      (fun keys aes => { keys with aesC2D := some aes }) fun keys iv => { keys with ivC2D := some iv }
    obtain ⟨key', iv', c2, hkey', hiv', hc2⟩ := decryptPair_of_readable hd2c c1
      (fun keys aes => { keys with aesD2C := some aes }) fun keys iv => { keys with ivD2C := some iv }
    simp only [Runtime.readResponse, hephemeral, hkey, hiv, hc1, hkey', hiv', hc2, Runtime.orThrow,
      ok_bind]
    split
    · exact ⟨_, rfl⟩
    · rename_i hnull
      rw [Bool.eq_false_iff.mpr hnull, Bool.false_or] at hconfig
      obtain ⟨config, hconfig⟩ := Option.isSome_iff_exists.mp hconfig
      rw [hconfig]
      exact ⟨_, rfl⟩
  obtain ⟨-, config, heq⟩ := Channel.readResponse_ok hfresh hc'
  exact ⟨config, by rw [hc', heq]⟩

/-- What either daemon wraps a payload in. -/
def envelopeOf (payload : List (String × Json)) (signature : String) : Json :=
  .obj [("payload", .obj payload), ("signature", .str signature), ("hashingAlgo", .str "sha256"),
    ("signingAlgo", .str "rsa2048")]

/-- A signed payload that can be read is an answer. -/
theorem answers_of_readable {value signature pk : String} {payload : List (String × Json)}
    (hbrace : value.toList.head? = some '\x7b')
    (hdecode : rt.jsonDecode value = some (envelopeOf payload signature))
    (hsession : Json.field payload "sessionId" = .str params.sessionId)
    (hverify : rt.rsaVerifyString (rt.jsonEncode (.obj payload)) signature pk .sha256 = some true)
    (hread : Channel.readable rt payload = true) :
    Answers rt params ⟨some value⟩ pk (Channel.keysOf rt payload)
      ⟨signature, "sha256", "rsa2048", payload, params.sessionId⟩ .sha256 where
  value := by
    refine ⟨value, rfl, hbrace, ?_⟩
    rw [Runtime.readEnvelope, hdecode]
    have hid : (Json.field payload "sessionId").str? = some params.sessionId := by
      rw [hsession]
      rfl
    simp only [envelopeOf, Option.bind_eq_bind, Option.bind_some, Json.obj?]
    change (Json.field payload "sessionId").str?.bind _ = _
    rw [hid]
    rfl
  session := rfl
  hashes := rfl
  verifies := by
    rw [Channel.verifies, hverify]
    rfl
  read := readResponse_of_readable hread

end NoPorts.SshnpdAnswers
