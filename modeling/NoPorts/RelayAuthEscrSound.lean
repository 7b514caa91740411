import NoPorts.RelayAuthEscr

/-! What a `true` of `verifyChallengeResponse` stands for. -/
namespace NoPorts.Srvd
open Lib Signing

/-- A call that has consumed the verifier and has not been refused. -/
def Call.holds : Call → Bool
  | .made _ => false
  | .finished (.error _) => false
  | _ => true

namespace Runtime
variable {rt : Runtime} {challenge sessionId uri : String}

theorem ownerOf_ok {atSign : String} (h : rt.ownerOf uri = .ok atSign) :
    signingKeyUriShape uri = true ∧ rt.toAtsign (writtenAtSign uri) = some atSign ∧
      rt.toLowerCase (writtenAtSign uri) = atSign := by
  obtain ⟨-, h⟩ := throwIf_ok.mp h
  obtain ⟨-, h⟩ := throwIf_ok.mp h
  obtain ⟨hshape, h⟩ := throwIf_ok.mp h
  split at h
  · cases h
  · rename_i signer hsigner
    obtain ⟨hspelled, h⟩ := throwIf_ok.mp h
    have hs : signer = atSign := Except.ok.inj h
    rw [hs] at hsigner hspelled
    exact ⟨by simpa using hshape, hsigner, not_not.mp hspelled⟩

/-- The text of a decrypted envelope, read as `claim`, is for this session, side
and challenge, and names a signing key in one spelling of its owner. -/
structure Vouches (rt : Runtime) (challenge sessionId envelopeJson : String) (claim : Claim) :
    Prop where
  envelope : rt.jsonDecode envelopeJson = .ok (.obj claim.envelope)
  payload : Json.field claim.envelope "p" = .obj claim.signedPayload
  side : rt.sideText claim.signedPayload = if claim.isSideA then "a" else "b"
  sid : Json.field claim.signedPayload "sid" = .str sessionId
  c : Json.field claim.signedPayload "c" = .str challenge
  sk : Json.field claim.envelope "sk" = .str claim.signingKeyUri
  shape : signingKeyUriShape claim.signingKeyUri = true
  owner : rt.toAtsign (writtenAtSign claim.signingKeyUri) = some claim.atSign
  spelled : rt.toLowerCase (writtenAtSign claim.signingKeyUri) = claim.atSign

theorem sideOf_some {signedPayload : List (String × Json)} {isSideA : Bool}
    (h : rt.sideOf signedPayload = some isSideA) :
    rt.sideText signedPayload = if isSideA then "a" else "b" := by
  unfold sideOf at h
  split at h
  · rename_i ha
    rw [← Option.some.inj h, ha]
    rfl
  · split at h
    · rename_i hb
      rw [← Option.some.inj h, hb]
      rfl
    · cases h

theorem readEnvelope_ok {envelopeJson : String} {claim : Claim}
    (h : rt.readEnvelope challenge sessionId envelopeJson = .ok claim) :
    rt.Vouches challenge sessionId envelopeJson claim := by
  unfold readEnvelope at h
  split at h
  swap
  · cases h
  rename_i envelope henvelope
  split at h
  swap
  · cases h
  rename_i signedPayload hpayload
  split at h
  · cases h
  rename_i isSideA hside
  obtain ⟨hsid, h⟩ := throwIf_ok.mp h
  obtain ⟨hc, h⟩ := throwIf_ok.mp h
  split at h
  · cases h
  rename_i uri huri
  split at h
  · cases h
  rename_i atSign howner
  split at h
  swap
  · cases h
  obtain ⟨-, h⟩ := throwIf_ok.mp h
  obtain rfl := Except.ok.inj h
  obtain ⟨hshape, hat, hspelled⟩ := ownerOf_ok howner
  exact ⟨henvelope, hpayload, sideOf_some hside, Json.str?_eq_some.mp (not_not.mp hsid),
    Json.str?_eq_some.mp (not_not.mp hc), Json.str?_eq_some.mp huri, hshape, hat, hspelled⟩

/-- The claim is signed, over its payload, with a key the record entitles to it. -/
def SignedBy (rt : Runtime) (claim : Claim) (apsk : String) : Prop :=
  ∃ signature kid k keys, Json.field claim.envelope "s" = .str signature ∧
    Json.field claim.envelope "kid" = Json.ofStr? kid ∧
      rt.Entitled claim.signingKeyUri apsk kid k keys ∧ k.alg = claim.signingAlgo ∧
        rt.signatureVerifies claim.signingAlgo k.pub (rt.jsonEncode (.obj claim.signedPayload))
          signature claim.hashingAlgo = .ok true

theorem readKid_ok {envelope : List (String × Json)} {kid : Option String}
    (h : rt.readKid envelope = .ok kid) : Json.field envelope "kid" = Json.ofStr? kid := by
  unfold readKid at h
  split at h
  · rename_i hnull
    rw [hnull, ← Except.ok.inj h]
    rfl
  · rename_i found hfound
    rw [hfound, ← Except.ok.inj h]
    rfl
  · cases h

theorem verifyClaim_of {claim : Claim} {apsk signature : String} {kid : Option String}
    (hs : (Json.field claim.envelope "s").str? = some signature)
    (hk : rt.readKid claim.envelope = .ok kid)
    (hv : rt.verifyApskSignature claim.signingKeyUri apsk (rt.jsonEncode (.obj claim.signedPayload))
      signature claim.signingAlgo claim.hashingAlgo kid = .ok ()) :
    rt.verifyClaim claim apsk = .ok () := by
  unfold verifyClaim
  simp only [hs, hk, hv]
  rfl

theorem verifyClaim_ok {claim : Claim} {apsk : String} (h : rt.verifyClaim claim apsk = .ok ()) :
    rt.SignedBy claim apsk := by
  unfold verifyClaim at h
  split at h
  · cases h
  rename_i signature hs
  split at h
  · cases h
  rename_i kid hkid
  split at h
  · rename_i hv
    obtain ⟨k, keys, hent, halg, hver⟩ := Sdk.verifyApskSignature_ok hv
    exact ⟨signature, kid, k, keys, Json.str?_eq_some.mp hs, readKid_ok hkid, hent, halg, hver⟩
  · cases h
  · cases h

/-! One response of those a verifier is asked to verify, followed from its text
to its acceptance. -/

/-- What the stages of a verification read on the way to a claim. -/
structure Opening where
  response : String
  sessionId : String
  json : String
  iv : String
  e : String
  aesKey : String
  envelopeJson : String

variable (rt challenge) (sessions : List (String × Option String)) (responses : List String)

/-- At some moment of the run call `i` went on from `c`, the sessions then as `P` says. -/
def Passed (es : List VerifierEvent) (i : ℕ) (c : Call)
    (P : List (String × Option String) → Prop) : Prop :=
  (rt.verifier challenge).At (fresh sessions responses) es fun u ev =>
    (∃ record, ev = .resume i record) ∧ u.calls[i]? = some c ∧ P u.sessions

/-- At some moment of the run the lookup of call `i`, for `claim`, ended with `apsk`. -/
def Looked (es : List VerifierEvent) (i : ℕ) (sessionId : String) (claim : Claim)
    (apsk : String) : Prop :=
  (rt.verifier challenge).At (fresh sessions responses) es fun u ev =>
    ev = .resume i (.ok apsk) ∧ u.calls[i]? = some (.looking sessionId claim)

/-- Call `i` of the run read `o`: the session was live when checked, and the
key is the one its table held when asked for. -/
structure Opens (es : List VerifierEvent) (i : ℕ) (o : Opening) : Prop where
  response : responses[i]? = some o.response
  split : rt.splitResponse o.response = .ok (o.sessionId, o.json)
  active : rt.Passed challenge sessions responses es i (.made o.response) fun table =>
    (table.lookup o.sessionId).isSome
  outer : rt.readOuter o.json = .ok (o.iv, o.e)
  key : rt.Passed challenge sessions responses es i (.checking o.sessionId o.json true)
    fun table => table.lookup o.sessionId = some (some o.aesKey)
  decrypted : rt.decrypt o.iv o.e o.aesKey = .ok o.envelopeJson

/-- What is known of call `i`, by where it is. -/
def Known (es : List VerifierEvent) (v : Verifier) (i : ℕ) : Call → Prop
  | .made response => responses[i]? = some response
  | .checking sessionId json active => v.sessionId = some sessionId ∧
      ∃ response, responses[i]? = some response ∧
        rt.splitResponse response = .ok (sessionId, json) ∧
          (active = true → rt.Passed challenge sessions responses es i (.made response) fun table =>
            (table.lookup sessionId).isSome)
  | .keying sessionId iv e key => v.sessionId = some sessionId ∧
      ∀ aesKey envelopeJson, key = .ok aesKey → rt.decrypt iv e aesKey = .ok envelopeJson →
        ∃ response json, rt.Opens challenge sessions responses es i
          ⟨response, sessionId, json, iv, e, aesKey, envelopeJson⟩
  | .looking sessionId claim => v.sessionId = some sessionId ∧
      v.isSideA = some claim.isSideA ∧ v.atSign = some claim.atSign ∧
        ∃ o : Opening, o.sessionId = sessionId ∧ rt.Opens challenge sessions responses es i o ∧
          rt.readEnvelope challenge sessionId o.envelopeJson = .ok claim
  | .finished (.error _) => True
  | .finished (.ok accepted) => accepted = true ∧ ∃ (o : Opening) (claim : Claim) (apsk : String),
      rt.Opens challenge sessions responses es i o ∧
        rt.readEnvelope challenge o.sessionId o.envelopeJson = .ok claim ∧
          rt.Looked challenge sessions responses es i o.sessionId claim apsk ∧
            rt.verifyClaim claim apsk = .ok () ∧
              v.sessionId = some o.sessionId ∧ v.isSideA = some claim.isSideA ∧
                v.atSign = some claim.atSign ∧ v.signingKeyUri = some claim.signingKeyUri

variable {rt challenge sessions responses} {es : List VerifierEvent} {i : ℕ}

theorem Passed.later {c : Call} {P : List (String × Option String) → Prop}
    (h : rt.Passed challenge sessions responses es i c P) (ev : VerifierEvent) :
    rt.Passed challenge sessions responses (es ++ [ev]) i c P := Machine.At.later h ev

theorem Passed.now {u : Verifier} {c : Call} {P : List (String × Option String) → Prop}
    {record : Except Thrown String}
    (hu : (rt.verifier challenge).run (fresh sessions responses) es = some u)
    (hc : u.calls[i]? = some c) (hp : P u.sessions) :
    rt.Passed challenge sessions responses (es ++ [.resume i record]) i c P :=
  Machine.At.now hu ⟨⟨record, rfl⟩, hc, hp⟩

theorem Opens.later {o : Opening} (h : rt.Opens challenge sessions responses es i o)
    (ev : VerifierEvent) : rt.Opens challenge sessions responses (es ++ [ev]) i o :=
  { h with active := h.active.later ev, key := h.key.later ev }

/-- What is known of a call stays known while the verifier's fields stay. -/
theorem Known.later {v v' : Verifier} {c : Call}
    (h : rt.Known challenge sessions responses es v i c) (ev : VerifierEvent)
    (hs : v'.sessionId = v.sessionId) (ha : v'.isSideA = v.isSideA) (ht : v'.atSign = v.atSign)
    (hu : v'.signingKeyUri = v.signingKeyUri) :
    rt.Known challenge sessions responses (es ++ [ev]) v' i c := by
  cases c with
  | made response => exact h
  | checking sessionId json active =>
    obtain ⟨hv, response, hr, hsplit, hact⟩ := h
    exact ⟨hs.trans hv, response, hr, hsplit, fun hactive => (hact hactive).later ev⟩
  | keying sessionId iv e key =>
    obtain ⟨hv, h⟩ := h
    refine ⟨hs.trans hv, fun aesKey envelopeJson hk hd => ?_⟩
    obtain ⟨response, json, ho⟩ := h aesKey envelopeJson hk hd
    exact ⟨response, json, ho.later ev⟩
  | looking sessionId claim =>
    obtain ⟨hv, hside, hat, o, ho, hopens, hread⟩ := h
    exact ⟨hs.trans hv, ha.trans hside, ht.trans hat, o, ho, hopens.later ev, hread⟩
  | finished result =>
    cases result with
    | error e => exact trivial
    | ok accepted =>
      obtain ⟨hacc, o, claim, apsk, hopens, hread, hlooked, hsigned, hv, hside, hat, huri⟩ := h
      exact ⟨hacc, o, claim, apsk, hopens.later ev, hread, Machine.At.later hlooked ev, hsigned,
        hs.trans hv, ha.trans hside, ht.trans hat, hu.trans huri⟩

theorem aesKeyOf_ok {aesKey : String} (h : aesKeyOf sessions sessionId = .ok aesKey) :
    sessions.lookup sessionId = some (some aesKey) := by
  unfold aesKeyOf at h
  split at h
  · cases h
  · cases h
  · rename_i key hlookup
    rw [hlookup, Except.ok.inj h]

/-- A call that goes on takes what is known of it along. -/
theorem Known.goOn {v v' : Verifier} {c c' : Call} {record : Except Thrown String}
    (hr : (rt.verifier challenge).run (fresh sessions responses) es = some v)
    (hc : v.calls[i]? = some c) (h : rt.Known challenge sessions responses es v i c)
    (hgo : rt.goOn challenge v record c = some (v', c')) (calls : List Call) :
    rt.Known challenge sessions responses (es ++ [.resume i record])
      { v' with calls := calls } i c' := by
  cases c with
  | made response =>
    replace hgo : rt.onResponse v response = (v', c') := Option.some.inj hgo
    unfold onResponse at hgo
    split at hgo
    · cases hgo
      exact trivial
    · split at hgo
      · cases hgo
        exact trivial
      · rename_i sessionId json hsplit
        cases hgo
        exact ⟨rfl, response, h, hsplit, fun hactive => .now hr hc hactive⟩
  | checking sessionId json active =>
    obtain ⟨hv, response, hresponse, hsplit, hact⟩ := h
    replace hgo : rt.onActive v sessionId json active = (v', c') := Option.some.inj hgo
    unfold onActive at hgo
    split at hgo
    · cases hgo
      exact trivial
    · rename_i hactive
      have hactive : active = true := by simpa using hactive
      subst hactive
      split at hgo
      · cases hgo
        exact trivial
      · rename_i iv e houter
        cases hgo
        refine ⟨hv, fun aesKey envelopeJson hk hd => ⟨response, json, ?_⟩⟩
        have hkey : v.sessions.lookup sessionId = some (some aesKey) := aesKeyOf_ok hk
        exact ⟨hresponse, hsplit, (hact rfl).later _, houter, .now hr hc hkey, hd⟩
  | keying sessionId iv e key =>
    obtain ⟨hv, h⟩ := h
    replace hgo : rt.onAesKey challenge v sessionId iv e key = (v', c') := Option.some.inj hgo
    unfold onAesKey at hgo
    split at hgo
    · cases hgo
      exact trivial
    · rename_i claim hclaim
      obtain ⟨aesKey, hk, hclaim⟩ := bind_eq_ok.mp hclaim
      obtain ⟨envelopeJson, hd, hclaim⟩ := bind_eq_ok.mp hclaim
      obtain ⟨response, json, ho⟩ := h aesKey envelopeJson hk hd
      split at hgo
      · cases hgo
        exact trivial
      · cases hgo
        exact ⟨hv, rfl, rfl, _, rfl, ho.later _, hclaim⟩
  | looking sessionId claim =>
    obtain ⟨hv, hside, hat, o, ho, hopens, hread⟩ := h
    replace hgo : rt.onRecord v claim record = (v', c') := Option.some.inj hgo
    unfold onRecord at hgo
    split at hgo
    · cases hgo
      exact trivial
    · rename_i hclaim
      obtain ⟨apsk, rfl, hclaim⟩ := bind_eq_ok.mp hclaim
      cases hgo
      subst ho
      have hlooked : rt.Looked challenge sessions responses (es ++ [.resume i (.ok apsk)]) i
          o.sessionId claim apsk := Machine.At.now hr ⟨rfl, hc⟩
      exact ⟨rfl, o, claim, apsk, hopens.later _, hread, hlooked, hclaim, hv, hside, hat, rfl⟩
  | finished result => cases hgo

/-- A call either finds the verifier consumed and leaves it as it is, or is the
one that consumes it. -/
theorem goOn_cases {v v' : Verifier} {c c' : Call} {record : Except Thrown String}
    (hgo : rt.goOn challenge v record c = some (v', c')) :
    v'.calls = v.calls ∧
      ((c.holds = false ∧ v.consumed = true ∧ v' = v ∧ c'.holds = false) ∨
        (c.holds = false ∧ v.consumed = false ∧ v'.consumed = true) ∨
          (c.holds = true ∧ v'.consumed = v.consumed)) := by
  cases c with
  | made response =>
    replace hgo : rt.onResponse v response = (v', c') := Option.some.inj hgo
    unfold onResponse at hgo
    split at hgo
    · rename_i hconsumed
      cases hgo
      exact ⟨rfl, Or.inl ⟨rfl, hconsumed, rfl, rfl⟩⟩
    · rename_i hconsumed
      have hconsumed : v.consumed = false := by simpa using hconsumed
      split at hgo <;> cases hgo <;> exact ⟨rfl, Or.inr (Or.inl ⟨rfl, hconsumed, rfl⟩)⟩
  | checking sessionId json active =>
    replace hgo : rt.onActive v sessionId json active = (v', c') := Option.some.inj hgo
    unfold onActive at hgo
    split at hgo
    · cases hgo
      exact ⟨rfl, Or.inr (Or.inr ⟨rfl, rfl⟩)⟩
    · split at hgo <;> cases hgo <;> exact ⟨rfl, Or.inr (Or.inr ⟨rfl, rfl⟩)⟩
  | keying sessionId iv e key =>
    replace hgo : rt.onAesKey challenge v sessionId iv e key = (v', c') := Option.some.inj hgo
    unfold onAesKey at hgo
    split at hgo
    · cases hgo
      exact ⟨rfl, Or.inr (Or.inr ⟨rfl, rfl⟩)⟩
    · split at hgo <;> cases hgo <;> exact ⟨rfl, Or.inr (Or.inr ⟨rfl, rfl⟩)⟩
  | looking sessionId claim =>
    replace hgo : rt.onRecord v claim record = (v', c') := Option.some.inj hgo
    unfold onRecord at hgo
    split at hgo <;> cases hgo <;> exact ⟨rfl, Or.inr (Or.inr ⟨rfl, rfl⟩)⟩
  | finished result => cases hgo

theorem step_resume {v : Verifier} (v' : Verifier) {c c' : Call} {record : Except Thrown String}
    (hc : v.calls[i]? = some c) (hgo : rt.goOn challenge v record c = some (v', c')) :
    (rt.verifier challenge).step v (.resume i record) =
      some { v' with calls := v'.calls.set i c' } := by
  change (v.calls[i]?).bind _ = _
  rw [hc, Option.bind_some, hgo]
  rfl

/-- What holds of a verifier after every run: what is known of each call, and
that only one call holds it, once it is consumed. -/
structure Sound (rt : Runtime) (challenge : String) (sessions : List (String × Option String))
    (responses : List String) (es : List VerifierEvent) (v : Verifier) : Prop where
  known : ∀ (i : ℕ) (c : Call), v.calls[i]? = some c → rt.Known challenge sessions responses es v i c
  consumed : ∀ (i : ℕ) (c : Call), v.calls[i]? = some c → c.holds = true → v.consumed = true
  single : ∀ (i j : ℕ) (c d : Call), v.calls[i]? = some c → v.calls[j]? = some d → c.holds = true →
    d.holds = true → i = j

/-- A call that does not hold the verifier knows its response at most, whatever
becomes of the verifier's fields. -/
theorem Known.of_not_holds {v v' : Verifier} {c : Call}
    (h : rt.Known challenge sessions responses es v i c) (hc : c.holds = false)
    (ev : VerifierEvent) : rt.Known challenge sessions responses (es ++ [ev]) v' i c := by
  cases c with
  | made response => exact h
  | finished result =>
    cases result with
    | error e => exact trivial
    | ok accepted => cases hc
  | checking sessionId json active => cases hc
  | keying sessionId iv e key => cases hc
  | looking sessionId claim => cases hc

/-- While one call holds the verifier, any other is refused on its first step. -/
theorem Sound.other {v v' : Verifier} {c c' d : Call} {record : Except Thrown String} {j : ℕ}
    (hs : rt.Sound challenge sessions responses es v) (hc : v.calls[i]? = some c)
    (hgo : rt.goOn challenge v record c = some (v', c')) (hj : j ≠ i)
    (hd : v.calls[j]? = some d) (hh : d.holds = true) : v' = v ∧ c'.holds = false := by
  obtain ⟨-, ⟨-, -, hv, hc'⟩ | ⟨-, hfree, -⟩ | ⟨hholds, -⟩⟩ := goOn_cases hgo
  · exact ⟨hv, hc'⟩
  · have hconsumed : v.consumed = true := hs.consumed j d hd hh
    rw [hfree] at hconsumed
    cases hconsumed
  · exact absurd (hs.single j i d c hd hc hh hholds) hj

theorem Sound.resume {v v' : Verifier} {c c' : Call} {record : Except Thrown String}
    (hs : rt.Sound challenge sessions responses es v)
    (hr : (rt.verifier challenge).run (fresh sessions responses) es = some v)
    (hc : v.calls[i]? = some c) (hgo : rt.goOn challenge v record c = some (v', c')) :
    rt.Sound challenge sessions responses (es ++ [.resume i record])
      { v' with calls := v'.calls.set i c' } := by
  obtain ⟨hcalls, hcases⟩ := goOn_cases hgo
  refine ⟨?known, ?consumed, ?single⟩
  case known =>
    intro j d hd
    rw [hcalls] at hd
    rcases getElem?_set_cases hd with ⟨rfl, rfl⟩ | ⟨hj, hd⟩
    · exact (hs.known j c hc).goOn hr hc hgo _
    · have hknown : rt.Known challenge sessions responses es v j d := hs.known j d hd
      cases hh : d.holds with
      | false => exact hknown.of_not_holds hh _
      | true =>
        obtain ⟨rfl, -⟩ := hs.other hc hgo hj hd hh
        exact hknown.later _ rfl rfl rfl rfl
  case consumed =>
    intro j d hd hh
    rw [hcalls] at hd
    change v'.consumed = true
    rcases getElem?_set_cases hd with ⟨rfl, rfl⟩ | ⟨hj, hd⟩
    · obtain ⟨-, -, -, hc'⟩ | ⟨-, -, hconsumed⟩ | ⟨hholds, hsame⟩ := hcases
      · rw [hh] at hc'
        cases hc'
      · exact hconsumed
      · rw [hsame]
        exact hs.consumed j c hc hholds
    · obtain ⟨rfl, -⟩ := hs.other hc hgo hj hd hh
      exact hs.consumed j d hd hh
  case single =>
    intro j k d e hd he hdh heh
    rw [hcalls] at hd he
    rcases getElem?_set_cases hd with ⟨hji, hdc⟩ | ⟨hj, hd⟩
    · rcases getElem?_set_cases he with ⟨hki, -⟩ | ⟨hk, he⟩
      · rw [hji, hki]
      · obtain ⟨-, hc'⟩ := hs.other hc hgo hk he heh
        rw [← hdc, hdh] at hc'
        cases hc'
    · rcases getElem?_set_cases he with ⟨-, hec⟩ | ⟨-, he⟩
      · obtain ⟨-, hc'⟩ := hs.other hc hgo hj hd hdh
        rw [← hec, heh] at hc'
        cases hc'
      · exact hs.single j k d e hd he hdh heh

theorem sound_of_run {v : Verifier}
    (hr : (rt.verifier challenge).run (fresh sessions responses) es = some v) :
    rt.Sound challenge sessions responses es v := by
  refine @Machine.run_induction _ _ (rt.verifier challenge) (fresh sessions responses)
    (fun es v => rt.Sound challenge sessions responses es v) ?_ ?_ es v hr
  · have hmade : ∀ (i : ℕ) (c : Call), (responses.map Call.made)[i]? = some c →
        ∃ response, responses[i]? = some response ∧ Call.made response = c := by
      intro i c hc
      rw [List.getElem?_map] at hc
      exact Option.map_eq_some_iff.mp hc
    refine ⟨fun i c hc => ?_, fun i c hc hh => ?_, fun i j c d hc _ hh _ => ?_⟩
    · obtain ⟨response, hresponse, rfl⟩ := hmade i c hc
      exact hresponse
    · obtain ⟨response, -, rfl⟩ := hmade i c hc
      cases hh
    · obtain ⟨response, -, rfl⟩ := hmade i c hc
      cases hh
  · intro es ev u w hu hs hstep
    cases ev with
    | startSession id key =>
      obtain rfl := Option.some.inj hstep
      split
      all_goals
        exact ⟨fun i c hc => (hs.known i c hc).later _ rfl rfl rfl rfl, hs.consumed, hs.single⟩
    | endSession id =>
      obtain rfl := Option.some.inj hstep
      exact ⟨fun i c hc => (hs.known i c hc).later _ rfl rfl rfl rfl, hs.consumed, hs.single⟩
    | resume call record =>
      obtain ⟨c, hc, hstep⟩ := Option.bind_eq_some_iff.mp hstep
      obtain ⟨⟨v', c'⟩, hgo, rfl⟩ := Option.map_eq_some_iff.mp hstep
      exact hs.resume hu hc hgo

/-- ESCR authentication is sound: a call that returns does so with `true`, after
every check of its own response, and no other call of the verifier returns. -/
theorem verifyChallengeResponse_sound {v : Verifier} {accepted : Bool}
    (hr : (rt.verifier challenge).run (fresh sessions responses) es = some v)
    (hi : v.calls[i]? = some (.finished (.ok accepted))) :
    accepted = true ∧ (∃ (o : Opening) (claim : Claim) (apsk : String),
      rt.Opens challenge sessions responses es i o ∧
        rt.Vouches challenge o.sessionId o.envelopeJson claim ∧
          rt.Looked challenge sessions responses es i o.sessionId claim apsk ∧
            rt.SignedBy claim apsk ∧
              v.sessionId = some o.sessionId ∧ v.isSideA = some claim.isSideA ∧
                v.atSign = some claim.atSign ∧ v.signingKeyUri = some claim.signingKeyUri) ∧
      ∀ j other, v.calls[j]? = some (.finished (.ok other)) → j = i := by
  have hs : rt.Sound challenge sessions responses es v := sound_of_run hr
  obtain ⟨hacc, o, claim, apsk, hopens, hread, hlooked, hverified, hfields⟩ := hs.known i _ hi
  refine ⟨hacc, ⟨o, claim, apsk, hopens, readEnvelope_ok hread, hlooked, verifyClaim_ok hverified,
    hfields⟩, ?_⟩
  intro j other hj
  exact hs.single j i _ _ hj hi rfl rfl

/-- What a call of a run returns, `verifyWith` returns of the answers the call got. -/
theorem verifyWith_of_run {v : Verifier} {accepted : Bool}
    (hr : (rt.verifier challenge).run (fresh sessions responses) es = some v)
    (hi : v.calls[i]? = some (.finished (.ok accepted))) :
    ∃ helper response fields, responses[i]? = some response ∧
      rt.verifyWith challenge helper response = .ok fields ∧
        v.sessionId = some fields.sessionId ∧ v.isSideA = some fields.isSideA ∧
          v.atSign = some fields.atSign ∧ v.signingKeyUri = some fields.signingKeyUri := by
  obtain ⟨-, o, claim, apsk, hopens, hread, -, hverified, hfields⟩ := (sound_of_run hr).known i _ hi
  refine ⟨⟨fun _ => true, fun _ => .ok o.aesKey, fun _ _ => .ok apsk⟩, o.response,
    ⟨o.sessionId, claim.isSideA, claim.atSign, claim.signingKeyUri⟩, hopens.response, ?_, hfields⟩
  rw [verifyWith, hopens.split]
  simp only [ok_bind, Bool.not_true, Bool.false_eq_true, if_false, hopens.outer, hopens.decrypted,
    hread, hverified]
  rfl

/-- What `verifyWith` accepts is vouched for, and signed, as the answers have it. -/
theorem verifyWith_ok {helper : RelayAuthVerifyHelper} {response : String} {fields : EscrFields}
    (h : rt.verifyWith challenge helper response = .ok fields) :
    ∃ claim envelopeJson apsk, helper.isSessionActive fields.sessionId = true ∧
      rt.Vouches challenge fields.sessionId envelopeJson claim ∧
        helper.lookup fields.sessionId claim.signingKeyUri = .ok apsk ∧ rt.SignedBy claim apsk ∧
          fields = ⟨fields.sessionId, claim.isSideA, claim.atSign, claim.signingKeyUri⟩ := by
  obtain ⟨⟨sessionId, json⟩, -, h⟩ := bind_eq_ok.mp h
  obtain ⟨hactive, h⟩ := throwIf_ok.mp h
  obtain ⟨⟨iv, e⟩, -, h⟩ := bind_eq_ok.mp h
  obtain ⟨aesKey, -, h⟩ := bind_eq_ok.mp h
  obtain ⟨envelopeJson, -, h⟩ := bind_eq_ok.mp h
  obtain ⟨claim, hclaim, h⟩ := bind_eq_ok.mp h
  obtain ⟨apsk, hapsk, h⟩ := bind_eq_ok.mp h
  obtain ⟨⟨⟩, hverified, h⟩ := bind_eq_ok.mp h
  obtain rfl := Except.ok.inj h
  exact ⟨claim, envelopeJson, apsk, by simpa using hactive, readEnvelope_ok hclaim, hapsk,
    verifyClaim_ok hverified, rfl⟩

end Runtime

/-! A response of Alice for session `s`, to a relay that issued the challenge `ch`. -/

def sampleOuterJson : String := "\x7b\"iv\":\"aXY=\",\"e\":\"ZQ==\"\x7d"

def samplePayloadJson : String := "\x7b\"sid\":\"s\",\"c\":\"ch\",\"side\":\"a\"\x7d"

def sampleEnvelopeJson : String :=
  "\x7b\"p\":" ++ samplePayloadJson ++ ",\"s\":\"c2ln\",\"ha\":\"sha256\",\"sa\":\"rsa2048\"," ++
    "\"sk\":\"public:_apsk.1.a.__e@alice\"\x7d"

def sampleEnvelope64 : String :=
  "eyJwIjp7InNpZCI6InMiLCJjIjoiY2giLCJzaWRlIjoiYSJ9LCJzIjoiYzJsbiIsImhhIjoic2hhMjU2Iiwic2EiOiJyc" ++
    "2EyMDQ4Iiwic2siOiJwdWJsaWM6X2Fwc2suMS5hLl9fZUBhbGljZSJ9"

def samplePayload : List (String × Json) := [("sid", .str "s"), ("c", .str "ch"), ("side", .str "a")]

def sampleEnvelope : List (String × Json) :=
  [("p", .obj samplePayload), ("s", .str "c2ln"), ("ha", .str "sha256"), ("sa", .str "rsa2048"),
    ("sk", .str "public:_apsk.1.a.__e@alice")]

def sampleResponse : String := "s:eyJpdiI6ImFYWT0iLCJlIjoiWlE9PSJ9"

/-- `jsonDecode`, of these texts. -/
def sampleDecode (text : String) : Except String Json :=
  if text = sampleOuterJson then .ok (.obj [("iv", .str "aXY="), ("e", .str "ZQ==")])
  else if text = sampleEnvelopeJson then .ok (.obj sampleEnvelope)
  else if text = twoRsaKeys then .ok twoRsaKeysDecoded
  else .error "Unexpected character"

/-- A runtime that knows these texts, and in which only the key `new` opens the
envelope. -/
def sampleRuntime : Runtime where
  toSdk := { sampleSdk with
    jsonDecode := sampleDecode
    jsonEncode := fun _ => samplePayloadJson
    base64Decode := fun text =>
      let bytes (s : String) := s.toList.map fun c => UInt8.ofNat c.toNat
      if text = "eyJpdiI6ImFYWT0iLCJlIjoiWlE9PSJ9" then some (bytes sampleOuterJson)
      else if text = sampleEnvelope64 then some (bytes sampleEnvelopeJson)
      else if text = "aXY=" then some (bytes "iv")
      else sampleSdk.base64Decode text }
  aesDecryptString ciphertext key _ :=
    if ciphertext = "ZQ==" ∧ key = "new" then .ok sampleEnvelope64
    else .error "Invalid or corrupted pad block"
  jsonText _ := ""
  toAtsign atSign := some (lowerAscii atSign)

def sampleClaim : Claim :=
  ⟨sampleEnvelope, samplePayload, true, "public:_apsk.1.a.__e@alice", "@alice", .sha256, .rsa2048⟩

theorem splitResponse_sample :
    sampleRuntime.splitResponse sampleResponse = .ok ("s", sampleOuterJson) := by rfl

theorem readOuter_sample : sampleRuntime.readOuter sampleOuterJson = .ok ("aXY=", "ZQ==") := by rfl

set_option maxRecDepth 4000 in
theorem decrypt_sample :
    sampleRuntime.decrypt "aXY=" "ZQ==" "new" = .ok sampleEnvelopeJson := by rfl

theorem readEnvelope_sample :
    sampleRuntime.readEnvelope "ch" "s" sampleEnvelopeJson = .ok sampleClaim := by
  have hdecode : sampleRuntime.jsonDecode sampleEnvelopeJson = .ok (.obj sampleEnvelope) := by
    have hne : sampleEnvelopeJson ≠ sampleOuterJson := by decide
    change sampleDecode sampleEnvelopeJson = _
    rw [sampleDecode, if_neg hne, if_pos rfl]
  rw [Runtime.readEnvelope, hdecode]
  rfl

set_option maxRecDepth 4000 in
theorem advertised_sample : sampleRuntime.advertised "public:_apsk.1.a.__e@alice" twoRsaKeys =
    .ok [⟨"k4", .rsa4096, "cDQ=", true⟩, ⟨"k2", .rsa2048, "cDI=", true⟩] := by rfl

theorem verifyClaim_sample {apsk : String} (h : apsk = twoRsaKeys ∨ apsk = "cDI=") :
    sampleRuntime.verifyClaim sampleClaim apsk = .ok () := by
  have hverify : sampleRuntime.verifyApskSignature "public:_apsk.1.a.__e@alice" apsk
      samplePayloadJson "c2ln" .rsa2048 .sha256 none = .ok () := by
    rcases h with rfl | rfl
    · rw [Sdk.verifyApskSignature, Sdk.activeApskKeys, advertised_sample]
      rfl
    · rfl
  exact Runtime.verifyClaim_of rfl rfl hverify

/-- The session ends, and another of its id starts, between the check and the
fetch of the key. -/
def restarted (apsk : String) : List VerifierEvent :=
  [.resume 0 (.ok ""), .endSession "s", .startSession "s" (some "new"), .resume 0 (.ok ""),
    .resume 0 (.ok ""), .resume 0 (.ok apsk)]

def acceptedVerifier : Verifier :=
  ⟨[("s", some "new")], true, some "s", some true, some "@alice",
    some "public:_apsk.1.a.__e@alice", [.finished (.ok true)]⟩

/-- The verifier while that response is under way. -/
def sampleVerifier (key : String) (c : Call) : Verifier :=
  ⟨[("s", some key)], true, some "s", none, none, none, [c]⟩

theorem step_made_sample (key : String) : (sampleRuntime.verifier "ch").step
    (Runtime.fresh [("s", some key)] [sampleResponse]) (.resume 0 (.ok "")) =
      some (sampleVerifier key (.checking "s" sampleOuterJson true)) := by
  refine Runtime.step_resume (sampleVerifier key (.made sampleResponse)) rfl ?_
  change some (sampleRuntime.onResponse _ sampleResponse) = _
  rw [Runtime.onResponse, splitResponse_sample]
  rfl

theorem step_checking_sample : (sampleRuntime.verifier "ch").step
    (sampleVerifier "new" (.checking "s" sampleOuterJson true)) (.resume 0 (.ok "")) =
      some (sampleVerifier "new" (.keying "s" "aXY=" "ZQ==" (.ok "new"))) := by
  refine Runtime.step_resume (sampleVerifier "new" (.checking "s" sampleOuterJson true)) rfl ?_
  change some (sampleRuntime.onActive _ "s" sampleOuterJson true) = _
  rw [Runtime.onActive, readOuter_sample]
  rfl

/-- The verifier at the lookup of the record. -/
def lookingVerifier : Verifier :=
  { acceptedVerifier with signingKeyUri := none, calls := [.looking "s" sampleClaim] }

theorem step_keying_sample : (sampleRuntime.verifier "ch").step
    (sampleVerifier "new" (.keying "s" "aXY=" "ZQ==" (.ok "new"))) (.resume 0 (.ok "")) =
      some lookingVerifier := by
  refine Runtime.step_resume { sampleVerifier "new" (.keying "s" "aXY=" "ZQ==" (.ok "new")) with
    isSideA := some true, atSign := some "@alice" } rfl ?_
  change some (sampleRuntime.onAesKey "ch" _ "s" "aXY=" "ZQ==" (.ok "new")) = _
  rw [Runtime.onAesKey, ok_bind, decrypt_sample, ok_bind, readEnvelope_sample]
  rfl

theorem step_looking_sample {apsk : String} (h : apsk = twoRsaKeys ∨ apsk = "cDI=") :
    (sampleRuntime.verifier "ch").step lookingVerifier (.resume 0 (.ok apsk)) =
      some acceptedVerifier := by
  refine Runtime.step_resume { acceptedVerifier with calls := [.looking "s" sampleClaim] } rfl ?_
  change some (sampleRuntime.onRecord _ sampleClaim (.ok apsk)) = _
  rw [Runtime.onRecord, ok_bind, verifyClaim_sample h]
  rfl

theorem run_restarted {apsk : String} (h : apsk = twoRsaKeys ∨ apsk = "cDI=") :
    (sampleRuntime.verifier "ch").run (Runtime.fresh [("s", some "old")] [sampleResponse])
      (restarted apsk) = some acceptedVerifier := by
  have hend : (sampleRuntime.verifier "ch").step
      (sampleVerifier "old" (.checking "s" sampleOuterJson true)) (.endSession "s") =
        some { sampleVerifier "old" (.checking "s" sampleOuterJson true) with sessions := [] } := rfl
  have hstart : (sampleRuntime.verifier "ch").step
      { sampleVerifier "old" (.checking "s" sampleOuterJson true) with sessions := [] }
      (.startSession "s" (some "new")) =
        some (sampleVerifier "new" (.checking "s" sampleOuterJson true)) := rfl
  rw [restarted, Machine.run_step _ (step_made_sample "old"), Machine.run_step _ hend,
    Machine.run_step _ hstart, Machine.run_step _ step_checking_sample,
    Machine.run_step _ step_keying_sample, Machine.run_step _ (step_looking_sample h),
    Machine.run_nil]

/-- A response is accepted under the key of a session that started after the
check, and under RSA-2048 beside an active key of a stronger algorithm. -/
theorem verifyChallengeResponse_restarted :
    ∃ v, (sampleRuntime.verifier "ch").run (Runtime.fresh [("s", some "old")] [sampleResponse])
        (restarted twoRsaKeys) = some v ∧ v.calls[0]? = some (.finished (.ok true)) ∧
      (∃ e, sampleRuntime.decrypt "aXY=" "ZQ==" "old" = .error e) ∧
      ∃ keys, sampleRuntime.advertised "public:_apsk.1.a.__e@alice" twoRsaKeys = .ok keys ∧
        ∃ k ∈ keys, k.offeredForNewOperations = true ∧
          sampleRuntime.rank sampleClaim.signingAlgo < sampleRuntime.rank k.alg := by
  refine ⟨acceptedVerifier, run_restarted (Or.inl rfl), rfl, ⟨_, rfl⟩, _, advertised_sample,
    ⟨"k4", .rsa4096, "cDQ=", true⟩, List.mem_cons_self, rfl, ?_⟩
  decide

/-- A run that ends in an acceptance, whose record is a bare key. -/
theorem verifyChallengeResponse_sound_restarted : true = true ∧
    (∃ (o : Runtime.Opening) (claim : Claim) (apsk : String),
      sampleRuntime.Opens "ch" [("s", some "old")] [sampleResponse] (restarted "cDI=") 0 o ∧
        sampleRuntime.Vouches "ch" o.sessionId o.envelopeJson claim ∧
          sampleRuntime.Looked "ch" [("s", some "old")] [sampleResponse] (restarted "cDI=") 0
            o.sessionId claim apsk ∧
            sampleRuntime.SignedBy claim apsk ∧
              acceptedVerifier.sessionId = some o.sessionId ∧
                acceptedVerifier.isSideA = some claim.isSideA ∧
                  acceptedVerifier.atSign = some claim.atSign ∧
                    acceptedVerifier.signingKeyUri = some claim.signingKeyUri) ∧
      ∀ j other, acceptedVerifier.calls[j]? = some (.finished (.ok other)) → j = 0 :=
  Runtime.verifyChallengeResponse_sound (run_restarted (Or.inr rfl)) rfl

end NoPorts.Srvd
