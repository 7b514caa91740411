import NoPorts.RelayMessages
import NoPorts.SinglePortWorker
import NoPorts.Lib.Calls

/-! The mode in which each side of a session authenticates to the relay: what the client chooses, what it asks of
the daemon, and what it tells the relay. -/
namespace NoPorts.RelayMessages
open Lib ClientResponses
open Srvd (RelayAuthMode)
open SshnpdRequests hiding Runtime RelayAuthMode

/-! ### srvd_channel.dart -/

/-- The parameters of a client that its relay channel reads; `port443` is what their constructor asserts. -/
structure ChannelParams where
  clientAtSign : String
  sshnpdAtSign : String
  relayAuthMode : RelayAuthMode
  relayAuthModeExplicit : Bool
  only443 : Bool
  authenticateClientToRvd : Bool
  authenticateDeviceToRvd : Bool
  port443 : only443 = true →
    relayAuthMode = .escr ∧ authenticateClientToRvd = true ∧ authenticateDeviceToRvd = true

def effectiveRelayAuthMode (preference : RelayAuthMode)
    (autoDetect peerSupportsEscr only443 prescribed : Bool) : RelayAuthMode :=
  if only443 then .escr
  else if prescribed then
    if preference = .escr ∧ !peerSupportsEscr then .payload else preference
  else if !autoDetect then .payload
  else if preference = .escr ∧ peerSupportsEscr then .escr
  else .payload

def escrRequestedButUnreconcilable
    (explicitEscr only443 authenticateDeviceToRvd autoDetect daemonSupportsEscr : Bool) : Bool :=
  if !authenticateDeviceToRvd || daemonSupportsEscr then false
  else only443 || (explicitEscr && !autoDetect)

namespace ChannelParams
variable (p : ChannelParams)

def mode (autoDetect peerSupportsEscr : Bool) : RelayAuthMode :=
  effectiveRelayAuthMode p.relayAuthMode autoDetect peerSupportsEscr p.only443 p.relayAuthModeExplicit

/-- The client's own, as `runSrv` has it. -/
def sideAMode (autoDetect : Bool) : RelayAuthMode := p.mode autoDetect true

def daemonRelayAuthMode (autoDetect daemonSupportsEscr : Bool) : RelayAuthMode :=
  p.mode autoDetect daemonSupportsEscr

/-- `generated` is what `generateAes256Key` gives. -/
def relayAuthAesKey (generated : String) : Option String :=
  match p.relayAuthMode with
  | .payload => none
  | .escr => some generated

/-- The request of `getHostAndPortFromSrvd`, made before anything is known of the relay. -/
def relayRequest (sessionId clientNonce generated : String) (preFetch : List String) : RelayRequest where
  sessionId := sessionId
  atSignA := p.clientAtSign
  atSignB := p.sshnpdAtSign
  authenticateSocketA := p.authenticateClientToRvd
  authenticateSocketB := p.authenticateDeviceToRvd
  clientNonce := clientNonce
  relayAuthMode := p.mode false true
  relayAuthAesKey := p.relayAuthAesKey generated
  only443 := p.only443
  multipleAcksOk := true
  preFetch := preFetch
  sendJsonResponse := true

/-- What `sendDefinitiveAuthModes` sends, if it sends anything. -/
def definitiveAuthModes (sessionId : String) (r : RelayResponse) (daemonSupportsEscr : Bool) :
    Option (List (String × Json)) :=
  if r.autoDetectsRelayAuth then
    some [("sessionId", .str sessionId), ("rvdNonce", .str r.rvdNonce),
      ("sideA", .str (modeName (p.sideAMode r.autoDetectsRelayAuth))),
      ("sideB", .str (modeName (p.daemonRelayAuthMode r.autoDetectsRelayAuth daemonSupportsEscr)))]
  else none

/-- The request that `_preRun` makes for the daemon; in `rest`, what the channel does not decide. -/
def sessionRequest (sessionId clientNonce generated : String) (r : RelayResponse) (daemonSupportsEscr : Bool)
    (rest : NptSessionRequest) : NptSessionRequest :=
  { rest with
    sessionId
    rvdHost := r.address
    rvdPort := r.portB
    authenticateToRvd := p.authenticateDeviceToRvd
    relayAuthMode := requestMode (p.daemonRelayAuthMode r.autoDetectsRelayAuth daemonSupportsEscr)
    relayAuthAesKey := p.relayAuthAesKey generated
    clientNonce
    rvdNonce := r.rvdNonce }

/-- The check of `initialize`, by which a session is rejected. -/
def unreconcilable (autoDetect daemonSupportsEscr : Bool) : Bool :=
  escrRequestedButUnreconcilable (p.relayAuthModeExplicit && p.relayAuthMode == .escr) p.only443
    p.authenticateDeviceToRvd autoDetect daemonSupportsEscr

end ChannelParams

/-! ### srvd_impl.dart -/

/-- What is sent to the worker of a session, which a session on port 443 has not. -/
def forwarded (sameAtsign : String → String → Bool) (sender : String) (decoded : List (String × Json))
    (si : SessionParams) : Option (SessionParams × Json × Json) :=
  if !sameAtsign sender si.atSignA then none
  -- another instance of the relay may have been chosen
  else if (Json.field decoded "rvdNonce").str? ≠ some si.rvdNonce then none
  else if si.only443 then none
  else some (si, Json.field decoded "sideA", Json.field decoded "sideB")

def handleAuthModes (sameAtsign : String → String → Bool) (sessions : String → Option SessionParams)
    (sender : String) (decoded : List (String × Json)) : Except Thrown (Option (SessionParams × Json × Json)) := do
  let sessionId ← castNullable (Json.field decoded "sessionId").str? (Json.field decoded "sessionId")
  return (sessionId.bind sessions).bind (forwarded sameAtsign sender decoded)

/-! ### port_pair_isolate.dart -/

/-- `_authVerifier?.setKnownMode(byName(side))`, of the side that is `isSideA`. -/
def setKnownMode (authenticates isSideA : Bool) (side : Option String) :
    Calling (Bool × RelayAuthMode) Thrown Unit :=
  match side with
  | none => pure ()
  | some name =>
    -- a side without a verifier has its name left unread
    if authenticates then do
      let m ← Calling.ofExcept (modeByName name)
      Calling.call (isSideA, m) (.ok ())
    else pure ()

/-- The worker's `handleAuthModes`, and the calls of `setKnownMode` it makes. -/
def workerAuthModes (params : SessionParams) (sideA sideB : Json) : Calling (Bool × RelayAuthMode) Thrown Unit := do
  let a ← Calling.ofExcept (castNullable sideA.str? sideA)
  let b ← Calling.ofExcept (castNullable sideB.str? sideB)
  setKnownMode params.authenticateSocketA true a
  setKnownMode params.authenticateSocketB false b

/-- The hints that an instance of the relay makes of what it is sent. -/
def hints (sameAtsign : String → String → Bool) (sessions : String → Option SessionParams) (sender : String)
    (decoded : List (String × Json)) : List (Bool × RelayAuthMode) :=
  match handleAuthModes sameAtsign sessions sender decoded with
  | .ok (some (si, sideA, sideB)) => (workerAuthModes si sideA sideB []).2
  | _ => []

/-! ### What the sides use -/

section modes
variable {p : ChannelParams} {autoDetect daemonSupportsEscr : Bool}

/-- On port 443 both sides use ESCR, and so does the request. -/
theorem mode_port443 (h : p.only443 = true) (peerSupportsEscr : Bool) :
    p.mode autoDetect peerSupportsEscr = .escr := by
  rw [ChannelParams.mode, effectiveRelayAuthMode, if_pos h]

/-- ESCR is used only by a client that prefers it. -/
theorem preference_of_escr {peerSupportsEscr : Bool} (h : p.mode autoDetect peerSupportsEscr = .escr) :
    p.relayAuthMode = .escr := by
  cases h443 : p.only443 with
  | true => exact (p.port443 h443).1
  | false =>
    by_contra hne
    have hpayload : p.relayAuthMode = .payload := by
      cases hm : p.relayAuthMode with
      | payload => rfl
      | escr => exact absurd hm hne
    rw [ChannelParams.mode, h443, hpayload] at h
    cases hp : p.relayAuthModeExplicit <;> cases autoDetect <;> rw [hp] at h <;> cases h

/-- Away from port 443, a side that cannot do ESCR is not asked to. -/
theorem payload_of_incapable (h443 : p.only443 = false) : p.mode autoDetect false = .payload := by
  rw [ChannelParams.mode, effectiveRelayAuthMode, h443, if_neg Bool.false_ne_true]
  cases hp : p.relayAuthModeExplicit with
  | true =>
    rw [if_pos rfl]
    cases hm : p.relayAuthMode with
    | payload => rfl
    | escr => rfl
  | false =>
    rw [if_neg Bool.false_ne_true]
    cases autoDetect with
    | true => simp
    | false => rfl

/-- A daemon that must authenticate is asked for ESCR only if it supports it, or the session is rejected. -/
theorem daemon_supports (hauth : p.authenticateDeviceToRvd = true)
    (hrejected : p.unreconcilable autoDetect daemonSupportsEscr = false)
    (hescr : p.daemonRelayAuthMode autoDetect daemonSupportsEscr = .escr) : daemonSupportsEscr = true := by
  cases hd : daemonSupportsEscr with
  | true => rfl
  | false =>
    rw [hd] at hrejected hescr
    cases h443 : p.only443 with
    | true =>
      rw [ChannelParams.unreconcilable, hauth, h443] at hrejected
      cases hrejected
    | false =>
      have hpayload : p.mode autoDetect false = .payload := payload_of_incapable h443
      rw [ChannelParams.daemonRelayAuthMode, hpayload] at hescr
      cases hescr

/-- A relay that does not detect the mode of a side is told the mode of both. -/
theorem declared_of_session_wide (hauth : p.authenticateDeviceToRvd = true)
    (hrejected : p.unreconcilable false daemonSupportsEscr = false) :
    p.daemonRelayAuthMode false daemonSupportsEscr = p.mode false true := by
  cases hd : daemonSupportsEscr with
  | true => rfl
  | false =>
    rw [hd] at hrejected
    rw [ChannelParams.unreconcilable, hauth] at hrejected
    have hopen : p.only443 = false ∧ (p.relayAuthModeExplicit && p.relayAuthMode == .escr) = false := by
      simpa [escrRequestedButUnreconcilable] using hrejected
    obtain ⟨h443, hexplicit⟩ := hopen
    rw [ChannelParams.daemonRelayAuthMode, payload_of_incapable h443, ChannelParams.mode,
      effectiveRelayAuthMode, h443, if_neg Bool.false_ne_true]
    cases hp : p.relayAuthModeExplicit with
    | false => rfl
    | true =>
      cases hm : p.relayAuthMode with
      | payload => rfl
      | escr =>
        rw [hp, hm] at hexplicit
        cases hexplicit

end modes

/-! ### What the relay is told -/

/-- What the relay keeps of the client's request: its params, with the keys it has fetched. -/
def Recorded (request : RelayRequest) (rvdNonce : String) (si : SessionParams) : Prop :=
  ∃ a b, si = { request.params rvdNonce with publicKeyA := a, publicKeyB := b }

/-- The effects of one `setKnownMode`. -/
theorem setKnownMode_snd (authenticates isSideA : Bool) (m : RelayAuthMode)
    (calls : List (Bool × RelayAuthMode)) :
    setKnownMode authenticates isSideA (some (modeName m)) calls =
      (.ok (), calls ++ if authenticates then [(isSideA, m)] else []) := by
  cases authenticates with
  | false =>
    rw [if_neg Bool.false_ne_true, List.append_nil]
    rfl
  | true =>
    rw [setKnownMode, if_pos rfl, if_pos rfl, Calling.ofExcept_bind (modeByName_modeName m)]
    rfl

theorem workerAuthModes_snd (si : SessionParams) (a b : RelayAuthMode) :
    (workerAuthModes si (.str (modeName a)) (.str (modeName b)) []).2 =
      (if si.authenticateSocketA then [(true, a)] else []) ++
        if si.authenticateSocketB then [(false, b)] else [] := by
  have hread : ∀ m : RelayAuthMode, castNullable (Json.str (modeName m)).str? (Json.str (modeName m)) =
      .ok (some (modeName m)) := fun _ => rfl
  rw [workerAuthModes, Calling.ofExcept_bind (hread a), Calling.ofExcept_bind (hread b),
    Calling.bind_ok (setKnownMode_snd si.authenticateSocketA true a []), setKnownMode_snd,
    List.nil_append]

section hints
variable {p : ChannelParams} {sessionId clientNonce generated rvdNonce sender : String}
  {preFetch : List String} {si : SessionParams} {r : RelayResponse} {daemonSupportsEscr : Bool}
  {sameAtsign : String → String → Bool} {sessions : String → Option SessionParams}
  {decoded : List (String × Json)}

theorem forwarded_eq (hsame : sameAtsign sender si.atSignA = true)
    (hnonce : (Json.field decoded "rvdNonce").str? = some si.rvdNonce) (h443 : si.only443 = false) :
    forwarded sameAtsign sender decoded si =
      some (si, Json.field decoded "sideA", Json.field decoded "sideB") := by
  have hsender : ¬(!sameAtsign sender si.atSignA) = true := by
    rw [hsame]
    decide
  have hworker : ¬si.only443 = true := by
    rw [h443]
    exact Bool.false_ne_true
  rw [forwarded, if_neg hsender, if_neg (not_not.mpr hnonce), if_neg hworker]

/-- The instance that has answered the client takes from it the modes of the sides that authenticate. -/
theorem hints_definitiveAuthModes
    (hsi : Recorded (p.relayRequest sessionId clientNonce generated preFetch) rvdNonce si)
    (hsession : sessions sessionId = some si) (hsender : sameAtsign sender p.clientAtSign = true)
    (hnonce : r.rvdNonce = rvdNonce) (h443 : p.only443 = false)
    (hsent : p.definitiveAuthModes sessionId r daemonSupportsEscr = some decoded) :
    hints sameAtsign sessions sender decoded =
      (if p.authenticateClientToRvd then [(true, p.sideAMode r.autoDetectsRelayAuth)] else []) ++
        if p.authenticateDeviceToRvd then
          [(false, p.daemonRelayAuthMode r.autoDetectsRelayAuth daemonSupportsEscr)] else [] := by
  obtain ⟨a, b, rfl⟩ := hsi
  unfold ChannelParams.definitiveAuthModes at hsent
  split at hsent
  · cases hsent
    have hhandled : handleAuthModes sameAtsign sessions sender
        [("sessionId", .str sessionId), ("rvdNonce", .str r.rvdNonce),
          ("sideA", .str (modeName (p.sideAMode r.autoDetectsRelayAuth))),
          ("sideB", .str (modeName (p.daemonRelayAuthMode r.autoDetectsRelayAuth daemonSupportsEscr)))] =
        .ok (some ({ (p.relayRequest sessionId clientNonce generated preFetch).params rvdNonce with
          publicKeyA := a, publicKeyB := b },
          .str (modeName (p.sideAMode r.autoDetectsRelayAuth)),
          .str (modeName (p.daemonRelayAuthMode r.autoDetectsRelayAuth daemonSupportsEscr)))) := by
      change Except.ok (((some sessionId).bind sessions).bind (forwarded sameAtsign sender _)) = _
      have hnonce' : (Json.str r.rvdNonce).str? = some rvdNonce := congrArg some hnonce
      rw [Option.bind_some, hsession, Option.bind_some,
        forwarded_eq (by exact hsender) (by exact hnonce') (by exact h443)]
      rfl
    rw [hints, hhandled]
    exact workerAuthModes_snd _ _ _
  · cases hsent

/-- A session on port 443 has no worker to take hints. -/
theorem hints_of_port443 (hsession : sessions sessionId = some si) (h443 : si.only443 = true)
    (hsent : p.definitiveAuthModes sessionId r daemonSupportsEscr = some decoded) :
    hints sameAtsign sessions sender decoded = [] := by
  unfold ChannelParams.definitiveAuthModes at hsent
  split at hsent
  · cases hsent
    have hnone : ∀ decoded, forwarded sameAtsign sender decoded si = none := by
      intro decoded
      rw [forwarded, if_pos h443, ite_self, ite_self]
    have hhandled : handleAuthModes sameAtsign sessions sender
        [("sessionId", .str sessionId), ("rvdNonce", .str r.rvdNonce),
          ("sideA", .str (modeName (p.sideAMode r.autoDetectsRelayAuth))),
          ("sideB", .str (modeName (p.daemonRelayAuthMode r.autoDetectsRelayAuth daemonSupportsEscr)))] =
        .ok none := by
      change Except.ok (((some sessionId).bind sessions).bind (forwarded sameAtsign sender _)) = _
      rw [Option.bind_some, hsession, Option.bind_some, hnone]
    rw [hints, hhandled]
  · cases hsent

theorem castNullable_some {α : Type} {v : Option α} {json : Json} {a : α}
    (h : castNullable v json = .ok (some a)) : v = some a := by
  unfold castNullable at h
  split at h
  · cases h
  · cases v with
    | none => cases h
    | some b =>
      cases h
      rfl

/-- Hints are of a session that the instance has, from its client, with the nonce that the instance gave it. -/
theorem session_of_hints (h : hints sameAtsign sessions sender decoded ≠ []) :
    ∃ id si, (Json.field decoded "sessionId").str? = some id ∧ sessions id = some si ∧
      sameAtsign sender si.atSignA = true ∧ (Json.field decoded "rvdNonce").str? = some si.rvdNonce := by
  unfold hints at h
  split at h
  · rename_i si sideA sideB hhandled
    unfold handleAuthModes at hhandled
    obtain ⟨named, hnamed, hhandled⟩ := bind_eq_ok.mp hhandled
    obtain ⟨found, hsession, hforwarded⟩ := Option.bind_eq_some_iff.mp (Except.ok.inj hhandled)
    obtain ⟨id, hid, hfound⟩ := Option.bind_eq_some_iff.mp hsession
    have hread : (Json.field decoded "sessionId").str? = some id := by
      rw [hid] at hnamed
      exact castNullable_some hnamed
    unfold forwarded at hforwarded
    split at hforwarded
    · cases hforwarded
    · rename_i hsame
      split at hforwarded
      · cases hforwarded
      · rename_i hnonce
        exact ⟨id, found, hread, hfound, by simpa using hsame, not_not.mp hnonce⟩
  · exact absurd rfl h

/-- The mode of a side. -/
def ChannelParams.used (p : ChannelParams) (autoDetect daemonSupportsEscr isSideA : Bool) : RelayAuthMode :=
  if isSideA then p.sideAMode autoDetect else p.daemonRelayAuthMode autoDetect daemonSupportsEscr

def ChannelParams.authenticates (p : ChannelParams) (isSideA : Bool) : Bool :=
  if isSideA then p.authenticateClientToRvd else p.authenticateDeviceToRvd

/-- What the instance that answered has been told of a side is the mode that the side uses. -/
theorem used_of_hints {isSideA : Bool} {m : RelayAuthMode}
    (hsi : Recorded (p.relayRequest sessionId clientNonce generated preFetch) rvdNonce si)
    (hsession : sessions sessionId = some si) (hsender : sameAtsign sender p.clientAtSign = true)
    (hnonce : r.rvdNonce = rvdNonce) (hsent : p.definitiveAuthModes sessionId r daemonSupportsEscr = some decoded)
    (hmem : (isSideA, m) ∈ hints sameAtsign sessions sender decoded) :
    p.authenticates isSideA = true ∧ m = p.used r.autoDetectsRelayAuth daemonSupportsEscr isSideA := by
  cases h443 : p.only443 with
  | true =>
    -- the session has no worker to send hints to
    exfalso
    have hnone : hints sameAtsign sessions sender decoded = [] := by
      apply hints_of_port443 hsession _ hsent
      obtain ⟨a, b, rfl⟩ := hsi
      exact h443
    rw [hnone] at hmem
    cases hmem
  | false =>
    rw [hints_definitiveAuthModes hsi hsession hsender hnonce h443 hsent] at hmem
    rcases List.mem_append.mp hmem with hmem | hmem
    · cases hauth : p.authenticateClientToRvd with
      | true =>
        rw [hauth, if_pos rfl] at hmem
        cases List.mem_singleton.mp hmem
        exact ⟨hauth, rfl⟩
      | false =>
        rw [hauth, if_neg Bool.false_ne_true] at hmem
        cases hmem
    · cases hauth : p.authenticateDeviceToRvd with
      | true =>
        rw [hauth, if_pos rfl] at hmem
        cases List.mem_singleton.mp hmem
        exact ⟨hauth, rfl⟩
      | false =>
        rw [hauth, if_neg Bool.false_ne_true] at hmem
        cases hmem

/-- The client, the daemon and the relay are agreed on a session: the relay has answered with `r` and keeps `si`
of it, and `generated` is the client's key. -/
structure Reconciled (p : ChannelParams) (sameAtsign : String → String → Bool)
    (sessionId clientNonce generated : String) (r : RelayResponse) (daemonSupportsEscr : Bool) (si : SessionParams) :
    Prop where
  /-- From the client, an instance that has answered and detects the mode of a side takes it, and no other. -/
  detected : ∀ sessions sender decoded, sessions sessionId = some si → sameAtsign sender p.clientAtSign = true →
    p.definitiveAuthModes sessionId r daemonSupportsEscr = some decoded → ∀ isSideA m,
      ((isSideA, m) ∈ hints sameAtsign sessions sender decoded ↔
        p.only443 = false ∧ p.authenticates isSideA = true ∧
          m = p.used r.autoDetectsRelayAuth daemonSupportsEscr isSideA)
  /-- It takes nothing of the session from anyone else, whatever is sent. -/
  ownClient : ∀ sessions sender decoded, sessions sessionId = some si →
    (Json.field decoded "sessionId").str? = some sessionId → hints sameAtsign sessions sender decoded ≠ [] →
      sameAtsign sender p.clientAtSign = true
  /-- Another instance, whose nonce for the session is another, takes nothing of what the client sends. -/
  otherInstance : ∀ sessions sender decoded, (∀ other, sessions sessionId = some other → other.rvdNonce ≠ r.rvdNonce) →
    p.definitiveAuthModes sessionId r daemonSupportsEscr = some decoded → hints sameAtsign sessions sender decoded = []
  /-- An instance that does not detect the mode, or not on port 443, has been told it in the request. -/
  declared : r.autoDetectsRelayAuth = false ∨ p.only443 = true → ∀ isSideA, p.authenticates isSideA = true →
    p.used r.autoDetectsRelayAuth daemonSupportsEscr isSideA = si.relayAuthMode
  supported : p.authenticateDeviceToRvd = true →
    p.used r.autoDetectsRelayAuth daemonSupportsEscr false = .escr → daemonSupportsEscr = true
  /-- What the daemon reads of the client's request. -/
  requested : ∀ rest req, NptSessionRequest.fromJson (nptRequestJson
      (p.sessionRequest sessionId clientNonce generated r daemonSupportsEscr rest)) = .ok req →
    req.authenticateToRvd = p.authenticates false ∧
      req.relayAuthMode = requestMode (p.used r.autoDetectsRelayAuth daemonSupportsEscr false) ∧
      req.relayAuthAesKey = si.relayAuthAesKey
  /-- The key with which a side in ESCR encrypts is the relay's. -/
  keyed : ∀ isSideA, p.used r.autoDetectsRelayAuth daemonSupportsEscr isSideA = .escr →
    p.relayAuthAesKey generated = some generated ∧ si.relayAuthAesKey = some generated
  startable : si.only443 = true → Srvd.whyRefused si.toSrvdSessionParams = none

/-- Unless the client rejects the session, the mode that each side authenticates with is one it supports, has the
key for and the relay takes it to use, whichever relay has answered and whatever is preferred. -/
theorem reconciled_of_accepted
    (hsi : Recorded (p.relayRequest sessionId clientNonce generated preFetch) rvdNonce si)
    (hnonce : r.rvdNonce = rvdNonce)
    (haccepted : p.unreconcilable r.autoDetectsRelayAuth daemonSupportsEscr = false) :
    Reconciled p sameAtsign sessionId clientNonce generated r daemonSupportsEscr si := by
  have hsi' := hsi
  obtain ⟨a, b, rfl⟩ := hsi'
  refine ⟨?detected, ?ownClient, ?otherInstance, ?declared, ?supported, ?requested, ?keyed, ?startable⟩
  case detected =>
    intro sessions sender decoded hsession hsender hsent isSideA m
    constructor
    · intro hmem
      refine ⟨?_, used_of_hints hsi hsession hsender hnonce hsent hmem⟩
      cases h443 : p.only443 with
      | false => rfl
      | true =>
        rw [hints_of_port443 hsession h443 hsent] at hmem
        cases hmem
    · rintro ⟨h443, hauth, rfl⟩
      rw [hints_definitiveAuthModes hsi hsession hsender hnonce h443 hsent, List.mem_append]
      cases isSideA with
      | true =>
        left
        rw [if_pos (show p.authenticateClientToRvd = true from hauth)]
        exact List.mem_singleton.mpr rfl
      | false =>
        right
        rw [if_pos (show p.authenticateDeviceToRvd = true from hauth)]
        exact List.mem_singleton.mpr rfl
  case ownClient =>
    intro sessions sender decoded hsession hnamed hhints
    obtain ⟨id, other, hid, hother, hsame, -⟩ := session_of_hints hhints
    obtain rfl := Option.some.inj (hnamed.symm.trans hid)
    obtain rfl := Option.some.inj (hsession.symm.trans hother)
    exact hsame
  case otherInstance =>
    intro sessions sender decoded hother hsent
    by_contra hhints
    obtain ⟨id, si, hid, hsession, -, hgave⟩ := session_of_hints hhints
    unfold ChannelParams.definitiveAuthModes at hsent
    split at hsent
    · cases hsent
      obtain rfl := Option.some.inj hid
      exact hother si hsession (Option.some.inj hgave).symm
    · cases hsent
  case declared =>
    rintro (hdetect | h443) isSideA hauth
    · rw [hdetect] at haccepted ⊢
      cases isSideA with
      | true => rfl
      | false => exact declared_of_session_wide hauth haccepted
    · have hrecorded : p.mode false true = .escr := mode_port443 h443 true
      cases isSideA with
      | true => exact (mode_port443 h443 true).trans hrecorded.symm
      | false => exact (mode_port443 h443 daemonSupportsEscr).trans hrecorded.symm
  case supported => exact fun hauth hescr => daemon_supports hauth haccepted hescr
  case requested =>
    intro rest req hread
    obtain ⟨rfl, -⟩ := nptRequest_of_fromJson hread
    exact ⟨rfl, rfl, rfl⟩
  case keyed =>
    intro isSideA hescr
    have hprefers : p.relayAuthMode = .escr := by
      cases isSideA with
      | true => exact preference_of_escr hescr
      | false => exact preference_of_escr hescr
    have hkey : p.relayAuthAesKey generated = some generated := by
      rw [ChannelParams.relayAuthAesKey, hprefers]
    exact ⟨hkey, hkey⟩
  case startable =>
    intro h443
    obtain ⟨-, hclient, hdevice⟩ := p.port443 h443
    have hmode : p.mode false true = .escr := mode_port443 h443 true
    change (if p.mode false true = .payload then _
      else if !(p.authenticateClientToRvd && p.authenticateDeviceToRvd) then _ else none) = none
    rw [hmode, hclient, hdevice]
    rfl

end hints

/-! ESCR is preferred, but the daemon has yet to learn it. -/

def sampleChannel : ChannelParams where
  clientAtSign := "@alice"
  sshnpdAtSign := "@daemon"
  relayAuthMode := .escr
  relayAuthModeExplicit := false
  only443 := false
  authenticateClientToRvd := true
  authenticateDeviceToRvd := true
  port443 := nofun

def sampleParams : SessionParams :=
  { (sampleChannel.relayRequest "1" "c" "key" []).params "n" with publicKeyA := some "pk" }

theorem reconciled_of_accepted_sample :
    Reconciled sampleChannel (fun a b => a == b) "1" "c" "key" ⟨"ip", 1, 2, "n", true, true⟩ false sampleParams := by
  have hrecorded : Recorded (sampleChannel.relayRequest "1" "c" "key" []) "n" sampleParams :=
    ⟨some "pk", none, rfl⟩
  have hnonce : (⟨"ip", 1, 2, "n", true, true⟩ : RelayResponse).rvdNonce = "n" := rfl
  have haccepted : sampleChannel.unreconcilable true false = false := by decide
  exact reconciled_of_accepted hrecorded hnonce haccepted

end NoPorts.RelayMessages
