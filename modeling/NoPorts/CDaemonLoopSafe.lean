import NoPorts.CDaemonLoop
import NoPorts.CDaemonSessionTable
import NoPorts.EnrollmentSignatureAgreement

/-! No session without permission: whatever comes in, srv is started only for a
request that passed every check in the iteration that starts it. -/
namespace NoPorts.CDaemon
open Lib Signing

/-- The envelope's signature verifies under the public key found for the atSign. -/
def DaemonLibraries.SignedBy (lib : DaemonLibraries) (answers : Answers) (envelope : Json)
    (atsign : String) : Prop :=
  ∃ keyText publicKey payload signature raw, answers.getPublicKey atsign = some keyText ∧
    lib.populatePublicKey keyText = some publicKey ∧
    getObjectItem envelope "payload" = some payload ∧
    getStringValue (getObjectItem envelope "signature") = some signature ∧
    lib.base64Decode signature = some raw ∧
    lib.rsaVerify publicKey .sha256 (lib.printUnformatted payload)
      ((DaemonLibraries.signatureBuffer keyText raw).take 256) = true

/-- 8-4-4-4-12 hexadecimal digits -/
def UuidShaped (id : String) : Prop :=
  id.toList.length = 36 ∧ ∀ c i, id.toList[i]? = some c →
    if i = 8 ∨ i = 13 ∨ i = 18 ∨ i = 23 then c = '-' else isXdigit c = true

/-- A member that holds a port. -/
def HoldsPort (payload : Option Json) (name : String) : Prop :=
  ∃ port : ℕ, getNumberValue (getObjectItem payload name) = some (port : ℚ) ∧ 1 ≤ port ∧
    port ≤ 65535

def HoldsText (payload : Option Json) (name : String) : Prop :=
  ∃ text, getStringValue (getObjectItem payload name) = some text

/-- What a request of each kind must hold besides a session id. -/
def ValidPayload (payload : Option Json) : PayloadType → Prop
  | .ssh => isTrue (getObjectItem payload "direct") = true ∧ HoldsText payload "host" ∧
      HoldsPort payload "port"
  | .npt => HoldsText payload "rvdHost" ∧ HoldsPort payload "rvdPort" ∧
      HoldsText payload "requestedHost" ∧ HoldsPort payload "requestedPort"

structure ValidContents (envelope : Json) (type : PayloadType) (sessionId : String) : Prop where
  signature : HoldsText envelope "signature"
  hashingAlgo : HoldsText envelope "hashingAlgo"
  signingAlgo : HoldsText envelope "signingAlgo"
  id : getStringValue (getObjectItem (getObjectItem envelope "payload") "sessionId") =
    some sessionId
  uuid : UuidShaped sessionId
  payload : ValidPayload (getObjectItem envelope "payload") type

/-- What the enrollment signature on the request must be for it to be served. -/
structure EnrollmentAccepted (lib : DaemonLibraries) (params : SshnpdParams) (answers : Answers)
    (envelope : Json) (start : SrvStart) : Prop where
  notRefused : ∀ why, lib.verifyEnrollmentSignature answers.lookup start.requestingAtsign
    (envelope.obj?.getD []) ≠ .refused why
  required : params.requireEnrollmentSignature = true → ∃ key,
    lib.verifyEnrollmentSignature answers.lookup start.requestingAtsign
      (envelope.obj?.getD []) = .verified key
  key : ∀ key, start.clientSigningKey = some key →
    lib.verifyEnrollmentSignature answers.lookup start.requestingAtsign
      (envelope.obj?.getD []) = .verified key

/-- What a handler that starts srv has seen to itself, whatever it was handed. -/
structure Checked (lib : DaemonLibraries) (params : SshnpdParams) (sessions : ClientSessions)
    (answers : Answers) (n : AtNotification) (policy : Option PolicyDecision)
    (type : PayloadType) (start : SrvStart) : Prop where
  sender : n.fromAtsign = some start.requestingAtsign
  envelope : ∃ value envelope, n.decryptedValue = some value ∧ lib.parse value = some envelope ∧
    lib.SignedBy answers envelope start.requestingAtsign ∧
    ValidContents envelope type start.sessionId ∧
    EnrollmentAccepted lib params answers envelope start
  opened : (start.process.localHost, start.process.localPort) ∈ openedBy params.permitopen
  policyOpened : ∀ decision, policy = some decision →
    (start.process.localHost, start.process.localPort) ∈ decision.opens
  unwatched : ∀ session ∈ sessions.sessions, session.sessionId ≠ start.sessionId

/-! ### What each check that passes has found -/

theorem isString_iff {payload : Option Json} {name : String} :
    isString (getObjectItem payload name) = true ↔ HoldsText payload name := by
  rw [isString, HoldsText, Option.isSome_iff_exists]

theorem holdsPort_of_isValidPort {payload : Option Json} {name : String}
    (h : isValidPort (getObjectItem payload name) = true) : HoldsPort payload name := by
  unfold isValidPort at h
  cases hvalue : getNumberValue (getObjectItem payload name) with
  | none =>
    rw [hvalue] at h
    cases h
  | some value =>
    rw [hvalue] at h
    simp only [Bool.and_eq_true, decide_eq_true_eq, beq_iff_eq] at h
    obtain ⟨⟨hlow, hhigh⟩, heq⟩ := h
    rw [heq] at hlow hhigh
    refine ⟨portValue (getObjectItem payload name), ?_, ?_, ?_⟩
    · rw [hvalue, ← heq]
    · exact_mod_cast hlow
    · exact_mod_cast hhigh

theorem uuidShaped_of_isValidSessionId {id : String} (h : isValidSessionId (some id) = true) :
    UuidShaped id := by
  simp only [isValidSessionId, Bool.and_eq_true, beq_iff_eq, List.all_eq_true] at h
  refine ⟨h.1, fun c i hc => ?_⟩
  have hat := h.2 (c, i) (List.mk_mem_zipIdx_iff_getElem?.mpr hc)
  split at hat
  · rename_i hdash
    rw [if_pos hdash]
    exact beq_iff_eq.mp hat
  · rename_i hdash
    rwa [if_neg hdash]

theorem exists_of_isValidSessionId {id : Option String} (h : isValidSessionId id = true) :
    ∃ sessionId, id = some sessionId ∧ UuidShaped sessionId := by
  cases id with
  | none => cases h
  | some sessionId => exact ⟨sessionId, rfl, uuidShaped_of_isValidSessionId h⟩

theorem validContents_of_verify {envelope : Json} {type : PayloadType}
    (h : verifyEnvelopeContents envelope type = true) :
    ∃ sessionId, ValidContents envelope type sessionId := by
  simp only [verifyEnvelopeContents, Bool.and_eq_true, isString_iff] at h
  obtain ⟨⟨⟨⟨-, hsig⟩, hhash⟩, halgo⟩, hpayload⟩ := h
  cases type with
  | ssh =>
    simp only [verifyPayloadContents, Bool.and_eq_true, isString_iff] at hpayload
    obtain ⟨⟨⟨⟨-, hid⟩, hdirect⟩, hhost⟩, hport⟩ := hpayload
    obtain ⟨sessionId, hsome, huuid⟩ := exists_of_isValidSessionId hid
    exact ⟨sessionId, hsig, hhash, halgo, hsome, huuid, hdirect, hhost,
      holdsPort_of_isValidPort hport⟩
  | npt =>
    simp only [verifyPayloadContents, Bool.and_eq_true, isString_iff] at hpayload
    obtain ⟨⟨⟨⟨⟨-, hid⟩, hhost⟩, hport⟩, hrequested⟩, hrequestedPort⟩ := hpayload
    obtain ⟨sessionId, hsome, huuid⟩ := exists_of_isValidSessionId hid
    exact ⟨sessionId, hsig, hhash, halgo, hsome, huuid, hhost, holdsPort_of_isValidPort hport,
      hrequested, holdsPort_of_isValidPort hrequestedPort⟩

section
variable {lib : DaemonLibraries} {params : SshnpdParams} {sessions : ClientSessions}
  {answers : Answers} {pipe : Bool} {n : AtNotification} {policy : Option PolicyDecision}
  {kind : RequestKind} {envelope : Json} {requestingAtsign : String} {start : SrvStart}
  {clientSigningKey : Option String}

theorem signedBy_of_verify
    (h : lib.verifyEnvelopeSignatureFrom answers envelope requestingAtsign = true) :
    lib.SignedBy answers envelope requestingAtsign := by
  unfold DaemonLibraries.verifyEnvelopeSignatureFrom at h
  split at h
  · rename_i signature hashingAlgo signingAlgo payload hsignature hhashing hsigning hpayload
    cases hkey : answers.getPublicKey requestingAtsign with
    | none =>
      rw [hkey] at h
      cases h
    | some keyText =>
      simp only [hkey] at h
      split at h
      · rename_i publicKey raw hpopulate hraw
        simp only [DaemonLibraries.verifyEnvelopeSignature, Bool.and_eq_true] at h
        exact ⟨keyText, publicKey, payload, signature, raw, hkey, hpopulate, hpayload, hsignature,
          hraw, h.2.2⟩
      · cases h
  · cases h

theorem isWatched_eq_false {sessionId : String} (h : ¬sessions.isWatched sessionId = true) :
    ∀ session ∈ sessions.sessions, session.sessionId ≠ sessionId := by
  intro session hsession heq
  refine h ?_
  rw [ClientSessions.isWatched, ClientSessions.findSession, List.find?_isSome]
  exact ⟨session, hsession, beq_iff_eq.mpr heq⟩

theorem checkClientSigningKey_ok {sessionId : String}
    (hid : getStringValue (getObjectItem (getObjectItem envelope "payload") "sessionId") =
      some sessionId)
    (h : lib.checkClientSigningKey params sessions answers requestingAtsign envelope =
      .ok clientSigningKey) :
    (∀ session ∈ sessions.sessions, session.sessionId ≠ sessionId) ∧
      ((∃ key, lib.verifyEnrollmentSignature answers.lookup requestingAtsign
          (envelope.obj?.getD []) = .verified key ∧ clientSigningKey = some key) ∨
        (∀ why, lib.verifyEnrollmentSignature answers.lookup requestingAtsign
          (envelope.obj?.getD []) ≠ .refused why) ∧
        params.requireEnrollmentSignature = false ∧ clientSigningKey = none) := by
  simp only [DaemonLibraries.checkClientSigningKey, hid] at h
  split at h
  · cases h
  · rename_i hwatched
    refine ⟨isWatched_eq_false hwatched, ?_⟩
    cases hresult : lib.verifyEnrollmentSignature answers.lookup requestingAtsign
        (envelope.obj?.getD []) with
    | verified key =>
      rw [hresult] at h
      exact Or.inl ⟨key, rfl, (Except.ok.inj h).symm⟩
    | refused why =>
      rw [hresult] at h
      cases h
    | unchecked why =>
      simp only [hresult] at h
      split at h
      · cases h
      · rename_i hrequired
        exact Or.inr ⟨fun _ hw => (by cases hw), Bool.eq_false_iff.mpr hrequired,
          (Except.ok.inj h).symm⟩
    | absent =>
      simp only [hresult] at h
      split at h
      · cases h
      · rename_i hrequired
        exact Or.inr ⟨fun _ hw => (by cases hw), Bool.eq_false_iff.mpr hrequired,
          (Except.ok.inj h).symm⟩

theorem startSession_ok
    (h : lib.startSession kind params answers pipe policy requestingAtsign envelope
      clientSigningKey = .ok start) :
    start.requestingAtsign = requestingAtsign ∧ start.clientSigningKey = clientSigningKey ∧
      start.sessionId = (getStringValue
        (getObjectItem (getObjectItem envelope "payload") "sessionId")).getD "" ∧
      (start.process.localHost, start.process.requestedPort) ∈ openedBy params.permitopen ∧
      ∀ decision, policy = some decision →
        (start.process.localHost, start.process.requestedPort) ∈ decision.opens := by
  simp only [DaemonLibraries.startSession] at h
  split at h
  · cases h
  · rename_i hdaemon
    split at h
    · cases h
    · rename_i hpolicy
      obtain ⟨auth, -, h⟩ := bind_eq_ok.mp h
      obtain ⟨keys, -, h⟩ := bind_eq_ok.mp h
      obtain rfl := Except.ok.inj h
      refine ⟨rfl, rfl, rfl, shouldPermitopen_iff.mp (not_not.mp hdaemon), ?_⟩
      intro decision hdecision
      rw [hdecision] at hpolicy
      exact policyPermitsOpen_iff.mp (not_not.mp hpolicy)

/-- srv falls back to port 22 for a port of 0, which only a wildcard opens. -/
theorem localPort_mem {opened : Set (String × ℕ)} {p : SrvProcess}
    (hzero : ∀ host port, (host, 0) ∈ opened → (host, port) ∈ opened)
    (h : (p.localHost, p.requestedPort) ∈ opened) : (p.localHost, p.localPort) ∈ opened := by
  unfold SrvProcess.localPort
  split
  · exact h
  · rename_i hport
    rw [not_not.mp hport] at h
    exact hzero _ _ h

theorem handleRequest_ok
    (h : lib.handleRequest kind params sessions answers pipe n policy = .ok start) :
    Checked lib params sessions answers n policy kind.payloadType start := by
  unfold DaemonLibraries.handleRequest at h
  split at h
  · cases h
  · rename_i requestingAtsign envelope hextract
    split at h
    · cases h
    · rename_i hverify
      split at h
      · cases h
      · rename_i hcontents
        obtain ⟨clientSigningKey, hkey, h⟩ := bind_eq_ok.mp h
        obtain ⟨hatsign, hsigning, hsession, hopened, hpolicy⟩ := startSession_ok h
        obtain ⟨sessionId, hvalid⟩ := validContents_of_verify (not_not.mp hcontents)
        have hsame : start.sessionId = sessionId := by rw [hsession, hvalid.id]; rfl
        obtain ⟨hunwatched, hresult⟩ := checkClientSigningKey_ok hvalid.id hkey
        obtain ⟨value, hfrom, hvalue, hparse⟩ : ∃ value, n.fromAtsign = some requestingAtsign ∧
            n.decryptedValue = some value ∧ lib.parse value = some envelope := by
          unfold DaemonLibraries.extractEnvelopeFromNotification at hextract
          split at hextract
          · rename_i from' value hfrom hvalue
            obtain ⟨parsed, hparsed, heq⟩ := Option.map_eq_some_iff.mp hextract
            cases heq
            exact ⟨value, hfrom, hvalue, hparsed⟩
          · cases hextract
        have haccepted : EnrollmentAccepted lib params answers envelope start := by
          rcases hresult with ⟨key, hverified, hsome⟩ | ⟨hnot, hoptional, hnone⟩
          · refine ⟨?_, fun _ => ⟨key, by rw [hatsign, hverified]⟩, ?_⟩
            · intro why
              rw [hatsign, hverified]
              exact EnrollmentSignatureResult.noConfusion
            · intro key' hkey'
              rw [hsigning, hsome] at hkey'
              rw [hatsign, hverified, Option.some.inj hkey']
          · refine ⟨fun why => by rw [hatsign]; exact hnot why, ?_, ?_⟩
            · intro hrequired
              rw [hoptional] at hrequired
              cases hrequired
            · intro key hkey'
              rw [hsigning, hnone] at hkey'
              cases hkey'
        refine ⟨by rw [hfrom, hatsign], ⟨value, envelope, hvalue, hparse, ?_, ?_, haccepted⟩,
          ?_, ?_, ?_⟩
        · rw [hatsign]
          exact signedBy_of_verify (not_not.mp hverify)
        · rw [hsame]
          exact hvalid
        · exact localPort_mem (fun _ port hz => openedBy_of_zero hz port) hopened
        · intro decision hdecision
          exact localPort_mem (fun _ port hz => PolicyDecision.opens_of_zero hz port)
            (hpolicy decision hdecision)
        · rw [hsame]
          exact hunwatched

end

namespace MainLoop
section
variable {lib : DaemonLibraries} {params : SshnpdParams} {s t : MainLoop} {o : Outcomes}
  {n : AtNotification} {kind : NotificationKey} {start : SrvStart}

/-- The gate's answer to a notification in this very iteration. -/
def gateOf (params : SshnpdParams) (s : MainLoop) (o : Outcomes) (n : AtNotification)
    (client : String) : Gate :=
  policyGate s.decisions s.checkedSenders client (kindOf params n) o.clock o.check s.policyDecision

/-- What holds when an iteration from `s` starts srv. -/
def Permitted (lib : DaemonLibraries) (params : SshnpdParams) (s : MainLoop) (o : Outcomes)
    (start : SrvStart) : Prop :=
  ∃ n type policy, o.message = .notification n ∧
    (isManagerAtsign params (some start.requestingAtsign) = true ∧ policy = none ∨
      params.policy ≠ none ∧
        (gateOf params s o n start.requestingAtsign).result = .allow ∧
        policy = some (gateOf params s o n start.requestingAtsign).decision) ∧
    ∃ sessions, s.sessionsOf o = some sessions ∧
      Checked lib params sessions o.answers n policy type start

/-! ### srv is started behind every check -/

theorem mem_forked {start' : SrvStart} (h : Effect.srv start ∈ (s.forked start' o).2) :
    start = start' := by
  unfold forked at h
  split at h
  · exact Effect.srv.inj (List.mem_singleton.mp h)
  · split at h
    · cases h
    · split at h
      · exact Effect.srv.inj (List.mem_singleton.mp h)
      · split at h
        · exact Effect.srv.inj (List.mem_singleton.mp h)
        · rcases List.mem_cons.mp h with heq | hsignal
          · exact Effect.srv.inj heq
          · obtain ⟨signal, -, heq⟩ := List.mem_map.mp hsignal
            cases heq

theorem mem_handle {request : RequestKind}
    (h : Effect.srv start ∈ (s.handle lib params request n o).2) :
    Checked lib params s.sessions o.answers n s.policyFor request.payloadType start := by
  unfold handle at h
  split at h
  · rename_i start' hstart
    obtain rfl := mem_forked h
    exact handleRequest_ok hstart
  · cases h
  · cases List.mem_singleton.mp h

theorem mem_dispatch (h : Effect.srv start ∈ (s.dispatch lib params n kind o).2) :
    ∃ type, Checked lib params s.sessions o.answers n s.policyFor type start := by
  unfold dispatch at h
  split at h
  · cases h
  · split at h
    · cases h
    · cases kind with
      | sshpublickey => cases List.mem_singleton.mp h
      | ping => cases List.mem_singleton.mp h
      | sshRequest => exact ⟨.ssh, mem_handle h⟩
      | nptRequest => exact ⟨.npt, mem_handle h⟩
      | none => cases h

theorem mem_gated (hunchecked : s.policyChecked = false)
    (h : Effect.srv start ∈ (s.gated lib params n kind o).2) :
    ∃ type policy, (isManagerAtsign params n.fromAtsign = true ∧ policy = none ∨
        params.policy ≠ none ∧ ∃ client, n.fromAtsign = some client ∧
          (policyGate s.decisions s.checkedSenders client kind o.clock o.check
            s.policyDecision).result = .allow ∧
          policy = some (policyGate s.decisions s.checkedSenders client kind o.clock o.check
            s.policyDecision).decision) ∧
      Checked lib params s.sessions o.answers n policy type start := by
  unfold gated at h
  split at h
  · rename_i hmanager
    obtain ⟨type, hchecked⟩ := mem_dispatch h
    have hnone : s.policyFor = none := by rw [policyFor, hunchecked]; rfl
    rw [hnone] at hchecked
    exact ⟨type, none, Or.inl ⟨hmanager, rfl⟩, hchecked⟩
  · split at h
    · rename_i service client hservice hclient
      simp only at h
      split at h
      · rename_i hallow
        obtain ⟨type, hchecked⟩ := mem_dispatch h
        refine ⟨type, _, Or.inr ⟨?_, client, hclient, hallow, rfl⟩, hchecked⟩
        rw [hservice]
        exact Option.some_ne_none service
      · cases h
    · cases h

theorem mem_onNotification (h : Effect.srv start ∈ (s.onNotification lib params n o).2) :
    Effect.srv start ∈
      ({ s with policyChecked := false }.gated lib params n (kindOf params n) o).2 := by
  unfold onNotification at h
  split at h
  · cases h
  · split at h
    · cases h
    · split at h
      · cases h
      · exact h

/-- One iteration starts srv for a request that passed the checks alone. -/
theorem permitted_of_mem_iteration {done : MainLoop × List Effect}
    (hdone : s.iteration lib params o = some done) (h : Effect.srv start ∈ done.2) :
    Permitted lib params s o start := by
  obtain ⟨sessions, hsessions, rfl⟩ := Option.map_eq_some_iff.mp hdone
  simp only [readMonitor] at h
  split at h
  · cases h
  · unfold onMessage at h
    split at h
    · rename_i n hmessage
      obtain ⟨type, policy, hauthorised, hchecked⟩ := mem_gated rfl (mem_onNotification h)
      refine ⟨n, type, policy, hmessage, ?_, sessions, hsessions, hchecked⟩
      rcases hauthorised with ⟨hmanager, hnone⟩ | ⟨hservice, client, hclient, hallow, hsome⟩
      · rw [hchecked.sender] at hmanager
        exact Or.inl ⟨hmanager, hnone⟩
      · obtain rfl := Option.some.inj (hclient.symm.trans hchecked.sender)
        exact Or.inr ⟨hservice, hallow, hsome⟩
    · cases h

/-! ### What an iteration leaves in the loop's variables, no later one uses -/

/-- The state without the variables that hold a decision. -/
def forget (s : MainLoop) : MainLoop := { s with policyDecision := .zero, policyChecked := false }

/-- The same effects, and the same state but for those variables. -/
def Agree (a b : MainLoop × List Effect) : Prop := a.2 = b.2 ∧ a.1.forget = b.1.forget

/-- The state with a decision and a flag left behind in it. -/
def leave (s : MainLoop) (decision : PolicyDecision) (checked : Bool) : MainLoop :=
  { s with policyDecision := decision, policyChecked := checked }

variable (decision : PolicyDecision) (checked : Bool)

theorem forked_agree (s : MainLoop) (start : SrvStart) (o : Outcomes) :
    Agree ((s.leave decision checked).forked start o) (s.forked start o) := by
  unfold forked
  split
  · exact ⟨rfl, rfl⟩
  · split
    · exact ⟨rfl, rfl⟩
    · split
      · exact ⟨rfl, rfl⟩
      · split
        · exact ⟨rfl, rfl⟩
        · exact ⟨rfl, rfl⟩

theorem dispatch_agree (hpolicy : (s.leave decision checked).policyFor = s.policyFor) :
    Agree ((s.leave decision checked).dispatch lib params n kind o)
      (s.dispatch lib params n kind o) := by
  have hhandle (request : RequestKind) :
      Agree ((s.leave decision checked).handle lib params request n o)
        (s.handle lib params request n o) := by
    unfold handle
    rw [hpolicy]
    have hsessions : (s.leave decision checked).sessions = s.sessions := rfl
    rw [hsessions]
    split
    · exact forked_agree decision checked s _ o
    · exact ⟨rfl, rfl⟩
    · exact ⟨rfl, rfl⟩
  have hrun : (s.leave decision checked).shouldRun = s.shouldRun := rfl
  unfold dispatch
  rw [hrun]
  split
  · exact ⟨rfl, rfl⟩
  · split
    · exact ⟨rfl, rfl⟩
    · cases kind with
      | sshRequest => exact hhandle sshRequest
      | nptRequest => exact hhandle nptRequest
      | _ => exact ⟨rfl, rfl⟩

/-- The gate's answer, and the decision it allows with, are its own. -/
theorem policyGate_agree (cache : PolicyCache) (throttle : PolicyThrottle) (client : String)
    (kind : NotificationKey) (clock : GateClock) (check : Option PolicyDecision)
    (d e : PolicyDecision) :
    (policyGate cache throttle client kind clock check d).cache =
        (policyGate cache throttle client kind clock check e).cache ∧
      (policyGate cache throttle client kind clock check d).throttle =
        (policyGate cache throttle client kind clock check e).throttle ∧
      (policyGate cache throttle client kind clock check d).result =
        (policyGate cache throttle client kind clock check e).result ∧
      ((policyGate cache throttle client kind clock check d).result = .allow →
        (policyGate cache throttle client kind clock check d).decision =
          (policyGate cache throttle client kind clock check e).decision) := by
  unfold policyGate
  cases cache.lookup client clock.lookupMs with
  | some cached => exact ⟨rfl, rfl, rfl, fun _ => rfl⟩
  | none =>
    cases throttle.allows client kind clock.throttleMs with
    | none => exact ⟨rfl, rfl, rfl, fun hdrop => by cases hdrop⟩
    | some throttle =>
      cases check with
      | none => exact ⟨rfl, rfl, rfl, fun _ => rfl⟩
      | some checked => exact ⟨rfl, rfl, rfl, fun _ => rfl⟩

theorem gated_agree (hs : s.policyChecked = false) :
    Agree ((s.leave decision false).gated lib params n kind o) (s.gated lib params n kind o) := by
  have hpolicy : (s.leave decision false).policyFor = s.policyFor := by
    rw [policyFor, policyFor, hs]
    rfl
  unfold gated
  split
  · exact dispatch_agree decision false hpolicy
  · split
    · rename_i client _ _
      obtain ⟨hcache, hslots, hresult, hallowed⟩ := policyGate_agree s.decisions s.checkedSenders
        client kind o.clock o.check decision s.policyDecision
      simp only [leave, hcache, hslots, hresult]
      split
      · rename_i hallow
        rw [hallowed (hresult.trans hallow)]
        exact ⟨rfl, rfl⟩
      · exact ⟨rfl, rfl⟩
    · exact ⟨rfl, rfl⟩

theorem onMessage_agree (s : MainLoop) (o : Outcomes) :
    Agree ((s.leave decision checked).onMessage lib params o) (s.onMessage lib params o) := by
  unfold onMessage
  split
  · rename_i n _
    unfold onNotification
    split
    · exact ⟨rfl, rfl⟩
    · split
      · exact ⟨rfl, rfl⟩
      · split
        · exact ⟨rfl, rfl⟩
        · exact @gated_agree lib params { s with policyChecked := false } o n _ decision rfl
  · exact ⟨rfl, rfl⟩

theorem readMonitor_agree (s : MainLoop) (o : Outcomes) :
    Agree ((s.leave decision checked).readMonitor lib params o) (s.readMonitor lib params o) := by
  have hcounter : (s.leave decision checked).timeoutCounter = s.timeoutCounter := rfl
  simp only [readMonitor, hcounter]
  split
  · exact ⟨rfl, rfl⟩
  · obtain ⟨heffects, hstate⟩ := @onMessage_agree lib params decision checked
      { s with
        timeoutCounter := nextTimeoutCounter o.readRet o.message
          (if monitorNoopTimeoutMs < s.timeoutCounter * monitorReadTimeoutMs then 0
            else s.timeoutCounter) } o
    exact ⟨heffects, hstate⟩

theorem iteration_agree {done : MainLoop × List Effect}
    (hdone : s.iteration lib params o = some done) :
    ∃ stale, (s.leave decision checked).iteration lib params o = some stale ∧ Agree stale done := by
  obtain ⟨sessions, hsessions, rfl⟩ := Option.map_eq_some_iff.mp hdone
  have hstale : (s.leave decision checked).sessionsOf o = some sessions := hsessions
  refine ⟨_, by rw [iteration, hstale, Option.map_some], ?_⟩
  exact readMonitor_agree decision checked
    { s with sessions := sessions, shouldRun := s.shouldRun && !o.stopped } o

/-! ### The key of every session names an atSign, so no iteration crashes -/

theorem addressed_of_shape {space : Char → Bool} {uri : String} (h : keyUriShape space uri = true) :
    '@' ∈ dropPrefix "public:".toList uri.toList := by
  unfold keyUriShape at h
  split at h
  · cases h
  · rename_i rest hrest
    rw [Bool.and_eq_true] at h
    obtain ⟨-, h⟩ := h
    split at h
    · cases h
    · rename_i atSign hsign
      have hmem : '@' ∈ rest.dropWhile isIdChar := by
        rw [stripPrefix?_eq_some.mp hsign]
        exact List.mem_append_left atSign (by decide)
      rw [stripPrefix?_eq_some.mp hrest]
      exact List.mem_append_right _ ((List.dropWhile_sublist _).subset hmem)

theorem addressed_canonicalUri {uri : String} (h : isSigningKeyUri uri = true) :
    '@' ∈ (canonicalUri uri).toList := by
  simp only [canonicalUri, lowerAscii, String.toList_ofList, String.toList_append, List.map_append]
  refine List.mem_append_right _ ?_
  have hat : '@' = Char.toLower '@' := by decide
  rw [hat]
  exact List.mem_map_of_mem (addressed_of_shape h)

theorem verifyRecord_verified {c : Atchops} {canonical apsk ha signature key : String}
    {kid : Option String} {payload : Option Json}
    (h : c.verifyRecord canonical apsk ha signature kid payload = .verified key) :
    key = canonical := by
  unfold Atchops.verifyRecord at h
  split at h
  · cases h
  · split at h
    · cases h
    · split at h
      · cases h
      · split at h
        · cases h
        · exact (EnrollmentSignatureResult.verified.inj h).symm

theorem addressed_of_verified {requester key : String} {lookup : String → PublicLookupResult}
    {envelope : List (String × Json)}
    (h : lib.verifyEnrollmentSignature lookup requester envelope = .verified key) :
    '@' ∈ key.toList := by
  unfold Atchops.verifyEnrollmentSignature at h
  split at h
  · cases h
  · rename_i field _
    split at h
    · cases h
    · rename_i uri ha signature kid hread
      have hshape : isSigningKeyUri uri = true := by
        obtain ⟨named, hnamed, -, -, huri, -⟩ := readField_ok.mp hread
        rw [huri]
        exact hnamed.shaped
      have hcanonical : key = canonicalUri uri := by
        simp only at h
        split at h
        · exact verifyRecord_verified h
        · cases h
        · cases h
      rw [hcanonical]
      exact addressed_canonicalUri hshape
  · cases h

theorem forked_addressed (h : s.sessions.Addressed)
    (hkey : ∀ key, start.clientSigningKey = some key → '@' ∈ key.toList) :
    (s.forked start o).1.sessions.Addressed := by
  unfold forked
  split
  · exact h
  · split
    · exact h
    · split
      · exact h
      · split
        · exact h
        · rename_i signingKey hsome
          exact ClientSessions.track_addressed h (hkey signingKey hsome) _ _

theorem dispatch_addressed (h : s.sessions.Addressed) :
    (s.dispatch lib params n kind o).1.sessions.Addressed := by
  have hhandle (request : RequestKind) :
      (s.handle lib params request n o).1.sessions.Addressed := by
    unfold handle
    split
    · rename_i start hstart
      obtain ⟨_, _, _, _, _, _, haccepted⟩ := (handleRequest_ok hstart).envelope
      exact forked_addressed h fun key hkey => addressed_of_verified (haccepted.key key hkey)
    · exact h
    · exact h
  unfold dispatch
  split
  · exact h
  · split
    · exact h
    · cases kind with
      | sshRequest => exact hhandle sshRequest
      | nptRequest => exact hhandle nptRequest
      | _ => exact h

theorem onMessage_addressed (h : s.sessions.Addressed) :
    (s.onMessage lib params o).1.sessions.Addressed := by
  unfold onMessage
  split
  · unfold onNotification
    split
    · exact h
    · split
      · exact h
      · split
        · exact h
        · unfold gated
          split
          · exact dispatch_addressed h
          · split
            · simp only
              split
              · exact dispatch_addressed h
              · exact h
            · exact h
  · exact h

theorem readMonitor_addressed (h : s.sessions.Addressed) :
    (s.readMonitor lib params o).1.sessions.Addressed := by
  simp only [readMonitor]
  split
  · exact h
  · exact onMessage_addressed h

theorem reapChildren_addressed {cs : ClientSessions} (h : cs.Addressed)
    (reaped : List (ℤ × ExitStatus)) : (reapChildren cs reaped).Addressed := by
  induction reaped generalizing cs with
  | nil => exact h
  | cons child reaped ih => exact ih (ClientSessions.reaped_addressed h child.1 child.2)

theorem iteration_addressed (lib : DaemonLibraries) (params : SshnpdParams)
    (h : s.sessions.Addressed) (o : Outcomes) :
    ∃ done, s.iteration lib params o = some done ∧ done.1.sessions.Addressed := by
  obtain ⟨ticked, htick, haddressed⟩ :=
    ClientSessions.tick_addressed (reapChildren_addressed h o.reaped) o.now o.startKeyCheck
  refine ⟨_, by rw [iteration, sessionsOf, htick, Option.map_some, Option.map_some], ?_⟩
  exact readMonitor_addressed haddressed

/-! ### Over whole runs -/

/-- In every state of a run each key the daemon watches names an atSign, and no decision
is left: it is freed at the end of every iteration. -/
theorem inv_of_run {s₀ : MainLoop} {es : List Event} (hinit : init params = some s₀)
    (hr : (machine lib params).run s₀ es = some s) :
    s.sessions.Addressed ∧ s.policyDecision = .zero := by
  have h₀ : s₀.sessions.Addressed ∧ s₀.policyDecision = .zero := by
    obtain ⟨decisions, -, rfl⟩ := Option.map_eq_some_iff.mp hinit
    exact ⟨⟨fun _ hs => absurd hs List.not_mem_nil, fun _ hc => absurd hc List.not_mem_nil⟩, rfl⟩
  refine @Machine.invariant _ _ (machine lib params)
    (fun m => m.sessions.Addressed ∧ m.policyDecision = .zero) ?_ _ _ _ h₀ hr
  intro u e v hu hstep
  cases e with
  | signal =>
    obtain rfl := Option.some.inj hstep
    exact hu
  | iteration o =>
    simp only [machine, step] at hstep
    split at hstep
    · obtain ⟨done, hdone, rfl⟩ := Option.map_eq_some_iff.mp hstep
      obtain ⟨done', hdone', haddressed⟩ := iteration_addressed lib params hu.1 o
      obtain rfl := Option.some.inj (hdone.symm.trans hdone')
      refine ⟨haddressed, ?_⟩
      obtain ⟨sessions, -, rfl⟩ := Option.map_eq_some_iff.mp hdone
      simp only [readMonitor]
      split
      · exact hu.2
      · rfl
    · cases hstep

/-- No session without permission: in every state a run of the loop reaches, no outcome
crashes the next iteration, srv is started for nothing but a request that is permitted
in that same iteration, and whatever an earlier iteration left of a decision is gone
and changes nothing. -/
theorem srv_only_with_permission {s₀ : MainLoop} {es : List Event}
    (hinit : init params = some s₀) (hr : (machine lib params).run s₀ es = some s) :
    (∀ o, ∃ done, s.iteration lib params o = some done ∧
        (∀ start, Effect.srv start ∈ done.2 → Permitted lib params s o start) ∧
        ∀ decision checked, ∃ stale,
          (s.leave decision checked).iteration lib params o = some stale ∧ Agree stale done) ∧
      s.policyDecision = .zero := by
  obtain ⟨haddressed, hzero⟩ := inv_of_run hinit hr
  refine ⟨fun o => ?_, hzero⟩
  obtain ⟨done, hdone, -⟩ := iteration_addressed lib params haddressed o
  exact ⟨done, hdone, fun _ h => permitted_of_mem_iteration hdone h,
    fun decision checked => iteration_agree decision checked hdone⟩

end
end MainLoop
def samplePayload : Json := .obj [("sessionId", .str "00000000-0000-0000-0000-000000000001"),
  ("rvdHost", .str "relay"), ("rvdPort", .int 443), ("requestedHost", .str "localhost"),
  ("requestedPort", .int 22)]

def sampleEnvelope : Json := .obj [("payload", samplePayload), ("signature", .str "c2ln"),
  ("hashingAlgo", .str "sha256"), ("signingAlgo", .str "rsa2048")]

def sampleLibraries : DaemonLibraries where
  parse text := if text = "request" then some sampleEnvelope else none
  printUnformatted _ := "payload"
  base64Decode _ := some [1, 2, 3]
  sha256 _ := none
  populatePublicKey text :=
    if text = "key of @alice" then some ⟨List.replicate 256 1, [1, 0, 1]⟩ else none
  rsaVerify _ _ text signature := text == "payload" && signature.take 3 == [1, 2, 3]
  base64Encode _ := ""
  rsaSign _ := none
  rsaEncrypt _ _ := none
  enrollmentId := none
  pkamPrivateKeyBase64 := ""

def sampleParams : SshnpdParams where
  atsign := "@daemon"
  device := "device"
  managerList := []
  policy := some "@policy"
  policyCacheSize := 8
  permitopen := [("localhost", 22)]
  localSshdPort := 22
  clientKeyCheckSecs := 0
  requireEnrollmentSignature := false

/-- A request of a client the policy service lets through. -/
def sampleOutcomes : Outcomes where
  reaped := []
  now := 0
  startKeyCheck _ := 0
  reconnect := 0
  readRet := 0
  message := .notification ⟨some "1", some "@alice", some "@daemon",
    some "@daemon:npt_request.device.sshnp@alice", some "request"⟩
  clock := ⟨1000, 1000, 1000⟩
  check := some ⟨true, ["localhost:*"]⟩
  stopped := false
  answers := ⟨fun atsign => if atsign = "@alice" then some "key of @alice" else none,
    fun _ => .notFound, (none, none), (none, none)⟩
  pipe := true
  fork := 7
  waitpid := 0

def sampleLoop : MainLoop where
  shouldRun := true
  isChildProcess := false
  returned := false
  policyDecision := .zero
  policyChecked := false
  decisions := ⟨List.replicate 8 none⟩
  checkedSenders := .init
  timeoutCounter := 0
  sessions := .init 0

def sampleStart : SrvStart where
  requestingAtsign := "@alice"
  sessionId := "00000000-0000-0000-0000-000000000001"
  clientSigningKey := none
  process := {
    srvdHost := some "relay"
    srvdPort := 443
    requestedHost := some "localhost"
    requestedPort := 22
    authenticateToRvd := false
    rvdAuthString := none
    escr := none
    encryptRvdTraffic := false
    multi := true
    timeoutSeconds := 30
    c2d := none
    d2c := none
    readyFd := true }

/-- The request made twice: the second time the policy service's decision comes from
the cache. -/
theorem srv_only_with_permission_sample :
    ∃ once, sampleLoop.iteration sampleLibraries sampleParams sampleOutcomes = some once ∧
      MainLoop.Permitted sampleLibraries sampleParams once.1 sampleOutcomes sampleStart := by
  have hone : (sampleLoop.iteration sampleLibraries sampleParams sampleOutcomes).isSome = true := rfl
  obtain ⟨once, honce⟩ := Option.isSome_iff_exists.mp hone
  have hr : (MainLoop.machine sampleLibraries sampleParams).run sampleLoop
      [.iteration sampleOutcomes] = some once.1 := by
    simp only [Machine.run, MainLoop.machine, MainLoop.step, honce]
    rfl
  obtain ⟨hall, -⟩ := MainLoop.srv_only_with_permission rfl hr
  obtain ⟨done, hdone, hpermitted, -⟩ := hall sampleOutcomes
  have hstart : ((sampleLoop.iteration sampleLibraries sampleParams sampleOutcomes).bind
      fun r => (r.1.iteration sampleLibraries sampleParams sampleOutcomes).map fun d =>
        decide (Effect.srv sampleStart ∈ d.2)) = some true := by
    decide +kernel
  rw [honce, Option.bind_some, hdone, Option.map_some] at hstart
  exact ⟨once, honce, hpermitted _ (of_decide_eq_true (Option.some.inj hstart))⟩

end NoPorts.CDaemon
