import NoPorts.Lib.Calls
import NoPorts.NppDaemonGate
import NoPorts.NppManager

/-! The policy service's answer to a daemon: the check, the event and the log notification of one request, each
of which may fail. -/
namespace NoPorts.PolicyInfoRpc
open Lib Npp

/-! ### noports_event_types.dart -/

/-- `_policyCheckFields` -/
def policyCheckFields (event timestamp policyAtsign fromAtsign : String) (request : NPAAuthCheckRequest) :
    List (String × Json) :=
  [("event", .str event), ("timestamp", .str timestamp), ("policyAtsign", .str policyAtsign),
    ("fromAtsign", .str fromAtsign), ("clientAtsign", .str request.clientAtsign),
    ("daemonAtsign", .str request.daemonAtsign), ("daemonDeviceName", .str request.daemonDeviceName),
    ("daemonDeviceGroupName", .str request.daemonDeviceGroupName)]

section
variable (timestamp policyAtsign fromAtsign : String) (request : NPAAuthCheckRequest)

def clientAdmitted (response : NPAAuthCheckResponse) : List (String × Json) :=
  policyCheckFields "clientAdmitted" timestamp policyAtsign fromAtsign request ++
    [("message", .ofStr? response.message), ("permitOpen", .arr (response.permitOpen.map .str))]

def clientRejected (response : NPAAuthCheckResponse) : List (String × Json) :=
  policyCheckFields "clientRejected" timestamp policyAtsign fromAtsign request ++
    [("message", .ofStr? response.message)]

def policyCheckFailed (error : String) : List (String × Json) :=
  policyCheckFields "policyCheckFailed" timestamp policyAtsign fromAtsign request ++ [("error", .str error)]

def requestRefused (response : NPAAuthCheckResponse) : List (String × Json) :=
  policyCheckFields "requestRefused" timestamp policyAtsign fromAtsign request ++
    [("message", .ofStr? response.message)]

end

/-! ### npa_impl.dart -/

/-- The key of a log notification. -/
structure LogKey where
  key : String
  sharedBy : String
  sharedWith : String
  namespaced : String

/-- What is encoded as its value. -/
structure Log where
  daemon : String
  timestamp : ℤ
  request : AtRpcReq
  response : AtRpcResp

inductive Call where
  | doAuthCheck (authCheckRequest : NPAAuthCheckRequest)
  | onEvent (event : List (String × Json))
  | notify (logKey : LogKey) (log : Log)

/-- How the calls made for one request end, and the times that are read. -/
structure Outcomes where
  doAuthCheck : NPAAuthCheckRequest → Except Thrown NPAAuthCheckResponse
  /-- Of building the event. -/
  build : Except Thrown Unit
  onEvent : Except Thrown Unit
  notify : Except Thrown Unit
  eventTime : String
  keyTime : ℤ
  logTime : ℤ

structure PolicyInfoRpcRequestHandler where
  policyAtsign : String
  namespaced : String
  toAtsign : String → Except Thrown String

/-- An answer, and why the check failed where it did. -/
structure Checked where
  answer : NPAAuthCheckResponse
  failure : Option String

def refusal : NPAAuthCheckResponse := ⟨false, some "A daemon may ask only about itself", []⟩

def failed (e : Thrown) : Checked := ⟨⟨false, some ("Exception: " ++ e.text), []⟩, some e.text⟩

namespace PolicyInfoRpcRequestHandler
variable (h : PolicyInfoRpcRequestHandler) (o : Outcomes)

def sendEvent (event : List (String × Json)) : Calling Call Thrown Unit := do
  try
    Calling.ofExcept o.build
    Calling.call (.onEvent event) o.onEvent
  catch _ => pure ()

/-- The answer of `handleRequest`. -/
def check (r : NPAAuthCheckRequest) (aboutItself : Bool) : Calling Call Thrown Checked :=
  if !aboutItself then pure ⟨refusal, none⟩
  else do
    try
      let answer ← Calling.call (.doAuthCheck r) (o.doAuthCheck r)
      pure ⟨answer, none⟩
    catch e => pure (failed e)

/-- The event that is built of it. -/
def policyEvent (sender : String) (r : NPAAuthCheckRequest) (aboutItself : Bool) (checked : Checked) :
    List (String × Json) :=
  if !aboutItself then requestRefused o.eventTime h.policyAtsign sender r checked.answer
  else
    match checked.failure with
    | some error => policyCheckFailed o.eventTime h.policyAtsign sender r error
    | none =>
      if checked.answer.authorized then clientAdmitted o.eventTime h.policyAtsign sender r checked.answer
      else clientRejected o.eventTime h.policyAtsign sender r checked.answer

def logKey : LogKey := ⟨toString o.keyTime ++ ".logs.policy", h.policyAtsign, h.policyAtsign, h.namespaced⟩

def handleRequest (request : AtRpcReq) (fromAtSign : String) : Calling Call Thrown AtRpcResp := do
  let authCheckRequest ← Calling.ofExcept (NPAAuthCheckRequest.fromJson request.payload)
  let sender ← Calling.ofExcept (h.toAtsign fromAtSign)
  let daemon ← Calling.ofExcept (h.toAtsign authCheckRequest.daemonAtsign)
  let aboutItself := sender == daemon
  let checked ← check o authCheckRequest aboutItself
  let rpcResponse : AtRpcResp := ⟨request.reqId, .success, none, checked.answer.toJson⟩
  sendEvent o (h.policyEvent o sender authCheckRequest aboutItself checked)
  -- no `try` is around the log notification
  Calling.call (.notify (h.logKey o) ⟨fromAtSign, o.logTime, request, rpcResponse⟩) o.notify
  return rpcResponse

/-! ### The rules' answer -/

/-- The payload holds the four texts of `r`. -/
structure Holds (payload : List (String × Json)) (r : NPAAuthCheckRequest) : Prop where
  daemonAtsign : Json.field payload "daemonAtsign" = .str r.daemonAtsign
  daemonDeviceName : Json.field payload "daemonDeviceName" = .str r.daemonDeviceName
  daemonDeviceGroupName : Json.field payload "daemonDeviceGroupName" = .str r.daemonDeviceGroupName
  clientAtsign : Json.field payload "clientAtsign" = .str r.clientAtsign

/-- The sender is canonically the daemon that `r` asks about. -/
def AboutItself (fromAtSign : String) (r : NPAAuthCheckRequest) : Prop :=
  ∃ atSign, h.toAtsign fromAtSign = .ok atSign ∧ h.toAtsign r.daemonAtsign = .ok atSign

/-- The answer is the check's own, or refuses. -/
structure Answers (fromAtSign : String) (r : NPAAuthCheckRequest) (answer : NPAAuthCheckResponse) : Prop where
  own : ∀ decision, h.AboutItself fromAtSign r → o.doAuthCheck r = .ok decision → answer = decision
  refuses : ¬(h.AboutItself fromAtSign r ∧ ∃ decision, o.doAuthCheck r = .ok decision) →
    answer.authorized = false ∧ answer.permitOpen = []

/-- The event tells of this answer. -/
def Describes (fromAtSign : String) (r : NPAAuthCheckRequest) (answer : NPAAuthCheckResponse)
    (event : List (String × Json)) : Prop :=
  ∃ timestamp sender, h.toAtsign fromAtSign = .ok sender ∧
    (¬h.AboutItself fromAtSign r ∧ event = requestRefused timestamp h.policyAtsign sender r answer ∨
      h.AboutItself fromAtSign r ∧
        ((∃ e, o.doAuthCheck r = .error e ∧ event = policyCheckFailed timestamp h.policyAtsign sender r e.text) ∨
          o.doAuthCheck r = .ok answer ∧
            (answer.authorized = true ∧ event = clientAdmitted timestamp h.policyAtsign sender r answer ∨
              answer.authorized = false ∧ event = clientRejected timestamp h.policyAtsign sender r answer)))

def eventsOf (calls : List Call) : List (List (String × Json)) :=
  calls.filterMap fun
    | .onEvent event => some event
    | _ => none

/-- What a daemon is promised of one request. -/
structure GivesRulesAnswer (request : AtRpcReq) (fromAtSign : String) (r : NPAAuthCheckRequest)
    (result : Except Thrown AtRpcResp) (calls : List Call) : Prop where
  answered : ∃ answer, result = .ok ⟨request.reqId, .success, none, answer.toJson⟩ ∧ h.Answers o fromAtSign r answer ∧
    ∀ event ∈ eventsOf calls, h.Describes o fromAtSign r answer event
  checked : ∀ r', .doAuthCheck r' ∈ calls → r' = r ∧ h.AboutItself fromAtSign r
  once : (eventsOf calls).length ≤ 1

/-! ### What one request does -/

variable {h o} {request : AtRpcReq} {fromAtSign : String} {r : NPAAuthCheckRequest} {sender daemon : String}

theorem fromJson_of_holds {payload : List (String × Json)} (hholds : Holds payload r) :
    NPAAuthCheckRequest.fromJson payload = .ok r := by
  rw [NPAAuthCheckRequest.fromJson, hholds.daemonAtsign, hholds.daemonDeviceName, hholds.daemonDeviceGroupName,
    hholds.clientAtsign]
  rfl

/-- A failure to build or to send an event goes no further. -/
theorem sendEvent_run (o : Outcomes) (event : List (String × Json)) (calls : List Call) :
    ∃ sent, sendEvent o event calls = (.ok (), calls ++ sent) ∧ (sent = [] ∨ sent = [.onEvent event]) := by
  rw [sendEvent]
  cases hbuild : o.build with
  | error e =>
    refine ⟨[], ?_, Or.inl rfl⟩
    rw [List.append_nil]
    exact Calling.tryCatch_error (Calling.bind_error rfl)
  | ok _ =>
    refine ⟨[.onEvent event], ?_, Or.inr rfl⟩
    cases hsent : o.onEvent with
    | error e => exact Calling.tryCatch_error (Calling.bind_ok rfl)
    | ok _ => exact Calling.tryCatch_ok (Calling.bind_ok rfl)

/-- What the check comes to. -/
def decision (o : Outcomes) (r : NPAAuthCheckRequest) (aboutItself : Bool) : Checked :=
  if !aboutItself then ⟨refusal, none⟩
  else
    match o.doAuthCheck r with
    | .ok answer => ⟨answer, none⟩
    | .error e => failed e

theorem decision_ok {own : NPAAuthCheckResponse} (hcheck : o.doAuthCheck r = .ok own) :
    decision o r true = ⟨own, none⟩ := by
  rw [decision, hcheck]
  rfl

theorem decision_error {e : Thrown} (hcheck : o.doAuthCheck r = .error e) : decision o r true = failed e := by
  rw [decision, hcheck]
  rfl

/-- A check that throws goes no further. -/
theorem check_run (o : Outcomes) (r : NPAAuthCheckRequest) (aboutItself : Bool) (calls : List Call) :
    check o r aboutItself calls =
      (.ok (decision o r aboutItself), calls ++ if aboutItself then [.doAuthCheck r] else []) := by
  cases aboutItself with
  | false =>
    rw [if_neg Bool.false_ne_true, List.append_nil]
    rfl
  | true =>
    rw [check]
    cases hcheck : o.doAuthCheck r with
    | error e =>
      rw [decision_error hcheck]
      exact Calling.tryCatch_error (Calling.bind_error rfl)
    | ok answer =>
      rw [decision_ok hcheck]
      exact Calling.tryCatch_ok (Calling.bind_ok rfl)

/-- Over a cache of rules, the answer is that of the cache's own check. -/
theorem handleAuthCheck_eq_decision {c : NppCache} {toAtsign : String → Option String}
    (hsender : toAtsign fromAtSign = some sender) (hdaemon : toAtsign r.daemonAtsign = some daemon)
    (hcache : o.doAuthCheck r = c.doAuthCheck toAtsign r) :
    c.handleAuthCheck toAtsign fromAtSign r = some (decision o r (sender == daemon)).answer := by
  rw [NppCache.handleAuthCheck, hsender, hdaemon, ← hcache]
  by_cases hself : sender = daemon
  · subst hself
    rw [beq_self_eq_true]
    cases hcheck : o.doAuthCheck r with
    | error e =>
      rw [decision_error hcheck]
      exact if_neg (not_not_intro rfl)
    | ok own =>
      rw [decision_ok hcheck]
      exact if_neg (not_not_intro rfl)
  · rw [beq_eq_false_iff_ne.mpr hself]
    exact if_pos hself

def response (o : Outcomes) (request : AtRpcReq) (r : NPAAuthCheckRequest) (aboutItself : Bool) : AtRpcResp :=
  ⟨request.reqId, .success, none, (decision o r aboutItself).answer.toJson⟩

/-- With atSigns that are valid, the request ends as its log notification does. -/
theorem handleRequest_run (hholds : Holds request.payload r) (hsender : h.toAtsign fromAtSign = .ok sender)
    (hdaemon : h.toAtsign r.daemonAtsign = .ok daemon) :
    ∃ sent, (sent = [] ∨
        sent = [.onEvent (h.policyEvent o sender r (sender == daemon) (decision o r (sender == daemon)))]) ∧
      h.handleRequest o request fromAtSign [] =
        (o.notify.map fun _ => response o request r (sender == daemon),
          (if sender == daemon then [.doAuthCheck r] else []) ++ sent ++
            [.notify (h.logKey o) ⟨fromAtSign, o.logTime, request, response o request r (sender == daemon)⟩]) := by
  obtain ⟨sent, hrun, hsent⟩ := sendEvent_run o
    (h.policyEvent o sender r (sender == daemon) (decision o r (sender == daemon)))
    ([] ++ if sender == daemon then [.doAuthCheck r] else [])
  refine ⟨sent, hsent, ?_⟩
  rw [handleRequest, Calling.ofExcept_bind (fromJson_of_holds hholds), Calling.ofExcept_bind hsender,
    Calling.ofExcept_bind hdaemon, Calling.bind_ok (check_run _ _ _ _), Calling.bind_ok hrun]
  -- the answer is made by now, and only the log notification can still lose it
  cases hnotify : o.notify with
  | error e => exact Calling.bind_error rfl
  | ok _ => exact Calling.bind_ok rfl

/-- What cannot be read as an atSign ends the request before anything is called. -/
theorem handleRequest_invalid (hholds : Holds request.payload r)
    (hinvalid : (∀ s, h.toAtsign fromAtSign ≠ .ok s) ∨ ∀ d, h.toAtsign r.daemonAtsign ≠ .ok d) :
    ∃ e, h.handleRequest o request fromAtSign [] = (.error e, []) := by
  rw [handleRequest, Calling.ofExcept_bind (fromJson_of_holds hholds)]
  cases hsender : h.toAtsign fromAtSign with
  | error e => exact ⟨e, Calling.bind_error rfl⟩
  | ok s =>
    rw [Calling.ofExcept_bind rfl]
    cases hdaemon : h.toAtsign r.daemonAtsign with
    | error e => exact ⟨e, Calling.bind_error rfl⟩
    | ok d =>
      rcases hinvalid with hno | hno
      · exact absurd hsender (hno s)
      · exact absurd hdaemon (hno d)

theorem aboutItself_iff (hsender : h.toAtsign fromAtSign = .ok sender) (hdaemon : h.toAtsign r.daemonAtsign = .ok daemon) :
    h.AboutItself fromAtSign r ↔ (sender == daemon) = true := by
  rw [beq_iff_eq]
  constructor
  · rintro ⟨atSign, hs, hd⟩
    rw [hsender] at hs
    rw [hdaemon] at hd
    rw [Except.ok.inj hs, Except.ok.inj hd]
  · rintro rfl
    exact ⟨sender, hsender, hdaemon⟩

theorem answers_decision (hsender : h.toAtsign fromAtSign = .ok sender)
    (hdaemon : h.toAtsign r.daemonAtsign = .ok daemon) :
    h.Answers o fromAtSign r (decision o r (sender == daemon)).answer := by
  have habout := aboutItself_iff hsender hdaemon
  constructor
  · intro own hself hown
    rw [habout.mp hself, decision_ok hown]
  · intro hnone
    cases hself : sender == daemon with
    | false => exact ⟨rfl, rfl⟩
    | true =>
      cases hcheck : o.doAuthCheck r with
      | error e =>
        rw [decision_error hcheck]
        exact ⟨rfl, rfl⟩
      | ok own => exact absurd ⟨habout.mpr hself, own, hcheck⟩ hnone

theorem describes_policyEvent (hsender : h.toAtsign fromAtSign = .ok sender)
    (hdaemon : h.toAtsign r.daemonAtsign = .ok daemon) :
    h.Describes o fromAtSign r (decision o r (sender == daemon)).answer
      (h.policyEvent o sender r (sender == daemon) (decision o r (sender == daemon))) := by
  have habout := aboutItself_iff hsender hdaemon
  refine ⟨o.eventTime, sender, hsender, ?_⟩
  cases hself : sender == daemon with
  | false =>
    left
    rw [habout, hself]
    exact ⟨Bool.false_ne_true, rfl⟩
  | true =>
    right
    refine ⟨habout.mpr hself, ?_⟩
    cases hcheck : o.doAuthCheck r with
    | error e =>
      left
      refine ⟨e, rfl, ?_⟩
      rw [decision_error hcheck]
      rfl
    | ok own =>
      right
      rw [decision_ok hcheck]
      refine ⟨rfl, ?_⟩
      have hevent : h.policyEvent o sender r true ⟨own, none⟩ =
          if own.authorized then clientAdmitted o.eventTime h.policyAtsign sender r own
          else clientRejected o.eventTime h.policyAtsign sender r own := rfl
      rw [hevent]
      cases hauth : own.authorized with
      | true => exact Or.inl ⟨rfl, rfl⟩
      | false => exact Or.inr ⟨rfl, rfl⟩

theorem eventsOf_append (xs ys : List Call) : eventsOf (xs ++ ys) = eventsOf xs ++ eventsOf ys :=
  List.filterMap_append

/-- A daemon is given the rules' answer exactly where both atSigns are valid and the log notification does
not throw, whatever becomes of the check and the event. -/
theorem givesRulesAnswer_iff (h : PolicyInfoRpcRequestHandler) (o : Outcomes) (request : AtRpcReq) (fromAtSign : String)
    (r : NPAAuthCheckRequest) (hholds : Holds request.payload r) :
    h.GivesRulesAnswer o request fromAtSign r (h.handleRequest o request fromAtSign []).1
        (h.handleRequest o request fromAtSign []).2 ↔
      (∃ sender, h.toAtsign fromAtSign = .ok sender) ∧ (∃ daemon, h.toAtsign r.daemonAtsign = .ok daemon) ∧
        o.notify = .ok () := by
  constructor
  · rintro ⟨⟨answer, hresult, -⟩, -, -⟩
    have hvalid : (∃ sender, h.toAtsign fromAtSign = .ok sender) ∧ ∃ daemon, h.toAtsign r.daemonAtsign = .ok daemon := by
      by_contra hno
      obtain ⟨e, herror⟩ := @handleRequest_invalid h o request fromAtSign r hholds (by
        rw [not_and_or, not_exists, not_exists] at hno
        exact hno)
      rw [herror] at hresult
      cases hresult
    obtain ⟨⟨sender, hsender⟩, daemon, hdaemon⟩ := hvalid
    refine ⟨⟨sender, hsender⟩, ⟨daemon, hdaemon⟩, ?_⟩
    obtain ⟨sent, -, hrun⟩ := handleRequest_run (o := o) hholds hsender hdaemon
    rw [hrun] at hresult
    cases hnotify : o.notify with
    | error e =>
      rw [hnotify] at hresult
      cases hresult
    | ok _ => rfl
  · rintro ⟨⟨sender, hsender⟩, ⟨daemon, hdaemon⟩, hnotify⟩
    obtain ⟨sent, hsent, hrun⟩ := handleRequest_run (o := o) hholds hsender hdaemon
    have hchecks : eventsOf (if sender == daemon then [.doAuthCheck r] else []) = [] := by
      split
      · rfl
      · rfl
    have hevents : eventsOf ((if sender == daemon then [.doAuthCheck r] else []) ++ sent ++
        [.notify (h.logKey o) ⟨fromAtSign, o.logTime, request, response o request r (sender == daemon)⟩]) =
          eventsOf sent := by
      rw [eventsOf_append, eventsOf_append, hchecks, List.nil_append]
      exact List.append_nil _
    rw [hrun, hnotify]
    refine ⟨⟨_, rfl, answers_decision hsender hdaemon, fun event hevent => ?_⟩, fun r' hcall => ?_, ?_⟩
    · rw [hevents] at hevent
      rcases hsent with rfl | rfl
      · exact absurd hevent List.not_mem_nil
      · rw [List.mem_singleton.mp hevent]
        exact describes_policyEvent hsender hdaemon
    · rw [aboutItself_iff hsender hdaemon]
      have hcheck : .doAuthCheck r' ∈ (if sender == daemon then [Call.doAuthCheck r] else []) := by
        rcases List.mem_append.mp hcall with hcall | hcall
        · rcases List.mem_append.mp hcall with hcall | hcall
          · exact hcall
          · rcases hsent with rfl | rfl
            · exact absurd hcall List.not_mem_nil
            · cases List.mem_singleton.mp hcall
        · cases List.mem_singleton.mp hcall
      split at hcheck
      · rename_i hself
        refine ⟨?_, hself⟩
        injection List.mem_singleton.mp hcheck
      · exact absurd hcheck List.not_mem_nil
    · rw [hevents]
      rcases hsent with rfl | rfl
      · exact Nat.zero_le 1
      · exact le_refl 1

/-! ### A client that is let in, and a log notification that fails -/

def sampleHandler : PolicyInfoRpcRequestHandler :=
  ⟨"@policy", "sshnp", fun atSign => if atSign = "" then .error (.exception "invalid atSign") else .ok atSign⟩

def sampleAnswer : NPAAuthCheckResponse := ⟨true, some "ok", ["localhost:22"]⟩

def sampleOutcomes (notify : Except Thrown Unit) : Outcomes where
  doAuthCheck _ := .ok sampleAnswer
  build := .ok ()
  onEvent := .error (.exception "event log down")
  notify := notify
  eventTime := "2026-01-01T00:00:00.000Z"
  keyTime := 0
  logTime := 0

def requestAbout (daemonAtsign : String) : NPAAuthCheckRequest := ⟨daemonAtsign, "dev1", "group1", "@client"⟩

def sampleRequest (daemonAtsign : String) : AtRpcReq :=
  ⟨1, [("daemonAtsign", .str daemonAtsign), ("daemonDeviceName", .str "dev1"),
    ("daemonDeviceGroupName", .str "group1"), ("clientAtsign", .str "@client")]⟩

theorem holds_sample (daemonAtsign : String) : Holds (sampleRequest daemonAtsign).payload (requestAbout daemonAtsign) :=
  ⟨rfl, rfl, rfl, rfl⟩

/-- The event log is down, and the daemon is answered. -/
theorem givesRulesAnswer_iff_sample :
    sampleHandler.GivesRulesAnswer (sampleOutcomes (.ok ())) (sampleRequest "@daemon") "@daemon" (requestAbout "@daemon")
      (sampleHandler.handleRequest (sampleOutcomes (.ok ())) (sampleRequest "@daemon") "@daemon" []).1
      (sampleHandler.handleRequest (sampleOutcomes (.ok ())) (sampleRequest "@daemon") "@daemon" []).2 :=
  (givesRulesAnswer_iff sampleHandler (sampleOutcomes (.ok ())) (sampleRequest "@daemon") "@daemon"
    (requestAbout "@daemon") (holds_sample "@daemon")).mpr ⟨⟨"@daemon", rfl⟩, ⟨"@daemon", rfl⟩, rfl⟩

/-- The client is let in by the rules, and no answer is returned: the log notification throws. Nor is one
for a daemon that asks about what is no atSign. -/
theorem answer_lost :
    (sampleHandler.handleRequest (sampleOutcomes (.error (.exception "offline"))) (sampleRequest "@daemon") "@daemon"
      []).1 = .error (.exception "offline") ∧
    ¬sampleHandler.GivesRulesAnswer (sampleOutcomes (.error (.exception "offline"))) (sampleRequest "@daemon") "@daemon"
      (requestAbout "@daemon")
      (sampleHandler.handleRequest (sampleOutcomes (.error (.exception "offline"))) (sampleRequest "@daemon") "@daemon"
        []).1
      (sampleHandler.handleRequest (sampleOutcomes (.error (.exception "offline"))) (sampleRequest "@daemon") "@daemon"
        []).2 ∧
    (sampleHandler.handleRequest (sampleOutcomes (.ok ())) (sampleRequest "") "@daemon" []) =
      (.error (.exception "invalid atSign"), []) := by
  refine ⟨rfl, ?_, rfl⟩
  rintro ⟨⟨answer, hresult, -⟩, -, -⟩
  cases hresult

end PolicyInfoRpcRequestHandler
end NoPorts.PolicyInfoRpc
