import Mathlib.Logic.Function.Basic
import NoPorts.Lib.Machine
import NoPorts.SshnpdRequests

/-! `_NPAAuthChecker`: the daemon's questions to the policy service, asked again only when the last one for the
client is forgotten, and the answers that come back for them. Each call of `mayConnect` is made by an `authCheck`
that stops waiting after a while. -/
namespace NoPorts.PolicyAnswers
open Lib

abbrev NPAAuthCheckResponse := Npp.NPAAuthCheckResponse

inductive AtRpcRespType where
  | ack | nack | success | error
  deriving DecidableEq, Repr

structure AtRpcResp where
  reqId : ℤ
  respType : AtRpcRespType
  message : Option String
  payload : List (String × Json)

def bool? : Json → Option Bool
  | .bool b => some b
  | _ => none

def list? : Json → Option (List Json)
  | .arr items => some items
  | _ => none

/-- `NPAAuthCheckResponse.fromJson` -/
def fromJson (json : List (String × Json)) : Except SshnpdRequests.Thrown NPAAuthCheckResponse := do
  let authorized ← SshnpdRequests.cast (bool? (Json.field json "authorized"))
  let message ←
    if (Json.field json "message").isNull then .ok none
    else some <$> SshnpdRequests.cast (Json.field json "message").str?
  let permitOpen ← SshnpdRequests.cast (list? (Json.field json "permitOpen"))
  return ⟨authorized, message, ← permitOpen.mapM fun item => SshnpdRequests.cast item.str?⟩

/-- How an `authCheck` that asks ends. -/
inductive Outcome where
  | answered (resp : NPAAuthCheckResponse)
  | timedOut
  /-- `mayConnect` threw. -/
  | threw
  deriving DecidableEq, Repr

/-- The same, as the handler of the notification is given it. -/
def Outcome.answer : Outcome → Except SshnpdRequests.Thrown (Option NPAAuthCheckResponse)
  | answered resp => .ok (some resp)
  | timedOut => .ok none
  | threw => .error (.other "auth check")

/-- A call of `mayConnect`, and the outcome of the `authCheck` that made it. -/
structure Call where
  clientAtsign : String
  /-- The request whose completer it waits for. -/
  reqId : ℤ
  /-- It awaits `rpc.sendRequest`. -/
  sending : Bool
  outcome : Option Outcome
  deriving DecidableEq, Repr

/-- Only the first outcome counts. -/
def Call.finish (c : Call) (o : Outcome) : Call := { c with outcome := some (c.outcome.getD o) }

structure NPAAuthChecker where
  authCheckCache : String → Option ℤ
  /-- The ids `completerMap` has a completer for. -/
  completerMap : List ℤ
  /-- The clearing of a request after 15 seconds, while it has not fired. -/
  timers : List (ℤ × String)
  /-- Every request sent, with the client it asks about. -/
  requests : List (ℤ × String)
  /-- The completers completed, whether or not `completerMap` still has them. -/
  completed : List (ℤ × NPAAuthCheckResponse)
  calls : List Call

namespace NPAAuthChecker
variable (text : AtRpcResp → String)

def init : NPAAuthChecker := ⟨fun _ => none, [], [], [], [], []⟩

/-- The ids of requests are unique, so one that was sent is not made again. -/
def mayConnect (s : NPAAuthChecker) (clientAtsign : String) (reqId : ℤ) : Option NPAAuthChecker :=
  match s.authCheckCache clientAtsign with
  | some cached =>
    -- without a completer, the null check throws
    let outcome := if cached ∈ s.completerMap then none else some .threw
    some { s with calls := s.calls ++ [⟨clientAtsign, cached, false, outcome⟩] }
  | none =>
    if reqId ∈ s.requests.map Prod.fst then none
    else some { s with
      completerMap := reqId :: s.completerMap
      authCheckCache := Function.update s.authCheckCache clientAtsign (some reqId)
      timers := (reqId, clientAtsign) :: s.timers
      requests := (reqId, clientAtsign) :: s.requests
      calls := s.calls ++ [⟨clientAtsign, reqId, true, none⟩] }

/-- The rest of `mayConnect` once `rpc.sendRequest` has ended. -/
def afterSend (s : NPAAuthChecker) (call : Call) (sent : Bool) : Call :=
  if sent = true ∧ call.reqId ∈ s.completerMap then { call with sending := false }
  else { call with sending := false }.finish .threw

def sendRequest (s : NPAAuthChecker) (i : ℕ) (sent : Bool) : Option NPAAuthChecker :=
  match s.calls[i]? with
  | some call =>
    if call.sending then some { s with calls := s.calls.set i (s.afterSend call sent) } else none
  | none => none

/-- What a response completes its completer with. -/
def verdict (response : AtRpcResp) : Option NPAAuthCheckResponse :=
  match response.respType with
  | .ack => none
  | .success => (fromJson response.payload).toOption
  | _ => some ⟨false, some (response.message.getD ("Got non-success response " ++ text response)), []⟩

/-- A payload that cannot be read throws, and completes nothing. -/
def handleResponse (s : NPAAuthChecker) (response : AtRpcResp) : NPAAuthChecker :=
  if response.reqId ∉ s.completerMap then s
  else if response.reqId ∈ s.completed.map Prod.fst then s
  else
    match verdict text response with
    | some resp => { s with completed := (response.reqId, resp) :: s.completed }
    | none => s

/-- The completer's future reaches a call that waits for it. -/
def resume (s : NPAAuthChecker) (i : ℕ) : Option NPAAuthChecker :=
  match s.calls[i]? with
  | some call =>
    if call.sending || call.outcome.isSome then none
    else
      (s.completed.lookup call.reqId).map fun resp =>
        { s with calls := s.calls.set i (call.finish (.answered resp)) }
  | none => none

def timeout (s : NPAAuthChecker) (i : ℕ) : Option NPAAuthChecker :=
  match s.calls[i]? with
  | some call =>
    if call.outcome.isSome then none else some { s with calls := s.calls.set i (call.finish .timedOut) }
  | none => none

def cleanup (s : NPAAuthChecker) (reqId : ℤ) (clientAtsign : String) : Option NPAAuthChecker :=
  if (reqId, clientAtsign) ∈ s.timers then
    some { s with
      timers := s.timers.filter (· ≠ (reqId, clientAtsign))
      completerMap := s.completerMap.filter (· ≠ reqId)
      authCheckCache := Function.update s.authCheckCache clientAtsign none }
  else none

inductive Event where
  | mayConnect (clientAtsign : String) (reqId : ℤ)
  | sendRequest (call : ℕ) (sent : Bool)
  | response (response : AtRpcResp)
  | resume (call : ℕ)
  | timeout (call : ℕ)
  | cleanup (reqId : ℤ) (clientAtsign : String)

def step (s : NPAAuthChecker) : Event → Option NPAAuthChecker
  | .mayConnect clientAtsign reqId => s.mayConnect clientAtsign reqId
  | .sendRequest i sent => s.sendRequest i sent
  | .response response => some (s.handleResponse text response)
  | .resume i => s.resume i
  | .timeout i => s.timeout i
  | .cleanup reqId clientAtsign => s.cleanup reqId clientAtsign

def machine : Machine NPAAuthChecker Event := ⟨step text⟩

/-- At some moment of the run a response to a request sent for the client came in, and `resp` is what it said. -/
def AnsweredFor (es : List Event) (clientAtsign : String) (resp : NPAAuthCheckResponse) : Prop :=
  (machine text).At init es fun u e => ∃ response, e = .response response ∧
    (response.reqId, clientAtsign) ∈ u.requests ∧ verdict text response = some resp

/-- The request was sent by a call for the client, when no answer was kept for it. -/
def SentFor (es : List Event) (reqId : ℤ) (clientAtsign : String) : Prop :=
  (machine text).At init es fun u e => e = .mayConnect clientAtsign reqId ∧ u.authCheckCache clientAtsign = none

variable {text}

theorem mem_of_lookup {reqId : ℤ} {completed : List (ℤ × NPAAuthCheckResponse)} {resp : NPAAuthCheckResponse}
    (h : completed.lookup reqId = some resp) : (reqId, resp) ∈ completed := by
  obtain ⟨before, after, rfl, -⟩ := List.lookup_eq_some_iff.mp h
  exact List.mem_append_right before List.mem_cons_self

/-! ### The invariant -/

/-- What the maps, the timers, the requests and the calls say of each other after the events `es`. -/
structure Inv (text : AtRpcResp → String) (es : List Event) (s : NPAAuthChecker) : Prop where
  unique : ∀ reqId X X', (reqId, X) ∈ s.requests → (reqId, X') ∈ s.requests → X = X'
  sent : ∀ reqId X, (reqId, X) ∈ s.requests → SentFor text es reqId X
  mapped : ∀ reqId ∈ s.completerMap, ∃ X, (reqId, X) ∈ s.requests
  cached : ∀ X reqId, s.authCheckCache X = some reqId → reqId ∈ s.completerMap ∧ (reqId, X) ∈ s.timers
  timed : ∀ reqId X, (reqId, X) ∈ s.timers → (reqId, X) ∈ s.requests ∧ s.authCheckCache X = some reqId
  waits : ∀ call ∈ s.calls, (call.reqId, call.clientAtsign) ∈ s.requests
  completed : ∀ reqId resp, (reqId, resp) ∈ s.completed →
    ∃ X, (reqId, X) ∈ s.requests ∧ AnsweredFor text es X resp
  answered : ∀ call ∈ s.calls, ∀ resp, call.outcome = some (.answered resp) →
    AnsweredFor text es call.clientAtsign resp

theorem inv_init : Inv text [] init := by
  constructor <;> simp [init]

theorem Inv.later {es : List Event} {s : NPAAuthChecker} (h : Inv text es s) (e : Event) :
    Inv text (es ++ [e]) s where
  unique := h.unique
  sent reqId X hsent := (h.sent reqId X hsent).later e
  mapped := h.mapped
  cached := h.cached
  timed := h.timed
  waits := h.waits
  completed reqId resp hcompleted := by
    obtain ⟨X, hX, hfor⟩ := h.completed reqId resp hcompleted
    exact ⟨X, hX, hfor.later e⟩
  answered call hcall resp houtcome := (h.answered call hcall resp houtcome).later e

section Steps
variable {es : List Event} {s t : NPAAuthChecker}

/-- A call that waits for a request of its client, and has no answer of another's. -/
structure CallOk (text : AtRpcResp → String) (es : List Event) (s : NPAAuthChecker) (call : Call) : Prop where
  waits : (call.reqId, call.clientAtsign) ∈ s.requests
  answered : ∀ resp, call.outcome = some (.answered resp) → AnsweredFor text es call.clientAtsign resp

theorem Inv.callOk (h : Inv text es s) {call : Call} (hcall : call ∈ s.calls) : CallOk text es s call :=
  ⟨h.waits call hcall, h.answered call hcall⟩

/-- Steps that change only the calls. -/
theorem Inv.with_calls (h : Inv text es s) {calls : List Call} (hcalls : ∀ call ∈ calls, CallOk text es s call) :
    Inv text es { s with calls := calls } :=
  { h with waits := fun call hcall => (hcalls call hcall).waits
           answered := fun call hcall => (hcalls call hcall).answered }

theorem Inv.set_call (h : Inv text es s) {i : ℕ} {call : Call} (hcall : CallOk text es s call) :
    Inv text es { s with calls := s.calls.set i call } := by
  apply h.with_calls
  intro c hc
  rcases List.mem_or_eq_of_mem_set hc with hc | rfl
  · exact h.callOk hc
  · exact hcall

/-- A call that ends in anything but an answer. -/
theorem CallOk.finish {call : Call} (h : CallOk text es s call) {o : Outcome}
    (ho : ∀ resp, o = .answered resp → AnsweredFor text es call.clientAtsign resp) :
    CallOk text es s (call.finish o) := by
  refine ⟨h.waits, fun resp houtcome => ?_⟩
  cases hbefore : call.outcome with
  | none =>
    simp only [Call.finish, hbefore, Option.getD_none, Option.some.injEq] at houtcome
    exact ho resp houtcome
  | some before =>
    simp only [Call.finish, hbefore, Option.getD_some, Option.some.injEq] at houtcome
    exact h.answered resp (by rw [hbefore, houtcome])

theorem CallOk.sent {call : Call} (h : CallOk text es s call) : CallOk text es s { call with sending := false } :=
  ⟨h.waits, h.answered⟩

theorem Inv.sendRequest (h : Inv text es s) {i : ℕ} {sent : Bool} (hstep : s.sendRequest i sent = some t) :
    Inv text es t := by
  unfold NPAAuthChecker.sendRequest at hstep
  split at hstep
  · rename_i call hcall
    have hok := h.callOk (List.mem_of_getElem? hcall)
    split at hstep
    · cases hstep
      apply h.set_call
      unfold afterSend
      split
      · exact hok.sent
      · exact hok.sent.finish (by simp)
    · cases hstep
  · cases hstep

theorem Inv.timeout (h : Inv text es s) {i : ℕ} (hstep : s.timeout i = some t) : Inv text es t := by
  unfold NPAAuthChecker.timeout at hstep
  split at hstep
  · rename_i call hcall
    split at hstep
    · cases hstep
    · cases hstep
      exact h.set_call ((h.callOk (List.mem_of_getElem? hcall)).finish (by simp))
  · cases hstep

/-- The completer a call waits for is completed for its own client. -/
theorem Inv.resume (h : Inv text es s) {i : ℕ} (hstep : s.resume i = some t) : Inv text es t := by
  unfold NPAAuthChecker.resume at hstep
  split at hstep
  · rename_i call hcall
    have hok := h.callOk (List.mem_of_getElem? hcall)
    split at hstep
    · cases hstep
    · obtain ⟨resp, hresp, rfl⟩ := Option.map_eq_some_iff.mp hstep
      obtain ⟨X, hX, hfor⟩ := h.completed call.reqId resp (mem_of_lookup hresp)
      have hclient : X = call.clientAtsign := h.unique call.reqId X call.clientAtsign hX hok.waits
      apply h.set_call
      apply hok.finish
      intro other hother
      cases hother
      rwa [← hclient]
  · cases hstep

theorem Inv.cleanup (h : Inv text es s) {reqId : ℤ} {X : String} (hstep : s.cleanup reqId X = some t) :
    Inv text es t := by
  unfold NPAAuthChecker.cleanup at hstep
  split at hstep
  · rename_i htimer
    cases hstep
    have hmine := (h.timed reqId X htimer).1
    exact
      { h with
        mapped := fun id hid => h.mapped id (List.mem_of_mem_filter hid)
        cached := by
          intro Y id hid
          dsimp only at hid ⊢
          by_cases hY : Y = X
          · rw [hY, Function.update_self] at hid
            cases hid
          · rw [Function.update_of_ne hY] at hid
            obtain ⟨hmap, htimed⟩ := h.cached Y id hid
            -- another client's request has another id
            have hne : id ≠ reqId := by
              rintro rfl
              exact hY (h.unique id Y X (h.timed id Y htimed).1 hmine)
            refine ⟨List.mem_filter.mpr ⟨hmap, by simpa using hne⟩, List.mem_filter.mpr ⟨htimed, ?_⟩⟩
            simp [hne]
        timed := by
          intro id Y hid
          obtain ⟨htimed, hdiff⟩ := List.mem_filter.mp hid
          obtain ⟨hsent, hcache⟩ := h.timed id Y htimed
          refine ⟨hsent, ?_⟩
          dsimp only
          by_cases hY : Y = X
          · have hsame := (h.timed reqId X htimer).2
            rw [hY, hsame, Option.some.injEq] at hcache
            rw [hY, hcache] at hdiff
            simp at hdiff
          · rw [Function.update_of_ne hY]
            exact hcache }
  · cases hstep

theorem Inv.handleResponse (h : Inv text es s) {response : AtRpcResp}
    (hnow : ∀ X resp, (response.reqId, X) ∈ s.requests → verdict text response = some resp →
      AnsweredFor text es X resp) : Inv text es (s.handleResponse text response) := by
  unfold NPAAuthChecker.handleResponse
  split
  · exact h
  · rename_i hmap
    obtain ⟨X, hX⟩ := h.mapped response.reqId (not_not.mp hmap)
    split
    · exact h
    · split
      · rename_i resp hverdict
        exact
          { h with
            completed := by
              intro id r hr
              rcases List.mem_cons.mp hr with heq | hr
              · cases heq
                exact ⟨X, hX, hnow X resp hX hverdict⟩
              · exact h.completed id r hr }
      · exact h

theorem Inv.mayConnect (h : Inv text es s) {X : String} {reqId : ℤ} (hstep : s.mayConnect X reqId = some t)
    (hnow : s.authCheckCache X = none → SentFor text es reqId X) : Inv text es t := by
  unfold NPAAuthChecker.mayConnect at hstep
  split at hstep
  · rename_i cached hcached
    cases hstep
    obtain ⟨hmap, htimed⟩ := h.cached X cached hcached
    apply h.with_calls
    intro call hcall
    rcases List.mem_append.mp hcall with hcall | hcall
    · exact h.callOk hcall
    · rw [List.mem_singleton.mp hcall]
      exact ⟨(h.timed cached X htimed).1, by simp [hmap]⟩
  · rename_i hnone
    split at hstep
    · cases hstep
    · rename_i hfresh
      have hnew : ∀ Y, (reqId, Y) ∉ s.requests := fun Y hY => hfresh (List.mem_map_of_mem (f := Prod.fst) hY)
      cases hstep
      exact
        { unique := by
            intro id Y Z hY hZ
            rcases List.mem_cons.mp hY with hY | hY <;> rcases List.mem_cons.mp hZ with hZ | hZ
            · rw [(Prod.mk.inj hY).2, (Prod.mk.inj hZ).2]
            · rw [(Prod.mk.inj hY).1] at hZ
              exact absurd hZ (hnew Z)
            · rw [(Prod.mk.inj hZ).1] at hY
              exact absurd hY (hnew Y)
            · exact h.unique id Y Z hY hZ
          sent := by
            intro id Y hY
            rcases List.mem_cons.mp hY with hY | hY
            · rw [(Prod.mk.inj hY).1, (Prod.mk.inj hY).2]
              exact hnow hnone
            · exact h.sent id Y hY
          mapped := by
            intro id hid
            rcases List.mem_cons.mp hid with rfl | hid
            · exact ⟨X, List.mem_cons_self⟩
            · obtain ⟨Y, hY⟩ := h.mapped id hid
              exact ⟨Y, List.mem_cons_of_mem _ hY⟩
          cached := by
            intro Y id hid
            dsimp only at hid ⊢
            by_cases hY : Y = X
            · rw [hY, Function.update_self, Option.some.injEq] at hid
              rw [hY, ← hid]
              exact ⟨List.mem_cons_self, List.mem_cons_self⟩
            · rw [Function.update_of_ne hY] at hid
              obtain ⟨hmap, htimed⟩ := h.cached Y id hid
              exact ⟨List.mem_cons_of_mem _ hmap, List.mem_cons_of_mem _ htimed⟩
          timed := by
            intro id Y hid
            dsimp only at hid ⊢
            rcases List.mem_cons.mp hid with heq | hid
            · rw [(Prod.mk.inj heq).1, (Prod.mk.inj heq).2, Function.update_self]
              exact ⟨List.mem_cons_self, rfl⟩
            · obtain ⟨hsent, hcache⟩ := h.timed id Y hid
              have hY : Y ≠ X := by
                rintro rfl
                rw [hnone] at hcache
                cases hcache
              rw [Function.update_of_ne hY]
              exact ⟨List.mem_cons_of_mem _ hsent, hcache⟩
          waits := by
            intro call hcall
            rcases List.mem_append.mp hcall with hcall | hcall
            · exact List.mem_cons_of_mem _ (h.waits call hcall)
            · rw [List.mem_singleton.mp hcall]
              exact List.mem_cons_self
          completed := by
            intro id resp hresp
            obtain ⟨Y, hY, hfor⟩ := h.completed id resp hresp
            exact ⟨Y, List.mem_cons_of_mem _ hY, hfor⟩
          answered := by
            intro call hcall resp houtcome
            rcases List.mem_append.mp hcall with hcall | hcall
            · exact h.answered call hcall resp houtcome
            · rw [List.mem_singleton.mp hcall] at houtcome
              cases houtcome }

/-- Every step keeps the invariant. -/
theorem Inv.step (hrun : (machine text).run init es = some s) (h : Inv text es s) {e : Event}
    (hstep : s.step text e = some t) : Inv text (es ++ [e]) t := by
  have hlater := h.later e
  cases e with
  | mayConnect X reqId => exact hlater.mayConnect hstep fun hnone => Machine.At.now hrun ⟨rfl, hnone⟩
  | sendRequest i sent => exact hlater.sendRequest hstep
  | response response =>
    cases hstep
    apply hlater.handleResponse
    intro X resp hX hverdict
    exact Machine.At.now hrun ⟨response, rfl, hX, hverdict⟩
  | resume i => exact hlater.resume hstep
  | timeout i => exact hlater.timeout hstep
  | cleanup reqId X => exact hlater.cleanup hstep

theorem inv_run (hrun : (machine text).run init es = some s) : Inv text es s :=
  (machine text).run_induction inv_init (fun _ _ _ _ hu hi hstep => hi.step hu hstep) hrun

end Steps

/-- Only a success says yes. -/
theorem verdict_authorized {response : AtRpcResp} {resp : NPAAuthCheckResponse}
    (h : verdict text response = some resp) (hyes : resp.authorized = true) :
    response.respType = .success ∧ fromJson response.payload = .ok resp := by
  unfold verdict at h
  split at h
  · cases h
  · rename_i hsuccess
    cases hread : fromJson response.payload with
    | error e =>
      rw [hread] at h
      cases h
    | ok read =>
      rw [hread] at h
      exact ⟨hsuccess, by rw [Option.some.inj h]⟩
  · cases h
    cases hyes

/-- The policy service's yes for the client: a success that says so, for a request sent for it. -/
def Authorised (text : AtRpcResp → String) (es : List Event) (clientAtsign : String) (resp : NPAAuthCheckResponse) :
    Prop :=
  (machine text).At init es fun u e => ∃ response, e = .response response ∧
    (response.reqId, clientAtsign) ∈ u.requests ∧ response.respType = .success ∧
      fromJson response.payload = .ok resp ∧ resp.authorized = true

/-- A client that is not a manager is let in only on an answer that says yes. -/
theorem authCheck_authorized {d : SshnpdRequests.SshnpdImpl} {n : SshnpdRequests.AtNotification}
    {a : SshnpdRequests.Answers} {o : Outcome} {auth : NPAAuthCheckResponse} (hpolicy : d.policy = true)
    (hmanager : n.fromAtsign ∉ d.managerAtsigns)
    (h : d.authCheck n { a with mayConnect := o.answer } = .ok auth) (hyes : auth.authorized = true) :
    o = .answered auth := by
  simp only [SshnpdRequests.SshnpdImpl.authCheck, List.contains_eq_mem, hmanager, decide_false, hpolicy,
    Bool.false_eq_true, if_false, if_true] at h
  cases o with
  | answered resp =>
    cases h
    rfl
  | timedOut =>
    cases h
    cases hyes
  | threw => cases h

/-- A call gets its answer from a response to a request sent for its own client; only a success that authorises
that client lets it in, and a throw or a time-out does not; and a cached request always has its completer. -/
theorem answers_reach_their_caller (text : AtRpcResp → String) {es : List Event} {s : NPAAuthChecker}
    (hrun : (machine text).run init es = some s) :
    (∀ call ∈ s.calls, ∀ resp, call.outcome = some (.answered resp) →
      AnsweredFor text es call.clientAtsign resp) ∧
    (∀ call ∈ s.calls, ∀ o, call.outcome = some o → ∀ (d : SshnpdRequests.SshnpdImpl)
      (n : SshnpdRequests.AtNotification) (a : SshnpdRequests.Answers) (auth : NPAAuthCheckResponse),
      d.policy = true → n.fromAtsign = call.clientAtsign → n.fromAtsign ∉ d.managerAtsigns →
        d.authCheck n { a with mayConnect := o.answer } = .ok auth → auth.authorized = true →
          Authorised text es call.clientAtsign auth) ∧
    (∀ reqId X, (reqId, X) ∈ s.requests → SentFor text es reqId X) ∧
    ∀ X reqId, s.authCheckCache X = some reqId → reqId ∈ s.completerMap := by
  have hinv := inv_run hrun
  refine ⟨hinv.answered, ?_, hinv.sent, fun X reqId hcached => (hinv.cached X reqId hcached).1⟩
  intro call hcall o ho d n a auth hpolicy _ hmanager hcheck hyes
  have hanswered := authCheck_authorized hpolicy hmanager hcheck hyes
  have hfor := hinv.answered call hcall auth (by rw [ho, hanswered])
  apply hfor.mono
  rintro u e ⟨response, rfl, hsent, hverdict⟩
  obtain ⟨hsuccess, hread⟩ := verdict_authorized hverdict hyes
  exact ⟨response, rfl, hsent, hsuccess, hread, hyes⟩

/-! ### A run -/

def sampleText (response : AtRpcResp) : String := "response " ++ toString response.reqId

def yes : AtRpcResp := ⟨1, .success, none, [("authorized", .bool true), ("permitOpen", .arr [.str "*:22"])]⟩

/-- Two clients ask, one of them twice; its answer comes twice, the other is refused late. -/
def sampleRun : List Event :=
  [.mayConnect "@a" 1, .mayConnect "@b" 2, .mayConnect "@a" 3, .sendRequest 0 true, .sendRequest 1 true,
    .response yes, .response yes, .resume 2, .timeout 1, .response ⟨2, .nack, none, []⟩, .resume 0, .cleanup 1 "@a"]

theorem answers_reach_their_caller_sample : ∃ s, (machine sampleText).run init sampleRun = some s ∧
    s.calls.map Call.outcome = [some (.answered ⟨true, none, ["*:22"]⟩), some .timedOut,
      some (.answered ⟨true, none, ["*:22"]⟩)] ∧
    AnsweredFor sampleText sampleRun "@a" ⟨true, none, ["*:22"]⟩ := by
  obtain ⟨s, hs⟩ : ∃ s, (machine sampleText).run init sampleRun = some s := ⟨_, rfl⟩
  have hcalls : ((machine sampleText).run init sampleRun).map NPAAuthChecker.calls =
      some [⟨"@a", 1, false, some (.answered ⟨true, none, ["*:22"]⟩)⟩, ⟨"@b", 2, false, some .timedOut⟩,
        ⟨"@a", 1, false, some (.answered ⟨true, none, ["*:22"]⟩)⟩] := by decide
  rw [hs, Option.map_some, Option.some.injEq] at hcalls
  refine ⟨s, hs, by rw [hcalls]; rfl, ?_⟩
  exact (answers_reach_their_caller sampleText hs).1 ⟨"@a", 1, false, some (.answered ⟨true, none, ["*:22"]⟩)⟩
    (by rw [hcalls]; exact List.mem_cons_self) _ rfl

end NPAAuthChecker
end NoPorts.PolicyAnswers
