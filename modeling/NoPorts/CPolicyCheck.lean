import NoPorts.CDaemonLoop

/-! One question to the policy service, and the wait for its answer. -/
namespace NoPorts.CDaemon
open Lib

/-! ### policy_limits.c -/

def policyWaitMs : ℤ := 10000
def policyWaitCapMs : ℤ := 30000

/-- `policy_wait_deadline` -/
def policyWaitDeadline (startedMs lastProgressMs : ℤ) : ℤ :=
  let deadline := lastProgressMs + policyWaitMs
  let cap := startedMs + policyWaitCapMs
  if deadline < cap then deadline else cap

/-! ### policy.c -/

/-- `strstr` -/
def contains (s pat : String) : Bool := (indexOf? pat.toList s.toList).isSome

/-- What a decision's memory holds: the list with its slots, none of them for NULL. -/
structure DecisionMemory where
  authorized : Bool
  permitOpen : List (Option String)
  permitOpenLen : ℕ
  deriving DecidableEq, Repr

namespace DecisionMemory

def zero : DecisionMemory := ⟨false, [], 0⟩

/-- The decision as its readers see it. -/
def decision (d : DecisionMemory) : PolicyDecision :=
  ⟨d.authorized, (d.permitOpen.take d.permitOpenLen).reduceOption⟩

end DecisionMemory

/-- The memory that one parse is given: for the value, for the list, and for how many of its texts. -/
structure ParseMemory where
  root : Bool
  list : Bool
  texts : Option ℕ
  deriving DecidableEq, Repr

/-- The conversion of a number to `int64_t`, with its least value for what is out of range. -/
def int64Value (q : ℚ) : ℤ :=
  let n := if 0 ≤ q then q.floor else q.ceil
  if -9223372036854775808 ≤ n ∧ n < 9223372036854775808 then n else -9223372036854775808

/-- The loop that copies the texts of `permitOpen`; none when one would be written outside of the list. -/
def copyEntries : List Json → Option ℕ → DecisionMemory → Option (Bool × DecisionMemory)
  | [], _, d => some (true, d)
  | item :: items, texts, d =>
    match getStringValue (some item) with
    | none => copyEntries items texts d
    | some entry =>
      if d.permitOpen.length ≤ d.permitOpenLen then none
      else if texts = some 0 then some (false, .zero)
      else copyEntries items (texts.map (· - 1))
        { d with permitOpen := d.permitOpen.set d.permitOpenLen (some entry), permitOpenLen := d.permitOpenLen + 1 }

/-- What `policy_parse_response_value` does with the payload of a success. -/
def readPayload (memory : ParseMemory) (payload : Option Json) (d : DecisionMemory) : Option (Bool × DecisionMemory) :=
  let d := { d with authorized := isTrue (getObjectItem payload "authorized") }
  match getObjectItem payload "permitOpen" with
  | some (.arr items) =>
    if items = [] then some (true, d)
    else if !memory.list then some (false, { d with authorized := false, permitOpen := [] })
    else copyEntries items memory.texts { d with permitOpen := List.replicate items.length none }
  | _ => some (true, d)

/-- `policy_parse_response_value`: whether it returns 0, the decision, and `resp_type_out`. -/
def policyParseResponseValue (parse : String → Option Json) (memory : ParseMemory) (json : String)
    (expectedReqId : ℤ) (d : DecisionMemory) (respTypeSize : ℕ) : Option (Bool × DecisionMemory × String) :=
  match if memory.root then parse json else none with
  | none => some (false, d, "")
  | some root =>
    match getNumberValue (getObjectItem root "reqId"), getStringValue (getObjectItem root "respType") with
    | some reqId, some respType =>
      if int64Value reqId ≠ expectedReqId then some (false, d, "")
      else
        let respTypeOut := String.ofList (respType.toList.take (respTypeSize - 1))
        if respType = "success" then
          (readPayload memory (getObjectItem root "payload") d).map fun r => (r.1, r.2, respTypeOut)
        else some (true, d, respTypeOut)
    | _, _ => some (false, d, "")

/-- `is_policy_response`, for a key that is there -/
def isPolicyResponse (params : SshnpdParams) (reqId : ℤ) (fromAtsign : Option String) (key : String) : Bool :=
  atsignEquals fromAtsign params.policy && contains key policyRpcInfix &&
    contains key ("." ++ toString reqId ++ ".")

/-- One turn of the loop that waits: the clock before it, what the monitor gives, and the clock after that. -/
structure WaitTurn where
  nowMs : ℤ
  readRet : ℤ
  message : MonitorMessage
  memory : ParseMemory
  laterMs : ℤ

inductive PolicyCheck where
  | waiting (lastProgressMs : ℤ) (d : DecisionMemory)
  | returned (ret : ℤ) (d : DecisionMemory)
  /-- A byte was written outside of the decision's list. -/
  | overrun
  deriving DecidableEq, Repr

namespace PolicyCheck
variable (parse : String → Option Json) (params : SshnpdParams) (reqId startedMs : ℤ)

/-- `policy_auth_check` up to its loop, once the request has been sent or could not be. -/
def start (sent : Bool) : PolicyCheck := if sent then .waiting startedMs .zero else .returned 1 .zero

/-- What the loop does with a notification that has its three texts. -/
def onNotification (lastProgressMs : ℤ) (d : DecisionMemory) (t : WaitTurn) (fromAtsign : Option String)
    (key value : String) : PolicyCheck :=
  if isPolicyResponse params reqId fromAtsign key then
    match policyParseResponseValue parse t.memory value reqId d 16 with
    | none => .overrun
    | some (false, d, _) => .waiting lastProgressMs d
    | some (true, d, respType) => if respType = "ack" then .waiting t.laterMs d else .returned 0 d
  else .waiting lastProgressMs d

/-- The loop of `policy_auth_check`. -/
def turn : PolicyCheck → WaitTurn → Option PolicyCheck
  | .waiting lastProgressMs d, t =>
    if policyWaitDeadline startedMs lastProgressMs ≤ t.nowMs then some (.returned 0 .zero)
    else if t.readRet ≠ 0 then some (.waiting lastProgressMs d)
    else
      match t.message with
      | .notification ⟨_, some fromAtsign, _, some key, some value⟩ =>
        some (onNotification parse params reqId lastProgressMs d t fromAtsign key value)
      | _ => some (.waiting lastProgressMs d)
  | .returned _ _, _ | .overrun, _ => none

def machine : Machine PolicyCheck WaitTurn := ⟨turn parse params reqId startedMs⟩

end PolicyCheck

/-! ### What a decision may come from -/

/-- The permit list of a response: the texts of its `permitOpen`. -/
def permitTexts (root : Json) : List String :=
  match getObjectItem (getObjectItem root "payload") "permitOpen" with
  | some (.arr items) => items.filterMap Json.str?
  | _ => []

def authorizes (root : Json) : Bool := isTrue (getObjectItem (getObjectItem root "payload") "authorized")

/-- A response of this type to the request, from the policy service. -/
structure RespondsTo (parse : String → Option Json) (params : SshnpdParams) (reqId : ℤ) (message : MonitorMessage)
    (root : Json) (respType : String) : Prop where
  sent : ∃ id toAtsign fromAtsign key value policy,
    message = .notification ⟨id, some fromAtsign, toAtsign, some key, some value⟩ ∧
      params.policy = some policy ∧
        dropPrefix ['@'] fromAtsign.toList = dropPrefix ['@'] policy.toList ∧
          policyRpcInfix.toList <:+: key.toList ∧ ("." ++ toString reqId ++ ".").toList <:+: key.toList ∧
            parse value = some root
  reqId : ∃ q, getNumberValue (getObjectItem root "reqId") = some q ∧ int64Value q = reqId
  respType : getStringValue (getObjectItem root "respType") = some respType

theorem contains_iff {s pat : String} : contains s pat = true ↔ pat.toList <:+: s.toList := isSome_indexOf?

/-- The texts are copied into the slots that are left, or nothing is. -/
theorem copyEntries_spec (items : List Json) (texts : Option ℕ) {d : DecisionMemory} {copied : List String} {n : ℕ}
    (hslots : d.permitOpen = copied.map some ++ List.replicate n none) (hlen : d.permitOpenLen = copied.length)
    (hroom : items.length ≤ n) : copyEntries items texts d = some (false, .zero) ∨
      ∃ d', copyEntries items texts d = some (true, d') ∧
        d'.decision = ⟨d.authorized, copied ++ items.filterMap Json.str?⟩ := by
  induction items generalizing texts d copied n with
  | nil =>
    refine Or.inr ⟨d, rfl, ?_⟩
    have htake : d.permitOpen.take d.permitOpenLen = copied.map some := by
      rw [hslots, hlen, ← List.length_map (f := some), List.take_left]
    have hentries : (copied.map some).reduceOption = copied := by
      change (copied.map some).filterMap id = copied
      rw [List.filterMap_map]
      exact List.filterMap_some
    rw [DecisionMemory.decision, htake, hentries, List.filterMap_nil, List.append_nil]
  | cons item items ih =>
    rw [List.length_cons] at hroom
    rw [copyEntries, getStringValue, Option.bind_some]
    cases hitem : item.str? with
    | none =>
      rw [List.filterMap_cons_none hitem]
      exact ih texts hslots hlen (Nat.le_of_succ_le hroom)
    | some entry =>
      obtain ⟨n, rfl⟩ := Nat.exists_eq_add_of_lt hroom
      have hfree : ¬d.permitOpen.length ≤ d.permitOpenLen := by
        rw [hslots, hlen, List.length_append, List.length_map, List.length_replicate]
        omega
      simp only [if_neg hfree]
      split
      · exact Or.inl rfl
      · rw [List.filterMap_cons_some hitem, List.append_cons]
        refine ih _ (n := items.length + n) ?_ ?_ (Nat.le_add_right _ _)
        · -- the first slot that is left takes the text
          have hset : (copied.map some ++ none :: List.replicate (items.length + n) none).set copied.length
              (some entry) = copied.map some ++ some entry :: List.replicate (items.length + n) none := by
            rw [List.set_append_right _ _ (by rw [List.length_map]), List.length_map, Nat.sub_self, List.set_cons_zero]
          rw [hslots, hlen, List.map_append, List.map_singleton, List.append_assoc]
          exact hset
        · rw [hlen, List.length_append, List.length_singleton]

theorem readPayload_spec (memory : ParseMemory) (root : Json) :
    readPayload memory (getObjectItem root "payload") .zero = some (false, .zero) ∨
      ∃ d, readPayload memory (getObjectItem root "payload") .zero = some (true, d) ∧
        d.decision = ⟨authorizes root, permitTexts root⟩ := by
  rw [readPayload, authorizes, permitTexts]
  dsimp only
  split
  · rename_i items _
    by_cases hnil : items = []
    · subst hnil
      exact Or.inr ⟨_, if_pos rfl, rfl⟩
    · rw [if_neg hnil]
      cases memory.list with
      | false => exact Or.inl rfl
      | true =>
        refine @copyEntries_spec items memory.texts _ [] _ ?_ rfl (Nat.le_refl _)
        rfl
  · exact Or.inr ⟨_, rfl, rfl⟩

section
variable {parse : String → Option Json} {params : SshnpdParams} {reqId : ℤ}

/-- A value that is read to the end is the request's, and leaves nothing unless it is a success. -/
theorem policyParseResponseValue_spec (memory : ParseMemory) (json : String) (size : ℕ) :
    (∃ respTypeOut, policyParseResponseValue parse memory json reqId .zero size = some (false, .zero, respTypeOut)) ∨
      ∃ root respType d, parse json = some root ∧
        (∃ q, getNumberValue (getObjectItem root "reqId") = some q ∧ int64Value q = reqId) ∧
          getStringValue (getObjectItem root "respType") = some respType ∧
            policyParseResponseValue parse memory json reqId .zero size =
                some (true, d, String.ofList (respType.toList.take (size - 1))) ∧
              (respType = "success" → d.decision = ⟨authorizes root, permitTexts root⟩) ∧
                (respType ≠ "success" → d = .zero) := by
  rw [policyParseResponseValue]
  cases hroot : if memory.root then parse json else none with
  | none => exact Or.inl ⟨"", rfl⟩
  | some root =>
    have hparse : parse json = some root := (Option.ite_none_right_eq_some.mp hroot).2
    dsimp only
    split
    · rename_i q respType hq hrespType
      -- a response of another request is refused before its payload is looked at
      by_cases hid : int64Value q = reqId
      · rw [if_neg (not_not.mpr hid)]
        by_cases hsuccess : respType = "success"
        · rw [if_pos hsuccess]
          rcases readPayload_spec memory root with hfail | ⟨d, hread, hd⟩
          · rw [hfail]
            exact Or.inl ⟨_, rfl⟩
          · rw [hread]
            exact Or.inr ⟨root, respType, d, hparse, ⟨q, hq, hid⟩, hrespType, rfl, fun _ => hd,
              fun hne => absurd hsuccess hne⟩
        · rw [if_neg hsuccess]
          exact Or.inr ⟨root, respType, _, hparse, ⟨q, hq, hid⟩, hrespType, rfl,
            fun h => absurd h hsuccess, fun _ => rfl⟩
      · rw [if_pos hid]
        exact Or.inl ⟨"", rfl⟩
    · exact Or.inl ⟨"", rfl⟩

theorem ack_of_cut {respType : String} (h : String.ofList (respType.toList.take (16 - 1)) = "ack") : respType = "ack" := by
  have hchars : respType.toList.take 15 = ['a', 'c', 'k'] := by
    have hlist := congrArg String.toList h
    rwa [String.toList_ofList] at hlist
  have hlen := congrArg List.length hchars
  rw [List.length_take, List.length_cons, List.length_cons, List.length_singleton] at hlen
  rw [List.take_of_length_le (by omega)] at hchars
  rw [← String.ofList_toList (s := respType), hchars]

theorem isPolicyResponse_iff {fromAtsign key : String} : isPolicyResponse params reqId (some fromAtsign) key = true ↔
    (∃ policy, params.policy = some policy ∧ dropPrefix ['@'] fromAtsign.toList = dropPrefix ['@'] policy.toList) ∧
      policyRpcInfix.toList <:+: key.toList ∧ ("." ++ toString reqId ++ ".").toList <:+: key.toList := by
  rw [isPolicyResponse, Bool.and_eq_true, Bool.and_eq_true, contains_iff, contains_iff, and_assoc]
  refine and_congr_left' ?_
  cases hpolicy : params.policy with
  | none =>
    constructor
    · intro h
      cases h
    · rintro ⟨policy, hsome, -⟩
      cases hsome
  | some policy =>
    constructor
    · intro h
      exact ⟨policy, rfl, beq_iff_eq.mp h⟩
    · rintro ⟨policy, hsome, hequal⟩
      obtain rfl := Option.some.inj hsome
      exact beq_iff_eq.mpr hequal

/-- A message is of one type. -/
theorem RespondsTo.respType_eq {message : MonitorMessage} {root root' : Json} {respType respType' : String}
    (h : RespondsTo parse params reqId message root respType)
    (h' : RespondsTo parse params reqId message root' respType') : respType = respType' := by
  obtain ⟨id, toAtsign, fromAtsign, key, value, policy, rfl, -, -, -, -, hparse⟩ := h.sent
  obtain ⟨id', toAtsign', fromAtsign', key', value', policy', hmessage, -, -, -, -, hparse'⟩ := h'.sent
  obtain rfl : value = value' := by
    injection hmessage with hnotification
    injection hnotification with _ _ _ _ hvalue
    exact Option.some.inj hvalue
  obtain rfl := Option.some.inj (hparse.symm.trans hparse')
  exact Option.some.inj (h.respType.symm.trans h'.respType)

namespace PolicyCheck
variable {startedMs : ℤ}

/-- All that a turn can lead to. -/
inductive Turned (parse : String → Option Json) (params : SshnpdParams) (reqId startedMs lastProgressMs : ℤ)
    (t : WaitTurn) : PolicyCheck → Prop where
  | late (h : policyWaitDeadline startedMs lastProgressMs ≤ t.nowMs) :
      Turned parse params reqId startedMs lastProgressMs t (.returned 0 .zero)
  | ignored : Turned parse params reqId startedMs lastProgressMs t (.waiting lastProgressMs .zero)
  | acked (root : Json) (h : RespondsTo parse params reqId t.message root "ack") :
      Turned parse params reqId startedMs lastProgressMs t (.waiting t.laterMs .zero)
  | decided (root : Json) (respType : String) (d : DecisionMemory)
      (h : RespondsTo parse params reqId t.message root respType) (hack : respType ≠ "ack")
      (hsuccess : respType = "success" → d.decision = ⟨authorizes root, permitTexts root⟩)
      (hother : respType ≠ "success" → d = .zero) :
      Turned parse params reqId startedMs lastProgressMs t (.returned 0 d)

theorem turned_onNotification {lastProgressMs : ℤ} {t : WaitTurn} {id toAtsign : Option String}
    {fromAtsign key value : String}
    (hmessage : t.message = .notification ⟨id, some fromAtsign, toAtsign, some key, some value⟩) :
    Turned parse params reqId startedMs lastProgressMs t
      (onNotification parse params reqId lastProgressMs .zero t fromAtsign key value) := by
  rw [onNotification]
  split
  · rename_i hresponse
    obtain ⟨⟨policy, hpolicy, hfrom⟩, hinfix, hid⟩ := isPolicyResponse_iff.mp hresponse
    rcases policyParseResponseValue_spec t.memory value 16 with
      ⟨respTypeOut, hfail⟩ | ⟨root, respType, d, hparse, hreqId, hrespType, hread, hsuccess, hother⟩
    · rw [hfail]
      exact .ignored
    · have hresponds : RespondsTo parse params reqId t.message root respType :=
        ⟨⟨id, toAtsign, fromAtsign, key, value, policy, hmessage, hpolicy, hfrom, hinfix, hid, hparse⟩, hreqId, hrespType⟩
      rw [hread]
      dsimp only
      -- the type is compared as its 16 bytes hold it, cut short
      split
      · rename_i hack
        obtain rfl := ack_of_cut hack
        rw [hother (by decide)]
        exact .acked root hresponds
      · rename_i hack
        refine .decided root respType d hresponds (fun h => hack ?_) hsuccess hother
        rw [h]
        rfl
  · exact .ignored

theorem turn_cases {lastProgressMs : ℤ} {t : WaitTurn} {c : PolicyCheck}
    (h : turn parse params reqId startedMs (.waiting lastProgressMs .zero) t = some c) :
    Turned parse params reqId startedMs lastProgressMs t c := by
  rw [turn] at h
  split at h
  · rename_i hlate
    obtain rfl := Option.some.inj h
    exact .late hlate
  · split at h
    · obtain rfl := Option.some.inj h
      exact .ignored
    · split at h
      · rename_i hmessage
        obtain rfl := Option.some.inj h
        exact turned_onNotification hmessage
      · obtain rfl := Option.some.inj h
        exact .ignored

/-- A check that waits goes on or comes to its end. -/
theorem exists_turn (parse : String → Option Json) (params : SshnpdParams) (reqId startedMs lastProgressMs : ℤ)
    (d : DecisionMemory) (t : WaitTurn) :
    ∃ c, turn parse params reqId startedMs (.waiting lastProgressMs d) t = some c := by
  rw [turn]
  split
  · exact ⟨_, rfl⟩
  · split
    · exact ⟨_, rfl⟩
    · split
      · exact ⟨_, rfl⟩
      · exact ⟨_, rfl⟩

theorem policyWaitDeadline_mono {startedMs lastProgressMs laterMs : ℤ} (h : lastProgressMs ≤ laterMs) :
    policyWaitDeadline startedMs lastProgressMs ≤ policyWaitDeadline startedMs laterMs := by
  simp only [policyWaitDeadline]
  split <;> split <;> omega

theorem policyWaitDeadline_le (startedMs lastProgressMs : ℤ) :
    policyWaitDeadline startedMs lastProgressMs ≤ startedMs + policyWaitCapMs := by
  simp only [policyWaitDeadline]
  split <;> omega

/-! ### The whole wait -/

/-- What holds of the wait that these turns lead to. -/
structure Trusted (parse : String → Option Json) (params : SshnpdParams) (reqId startedMs : ℤ) (sent : Bool)
    (turns : List WaitTurn) (c : PolicyCheck) : Prop where
  inside : c ≠ .overrun
  /-- Nothing of what was read so far is left in the decision. -/
  waiting : ∀ lastProgressMs d, c = .waiting lastProgressMs d → d = .zero
  authorized : ∀ d, c = .returned 0 d → d.authorized = true → ∃ pre t root, turns = pre ++ [t] ∧
    RespondsTo parse params reqId t.message root "success" ∧ authorizes root = true ∧
      d.decision.permitOpen = permitTexts root
  denied : ∀ ret d, c = .returned ret d → (ret = 0 → d.authorized = false) → d = .zero ∨
    ∃ pre t root, turns = pre ++ [t] ∧ RespondsTo parse params reqId t.message root "success" ∧
      authorizes root = false ∧ d.decision = ⟨false, permitTexts root⟩
  /-- Nothing but an ack moves the deadline, and only on. -/
  deadline : ∀ pre t lastProgressMs d laterMs d', pre ++ [t] <+: turns →
    (machine parse params reqId startedMs).run (start startedMs sent) pre = some (.waiting lastProgressMs d) →
      turn parse params reqId startedMs (.waiting lastProgressMs d) t = some (.waiting laterMs d') →
        policyWaitDeadline startedMs lastProgressMs ≤ policyWaitDeadline startedMs laterMs ∧
          (laterMs = lastProgressMs ∨ ∃ root, RespondsTo parse params reqId t.message root "ack")
  /-- An ack decides nothing. -/
  acks : ∀ pre t lastProgressMs d root, pre ++ [t] <+: turns →
    (machine parse params reqId startedMs).run (start startedMs sent) pre = some (.waiting lastProgressMs d) →
      RespondsTo parse params reqId t.message root "ack" → t.nowMs < policyWaitDeadline startedMs lastProgressMs →
        ∃ laterMs, turn parse params reqId startedMs (.waiting lastProgressMs d) t = some (.waiting laterMs .zero)
  /-- Once the cap is reached, the wait ends before another read. -/
  capped : ∀ pre t lastProgressMs d, pre ++ [t] <+: turns →
    (machine parse params reqId startedMs).run (start startedMs sent) pre = some (.waiting lastProgressMs d) →
      startedMs + policyWaitCapMs ≤ t.nowMs →
        turn parse params reqId startedMs (.waiting lastProgressMs d) t = some (.returned 0 .zero)

/-- The readings of the clock in a turn. -/
def readings (t : WaitTurn) : List ℤ := [t.nowMs, t.laterMs]

/-- What the wait has come to, and when it last got on. -/
structure Waited (parse : String → Option Json) (params : SshnpdParams) (reqId startedMs : ℤ) (sent : Bool)
    (turns : List WaitTurn) (c : PolicyCheck) : Prop where
  inside : c ≠ .overrun
  waiting : ∀ lastProgressMs d, c = .waiting lastProgressMs d →
    d = .zero ∧ lastProgressMs ∈ startedMs :: turns.flatMap readings
  returned : ∀ ret d, c = .returned ret d → d = .zero ∨ (ret = 0 ∧ ∃ pre t root, turns = pre ++ [t] ∧
    RespondsTo parse params reqId t.message root "success" ∧ d.decision = ⟨authorizes root, permitTexts root⟩)

theorem waited_run {sent : Bool} {turns : List WaitTurn} {c : PolicyCheck}
    (hrun : (machine parse params reqId startedMs).run (start startedMs sent) turns = some c) :
    Waited parse params reqId startedMs sent turns c := by
  refine (machine parse params reqId startedMs).run_induction
    (I := Waited parse params reqId startedMs sent) ?_ ?_ hrun
  · cases sent with
    | false =>
      refine ⟨nofun, nofun, fun ret d h => ?_⟩
      injection h with _ hd
      exact Or.inl hd.symm
    | true =>
      refine ⟨nofun, fun lastProgressMs d h => ?_, nofun⟩
      injection h with hlast hd
      exact ⟨hd.symm, List.mem_cons.mpr (Or.inl hlast.symm)⟩
  · -- the decision is zero at the start of each turn, whatever the turns before have read
    intro pre t u v _ ih hstep
    cases u with
    | returned ret d => cases hstep
    | overrun => cases hstep
    | waiting lastProgressMs d =>
      obtain ⟨rfl, hlast⟩ := ih.waiting lastProgressMs d rfl
      have hreadings : (pre ++ [t]).flatMap readings = pre.flatMap readings ++ readings t := by
        rw [List.flatMap_append, List.flatMap_singleton]
      cases turn_cases hstep with
      | late h =>
        refine ⟨nofun, nofun, fun ret d h => ?_⟩
        injection h with _ hd
        exact Or.inl hd.symm
      | ignored =>
        refine ⟨nofun, fun last d h => ?_, nofun⟩
        injection h with hsame hd
        refine ⟨hd.symm, ?_⟩
        rw [← hsame, hreadings, ← List.cons_append]
        exact List.mem_append_left _ hlast
      | acked root h =>
        refine ⟨nofun, fun last d h => ?_, nofun⟩
        injection h with hlater hd
        refine ⟨hd.symm, ?_⟩
        rw [← hlater, hreadings, ← List.cons_append]
        exact List.mem_append_right _ (List.mem_cons_of_mem _ List.mem_cons_self)
      | decided root respType d h _ hsuccess hother =>
        refine ⟨nofun, nofun, fun ret e he => ?_⟩
        injection he with hret hd
        subst hd
        by_cases hrespType : respType = "success"
        · subst hrespType
          exact Or.inr ⟨hret.symm, pre, t, root, rfl, h, hsuccess rfl⟩
        · exact Or.inl (hother hrespType)

/-- What was read of the clock before a turn is not later than what is read in it. -/
theorem le_laterMs {pre turns : List WaitTurn} {t : WaitTurn} {ms : ℤ}
    (hclock : (startedMs :: turns.flatMap readings).Pairwise (· ≤ ·)) (hpre : pre ++ [t] <+: turns)
    (hms : ms ∈ startedMs :: pre.flatMap readings) : ms ≤ t.laterMs := by
  obtain ⟨post, rfl⟩ := hpre
  rw [List.append_assoc, List.flatMap_append, ← List.cons_append] at hclock
  have hsplit := (List.pairwise_append.mp hclock).2.2 ms hms
  apply hsplit
  rw [List.flatMap_append, List.flatMap_singleton]
  exact List.mem_append_left _ (List.mem_cons_of_mem _ List.mem_cons_self)

theorem policyAuthCheck_run {sent : Bool} {turns : List WaitTurn} {c : PolicyCheck}
    (hclock : (startedMs :: turns.flatMap readings).Pairwise (· ≤ ·))
    (hrun : (machine parse params reqId startedMs).run (start startedMs sent) turns = some c) :
    Trusted parse params reqId startedMs sent turns c := by
  have hwaited := waited_run hrun
  refine ⟨hwaited.inside, fun last d hc => (hwaited.waiting last d hc).1, ?_, ?_, ?_, ?_, ?_⟩
  · intro d hc hauthorized
    rcases hwaited.returned 0 d hc with rfl | ⟨-, pre, t, root, hturns, hresponds, hd⟩
    · cases hauthorized
    · refine ⟨pre, t, root, hturns, hresponds, ?_, congrArg PolicyDecision.permitOpen hd⟩
      rw [← hauthorized]
      exact (congrArg PolicyDecision.authorized hd).symm
  · intro ret d hc hdenied
    rcases hwaited.returned ret d hc with hzero | ⟨hret, pre, t, root, hturns, hresponds, hd⟩
    · exact Or.inl hzero
    · have hauthorizes : authorizes root = false := by
        rw [← hdenied hret]
        exact (congrArg PolicyDecision.authorized hd).symm
      rw [hauthorizes] at hd
      exact Or.inr ⟨pre, t, root, hturns, hresponds, hauthorizes, hd⟩
  · intro pre t last d later d' hpre hbefore hturn
    obtain ⟨rfl, hlast⟩ := (waited_run hbefore).waiting last d rfl
    cases turn_cases hturn with
    | ignored => exact ⟨le_refl _, Or.inl rfl⟩
    | acked root h => exact ⟨policyWaitDeadline_mono (le_laterMs hclock hpre hlast), Or.inr ⟨root, h⟩⟩
  · intro pre t last d root _ hbefore hack hearly
    obtain ⟨rfl, -⟩ := (waited_run hbefore).waiting last d rfl
    obtain ⟨c', hturn⟩ := exists_turn parse params reqId startedMs last .zero t
    cases turn_cases hturn with
    | late h => exact absurd h (not_le.mpr hearly)
    | ignored => exact ⟨last, hturn⟩
    | acked root h => exact ⟨t.laterMs, hturn⟩
    | decided root' respType d' h hne _ _ => exact absurd (h.respType_eq hack) hne
  · intro pre t last d _ _ hcap
    have hlate : policyWaitDeadline startedMs last ≤ t.nowMs := (policyWaitDeadline_le startedMs last).trans hcap
    rw [turn, if_pos hlate]

/-! ### Sample waits -/

def sampleParams : SshnpdParams := ⟨"@daemon", "device", [], some "@policy", 8, [], 22, 0, false⟩

/-- The fields of a response with its id, type and payload. -/
def response (reqId : Json) (respType : String) (payload : List (String × Json)) : Json :=
  .obj [("reqId", reqId), ("respType", .str respType), ("payload", .obj payload)]

def ackText : String := "\x7b\"reqId\":7,\"respType\":\"ack\",\"payload\":\x7b\x7d\x7d"

def yesText : String :=
  "\x7b\"reqId\":7,\"respType\":\"success\",\"payload\":\x7b\"authorized\":true,\"permitOpen\":[\"localhost:22\",1]\x7d\x7d"

def noText : String :=
  "\x7b\"reqId\":7,\"respType\":\"success\",\"payload\":\x7b\"authorized\":false,\"permitOpen\":[\"localhost:22\"]\x7d\x7d"

def oddText : String := "\x7b\"REQID\":7.5,\"respType\":\"success\",\"payload\":\x7b\"Authorized\":true\x7d\x7d"

/-- What the parser gives for these texts. -/
def sampleParse (text : String) : Option Json :=
  [(ackText, response (.int 7) "ack" []),
    (yesText, response (.int 7) "success"
      [("authorized", .bool true), ("permitOpen", .arr [.str "localhost:22", .int 1])]),
    (noText, response (.int 7) "success"
      [("authorized", .bool false), ("permitOpen", .arr [.str "localhost:22"])]),
    (oddText, .obj [("REQID", .double (15 / 2)), ("respType", .str "success"),
      ("payload", .obj [("Authorized", .bool true)])])].lookup text

def enough : ParseMemory := ⟨true, true, none⟩

/-- The policy service sends this at this time. -/
def sampleTurn (nowMs : ℤ) (memory : ParseMemory) (value : String) : WaitTurn :=
  ⟨nowMs, 0, .notification ⟨some "1", some "policy", some "@daemon",
    some "@daemon:success.7.auth_checks.__rpcs.sshnp@policy", some value⟩, memory, nowMs⟩

/-- Memory runs out for the first answer, the second comes after the first deadline but within the ack's. -/
theorem policyAuthCheck_run_sample :
    (machine sampleParse sampleParams 7 0).run (start 0 true) [sampleTurn 9000 enough ackText,
      sampleTurn 12000 ⟨true, true, some 0⟩ yesText, sampleTurn 18000 enough yesText] =
        some (.returned 0 ⟨true, [some "localhost:22", none], 1⟩) ∧
      Trusted sampleParse sampleParams 7 0 true [sampleTurn 9000 enough ackText,
        sampleTurn 12000 ⟨true, true, some 0⟩ yesText, sampleTurn 18000 enough yesText]
          (.returned 0 ⟨true, [some "localhost:22", none], 1⟩) := by
  have hrun : (machine sampleParse sampleParams 7 0).run (start 0 true) [sampleTurn 9000 enough ackText,
      sampleTurn 12000 ⟨true, true, some 0⟩ yesText, sampleTurn 18000 enough yesText] =
        some (.returned 0 ⟨true, [some "localhost:22", none], 1⟩) := by decide +kernel
  exact ⟨hrun, policyAuthCheck_run (by decide) hrun⟩

/-- A denial keeps the list it came with, and a member's name and number need not be exact. -/
theorem denied_with_list :
    (machine sampleParse sampleParams 7 0).run (start 0 true) [sampleTurn 100 enough noText] =
        some (.returned 0 ⟨false, [some "localhost:22"], 1⟩) ∧
      (machine sampleParse sampleParams 7 0).run (start 0 true) [sampleTurn 100 enough oddText] =
        some (.returned 0 ⟨true, [], 0⟩) := by
  constructor
  · decide +kernel
  · decide +kernel

end PolicyCheck
end
end NoPorts.CDaemon
