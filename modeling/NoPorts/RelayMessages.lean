import NoPorts.ClientResponses
import NoPorts.SrvdModels

/-! The messages that set a session up: the client's to the relay, the relay's to the client, and the client's to
the daemon. What one side writes the other reads as it was meant. -/
namespace NoPorts.RelayMessages
open Lib ClientResponses
open SshnpdRequests hiding Runtime

/-! ### default_args.dart -/

def modeName : Srvd.RelayAuthMode → String
  | .payload => "payload"
  | .escr => "escr"

/-- `RelayAuthMode.values.byName` -/
def modeByName (name : String) : Except Thrown Srvd.RelayAuthMode :=
  if name = "payload" then .ok .payload
  else if name = "escr" then .ok .escr
  else .error (.other "No enum value with that name")

theorem modeByName_modeName (m : Srvd.RelayAuthMode) : modeByName (modeName m) = .ok m := by
  cases m <;> decide +kernel

/-- The mode in a session request, where its type is another. -/
def requestMode : Srvd.RelayAuthMode → SshnpdRequests.RelayAuthMode
  | .payload => .payload
  | .escr => .escr

/-! ### relay_messages.dart -/

structure RelayRequest where
  sessionId : String
  atSignA : String
  atSignB : String
  authenticateSocketA : Bool
  authenticateSocketB : Bool
  clientNonce : String
  relayAuthMode : Srvd.RelayAuthMode
  relayAuthAesKey : Option String
  only443 : Bool
  multipleAcksOk : Bool
  preFetch : List String
  sendJsonResponse : Bool

def RelayRequest.toJson (r : RelayRequest) : List (String × Json) :=
  [("sessionId", .str r.sessionId), ("atSignA", .str r.atSignA), ("atSignB", .str r.atSignB),
    ("authenticateSocketA", .bool r.authenticateSocketA),
    ("authenticateSocketB", .bool r.authenticateSocketB), ("clientNonce", .str r.clientNonce),
    ("relayAuthMode", .str (modeName r.relayAuthMode)),
    ("relayAuthAesKey", .ofStr? r.relayAuthAesKey), ("only443", .bool r.only443),
    ("multipleAcksOk", .bool r.multipleAcksOk), ("preFetch", .arr (r.preFetch.map Json.str)),
    ("sendJsonResponse", .bool r.sendJsonResponse)]

def relayResponseJson (r : RelayResponse) : List (String × Json) :=
  [("address", .str r.address), ("portA", .int r.portA), ("portB", .int r.portB),
    ("rvdNonce", .str r.rvdNonce), ("supportsEventLogging", .bool r.supportsEventLogging),
    ("autoDetectsRelayAuth", .bool r.autoDetectsRelayAuth)]

/-! ### srvd_util_mixin.dart -/

/-- All of `SrvdSessionParams`. -/
structure SessionParams extends Srvd.SrvdSessionParams where
  publicKeyA : Option String
  publicKeyB : Option String
  rvdNonce : String
  clientNonce : Option String
  preFetch : List String
  sendJsonResponse : Bool
  deriving DecidableEq

/-- `assertValidMapValue`, of a value of another type than `String`. -/
def assertValidMapValueOf {α : Type} (read : Json → Option α) (type : String) (m : List (String × Json))
    (k : String) : Except Thrown Unit :=
  if (read (Json.field m k)).isSome then .ok ()
  else .error (.other ("Parameter " ++ k ++ " should be a " ++ type))

/-- `List<String>.from(json ?? [])` -/
def stringsFrom : Json → Except Thrown (List String)
  | .null => .ok []
  | .arr items => items.mapM fun item => SshnpdRequests.cast item.str?
  | _ => .error (.other "type cast")

/-- `json[k] ?? false` -/
def flag (json : List (String × Json)) (k : String) : Except Thrown Bool := do
  return (← castNullable (bool? (Json.field json k)) (Json.field json k)).getD false

/-- `rvdSessionNonce` is the time. -/
def srvdSessionParamsFromJson (rvdSessionNonce : String) (json : List (String × Json)) :
    Except Thrown SessionParams := do
  assertValidMapValue json "sessionId"
  assertValidMapValue json "atSignA"
  assertValidMapValue json "atSignB"
  assertValidMapValue json "clientNonce"
  assertValidMapValueOf bool? "bool" json "authenticateSocketA"
  -- asserted twice, and side B's not at all
  assertValidMapValueOf bool? "bool" json "authenticateSocketA"
  let sessionId ← SshnpdRequests.cast (Json.field json "sessionId").str?
  let atSignA ← SshnpdRequests.cast (Json.field json "atSignA").str?
  let atSignB ← SshnpdRequests.cast (Json.field json "atSignB").str?
  let clientNonce ← SshnpdRequests.cast (Json.field json "clientNonce").str?
  let authenticateSocketA ← SshnpdRequests.cast (bool? (Json.field json "authenticateSocketA"))
  let authenticateSocketB ← SshnpdRequests.cast (bool? (Json.field json "authenticateSocketB"))
  let relayAuthModeName := (← castNullable (Json.field json "relayAuthMode").str?
    (Json.field json "relayAuthMode")).getD "payload"
  let relayAuthMode ← modeByName relayAuthModeName
  return {
    sessionId, atSignA, atSignB, authenticateSocketA, authenticateSocketB, relayAuthMode
    publicKeyA := none
    publicKeyB := none
    rvdNonce := rvdSessionNonce
    clientNonce := some clientNonce
    relayAuthAesKey := ← castNullable (Json.field json "relayAuthAesKey").str?
      (Json.field json "relayAuthAesKey")
    only443 := ← flag json "only443"
    multipleAcksOk := ← flag json "multipleAcksOk"
    preFetch := ← stringsFrom (Json.field json "preFetch")
    sendJsonResponse := ← flag json "sendJsonResponse" }

/-- `authenticate ? await fetch(atSign) : null` -/
def payloadKey (fetch : String → Except Thrown (Option String)) (authenticate : Bool) (atSign : String) :
    Except Thrown (Option String) :=
  if authenticate then fetch atSign else .ok none

/-- `fetch` is `_fetchPublicKey`. -/
def withPayloadKeys (fetch : String → Except Thrown (Option String)) (params : SessionParams) :
    Except Thrown SessionParams :=
  if params.relayAuthMode ≠ .payload ∨
      !(params.authenticateSocketA || params.authenticateSocketB) then return params
  else do
    return { params with
      publicKeyA := ← payloadKey fetch params.authenticateSocketA params.atSignA
      publicKeyB := ← payloadKey fetch params.authenticateSocketB params.atSignB }

def createResponseValue (jsonEncode : Json → String) (ipAddress : String) (portA portB : ℤ)
    (sessionParams : SessionParams) : String :=
  if sessionParams.sendJsonResponse then
    jsonEncode (.obj (relayResponseJson ⟨ipAddress, portA, portB, sessionParams.rvdNonce, true, true⟩))
  else ipAddress ++ "," ++ toString portA ++ "," ++ toString portB ++ "," ++ sessionParams.rvdNonce

/-! ### notification_request_message.dart -/

def nptRequestJson (req : NptSessionRequest) : List (String × Json) :=
  [("sessionId", .str req.sessionId), ("rvdHost", .str req.rvdHost), ("rvdPort", .int req.rvdPort),
    ("requestedPort", .int req.requestedPort), ("requestedHost", .str req.requestedHost),
    ("authenticateToRvd", .bool req.authenticateToRvd),
    ("relayAuthMode", .str (match req.relayAuthMode with | .payload => "payload" | .escr => "escr")),
    ("relayAuthAesKey", .ofStr? req.relayAuthAesKey), ("clientNonce", .str req.clientNonce),
    ("rvdNonce", .str req.rvdNonce), ("encryptRvdTraffic", .bool req.encryptRvdTraffic),
    ("clientEphemeralPK", .str req.clientEphemeralPK),
    ("clientEphemeralPKType", .str req.clientEphemeralPKType), ("timeout", .int req.timeout),
    ("twinKeys", .bool req.twinKeys), ("relayAtsign", .ofStr? req.relayAtsign)]

/-! ### Reading what has been written -/

theorem castNullable_ofStr? (s : Option String) :
    castNullable (Json.ofStr? s).str? (Json.ofStr? s) = .ok s := by
  cases s <;> rfl

theorem stringsFrom_arr (items : List String) : stringsFrom (.arr (items.map Json.str)) = .ok items := by
  induction items with
  | nil => rfl
  | cons item items ih =>
    simp only [stringsFrom, List.map_cons, List.mapM_cons] at ih ⊢
    rw [ih]
    rfl

/-- What the relay makes of a client's request. -/
def RelayRequest.params (r : RelayRequest) (rvdNonce : String) : SessionParams where
  sessionId := r.sessionId
  atSignA := r.atSignA
  atSignB := r.atSignB
  authenticateSocketA := r.authenticateSocketA
  authenticateSocketB := r.authenticateSocketB
  relayAuthMode := r.relayAuthMode
  relayAuthAesKey := r.relayAuthAesKey
  only443 := r.only443
  multipleAcksOk := r.multipleAcksOk
  publicKeyA := none
  publicKeyB := none
  rvdNonce := rvdNonce
  clientNonce := some r.clientNonce
  preFetch := r.preFetch
  sendJsonResponse := r.sendJsonResponse

theorem srvdSessionParamsFromJson_toJson (r : RelayRequest) (rvdNonce : String) :
    srvdSessionParamsFromJson rvdNonce r.toJson = .ok (r.params rvdNonce) := by
  have hmode := modeByName_modeName r.relayAuthMode
  have hkey := castNullable_ofStr? r.relayAuthAesKey
  have hstrings := stringsFrom_arr r.preFetch
  unfold srvdSessionParamsFromJson
  change (do
    let relayAuthMode ← modeByName (modeName r.relayAuthMode)
    let relayAuthAesKey ← castNullable (Json.ofStr? r.relayAuthAesKey).str?
      (Json.ofStr? r.relayAuthAesKey)
    let preFetch ← stringsFrom (.arr (r.preFetch.map Json.str))
    return { r.params rvdNonce with relayAuthMode, relayAuthAesKey, preFetch }) = _
  rw [hmode, hkey, hstrings]
  rfl

/-- The daemon reads the request that the client has sent, if it accepts its session id. -/
theorem nptRequest_fromJson (req : NptSessionRequest) :
    NptSessionRequest.fromJson (nptRequestJson req) = NptSessionRequest.make req := by
  have hkey := castNullable_ofStr? req.relayAuthAesKey
  have hatsign := castNullable_ofStr? req.relayAtsign
  have hmode : readRelayAuthMode (.str (match req.relayAuthMode with
      | .payload => "payload" | .escr => "escr")) = .ok req.relayAuthMode := by
    cases req.relayAuthMode <;> decide +kernel
  unfold NptSessionRequest.fromJson
  change (do
    let relayAuthMode ← readRelayAuthMode (.str (match req.relayAuthMode with
      | .payload => "payload" | .escr => "escr"))
    let relayAuthAesKey ← castNullable (Json.ofStr? req.relayAuthAesKey).str?
      (Json.ofStr? req.relayAuthAesKey)
    let relayAtsign ← castNullable (Json.ofStr? req.relayAtsign).str? (Json.ofStr? req.relayAtsign)
    NptSessionRequest.make { req with relayAuthMode, relayAuthAesKey, relayAtsign }) = _
  rw [hmode, hkey, hatsign]
  rfl

theorem nptRequest_of_fromJson {sent req : NptSessionRequest}
    (h : NptSessionRequest.fromJson (nptRequestJson sent) = .ok req) :
    req = sent ∧ isUuid sent.sessionId = true := by
  rw [nptRequest_fromJson, NptSessionRequest.make, assertValidSessionId] at h
  split at h
  · rename_i huuid
    cases h
    exact ⟨rfl, huuid⟩
  · cases h

/-- What the payload keys are fetched for stays as it was. -/
theorem withPayloadKeys_ok {fetch : String → Except Thrown (Option String)} {params keyed : SessionParams}
    (h : withPayloadKeys fetch params = .ok keyed) :
    ∃ a b, keyed = { params with publicKeyA := a, publicKeyB := b } := by
  unfold withPayloadKeys at h
  split at h
  · cases h
    exact ⟨params.publicKeyA, params.publicKeyB, rfl⟩
  · obtain ⟨a, -, h⟩ := bind_eq_ok.mp h
    obtain ⟨b, -, h⟩ := bind_eq_ok.mp h
    cases h
    exact ⟨a, b, rfl⟩

/-! ### The relay's response -/

theorem comma_notMem_toString (port : ℤ) : ',' ∉ (toString port).toList := by
  have hnat : ∀ n : ℕ, ',' ∉ (toString n).toList := by
    intro n hcomma
    exact absurd (isDigit_of_mem_toString n ',' hcomma) (by decide)
  cases port with
  | ofNat n => exact hnat n
  | negSucc n =>
    have hminus : toString (Int.negSucc n) = "-" ++ toString (n + 1) := rfl
    rw [hminus, String.toList_append, List.mem_append]
    intro hcomma
    rcases hcomma with hcomma | hcomma
    · exact absurd hcomma (by decide)
    · exact hnat (n + 1) hcomma

/-- The text of a response that is not JSON has its four fields, whatever the ports. -/
theorem splitCommas_response {ipAddress rvdNonce : String} (portA portB : ℤ)
    (hip : ',' ∉ ipAddress.toList) (hnonce : ',' ∉ rvdNonce.toList) :
    splitCommas (ipAddress ++ "," ++ toString portA ++ "," ++ toString portB ++ "," ++ rvdNonce) =
      [ipAddress, toString portA, toString portB, rvdNonce] := by
  have hsplit : ([','].intercalate [ipAddress.toList, (toString portA).toList,
      (toString portB).toList, rvdNonce.toList]).splitOn ',' =
        [ipAddress.toList, (toString portA).toList, (toString portB).toList, rvdNonce.toList] := by
    apply List.splitOn_intercalate
    · intro field hfield
      simp only [List.mem_cons, List.not_mem_nil, or_false] at hfield
      rcases hfield with h | h | h | h
      · rw [h]
        exact hip
      · rw [h]
        exact comma_notMem_toString portA
      · rw [h]
        exact comma_notMem_toString portB
      · rw [h]
        exact hnonce
    · exact List.cons_ne_nil _ _
  have htext : (ipAddress ++ "," ++ toString portA ++ "," ++ toString portB ++ "," ++ rvdNonce).toList =
      [','].intercalate [ipAddress.toList, (toString portA).toList, (toString portB).toList,
        rvdNonce.toList] := by
    simp only [String.toList_append, List.intercalate, List.intersperse, List.flatten_cons,
      List.flatten_nil, List.append_nil, List.append_assoc]
    rfl
  rw [splitCommas, htext, hsplit]
  simp only [List.map_cons, List.map_nil, String.ofList_toList]

/-- What a client needs to read a relay's response: its JSON, or the fields of its text. -/
structure Legible (rt : Runtime) (ipAddress : String) (portA portB : ℤ) (params : SessionParams) : Prop where
  json : params.sendJsonResponse = true →
    let json := Json.obj (relayResponseJson ⟨ipAddress, portA, portB, params.rvdNonce, true, true⟩)
    rt.jsonDecode (rt.jsonEncode json) = some json ∧ (rt.jsonEncode json).toList.head? = some '\x7b'
  text : params.sendJsonResponse = false → ipAddress ≠ "" ∧ ipAddress.toList.head? ≠ some '\x7b' ∧
    ',' ∉ ipAddress.toList ∧ ',' ∉ params.rvdNonce.toList ∧
      rt.intParse (toString portA) = .ok portA ∧ rt.intParse (toString portB) = .ok portB

theorem fromJson_relayResponseJson (r : RelayResponse) :
    RelayResponse.fromJson (relayResponseJson r) = .ok r := rfl

/-- A client learns the address, the ports and the nonce of the relay that has answered it, in either format;
the older one tells it no more than that. -/
theorem readRelayResponse_createResponseValue {rt : Runtime} {ipAddress : String} {portA portB : ℤ}
    {params : SessionParams} (h : Legible rt ipAddress portA portB params) :
    rt.readRelayResponse (createResponseValue rt.jsonEncode ipAddress portA portB params) =
      .ok ⟨ipAddress, portA, portB, params.rvdNonce, params.sendJsonResponse, params.sendJsonResponse⟩ := by
  cases hjson : params.sendJsonResponse with
  | true =>
    obtain ⟨hdecode, hbrace⟩ := h.json hjson
    rw [createResponseValue, if_pos hjson, Runtime.readRelayResponse]
    have hstarts : startsWithBrace (rt.jsonEncode (.obj (relayResponseJson
        ⟨ipAddress, portA, portB, params.rvdNonce, true, true⟩))) = true := by
      rw [startsWithBrace, hbrace]
      rfl
    rw [if_pos hstarts, Runtime.decodeMap, hdecode]
    exact fromJson_relayResponseJson _
  | false =>
    obtain ⟨hne, hbrace, hip, hnonce, hportA, hportB⟩ := h.text hjson
    have hclosed : ¬params.sendJsonResponse = true := by
      rw [hjson]
      exact Bool.false_ne_true
    rw [createResponseValue, if_neg hclosed, Runtime.readRelayResponse]
    have hplain : ¬startsWithBrace (ipAddress ++ "," ++ toString portA ++ "," ++ toString portB ++ "," ++
        params.rvdNonce) = true := by
      have hcons : ipAddress.toList ≠ [] := fun hnil => hne (String.toList_eq_nil_iff.mp hnil)
      simp only [startsWithBrace, String.toList_append, List.append_assoc,
        List.head?_append_of_ne_nil _ hcons, beq_iff_eq]
      exact hbrace
    rw [if_neg hplain]
    simp only [splitCommas_response portA portB hip hnonce, SshnpdImpl.elementAt,
      List.getElem?_cons_zero, List.getElem?_cons_succ]
    rw [ok_bind, ok_bind, hportA]
    rw [ok_bind, ok_bind, hportB]
    rfl

end NoPorts.RelayMessages
