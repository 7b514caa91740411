import NoPorts.RelayAuthModes
import NoPorts.RelaySocketLegacy
import NoPorts.SshnpdAnswers
import NoPorts.Lib.JsonText
import NoPorts.Lib.Utf8

/-! A session in the legacy mode, from the client's request to the relay's sockets: each side signs what the relay
has told it, and is let in. -/
namespace NoPorts.RelayMessages
open Lib ClientResponses
open SshnpdAnswers (envelopeOf)
open Srvd (RelayAuthMode RelayAuthVerifierAuto SocketEvent Socket fromCharCodes newline)
open SshnpdRequests hiding Runtime RelayAuthMode

/-! ### validation_utils.dart -/

/-- `signAndWrapAndJsonEncode`; none where the signing throws. -/
def signAndWrapAndJsonEncode (jsonEncode : Json → String) (rsaSignString : String → Option String)
    (payload : List (String × Json)) : Option String :=
  (rsaSignString (jsonEncode (.obj payload))).map fun signature => jsonEncode (envelopeOf payload signature)

/-- What a legacy side signs. -/
def authPayload (sessionId clientNonce rvdNonce : String) : List (String × Json) :=
  [("sessionId", .str sessionId), ("clientNonce", .str clientNonce), ("rvdNonce", .str rvdNonce)]

/-! ### relay_worker.dart -/

def SessionParams.authenticateSocket (params : SessionParams) (isSideA : Bool) : Bool :=
  if isSideA then params.authenticateSocketA else params.authenticateSocketB

/-- The verifier that `createAuthVerifiers` makes for a side, with the challenge it would draw. -/
def createAuthVerifier (rt : Srvd.Runtime) (params : SessionParams) (challenge : String) (isSideA : Bool) :
    Option RelayAuthVerifierAuto :=
  if params.authenticateSocket isSideA then
    some { rt with
      challenge
      expectedAtSign := if isSideA then params.atSignA else params.atSignB
      sessionId := params.sessionId
      isSideA
      dataToVerify := rt.jsonEncode (.obj [("sessionId", .str params.sessionId),
        ("clientNonce", .ofStr? params.clientNonce), ("rvdNonce", .str params.rvdNonce)])
      rvdNonce := params.rvdNonce
      publicKey := if isSideA then params.publicKeyA else params.publicKeyB }
  else none

/-! ### The text of an envelope -/

/-- An encoder of compact JSON, as far as strings without escapes and objects go. -/
structure Compact (encode : Json → String) : Prop where
  str : ∀ s : String, (∀ c ∈ s.toList, Json.plain c = true) → encode (.str s) = String.ofList (Json.quote s)
  obj : ∀ members : List (String × Json × List Char), members ≠ [] →
    (∀ m ∈ members, (∀ c ∈ m.1.toList, Json.plain c = true) ∧ encode m.2.1 = String.ofList m.2.2) →
    encode (.obj (members.map fun m => (m.1, m.2.1))) =
      String.ofList (Json.objectText (members.map fun m => (m.1, m.2.2)))

/-- In JSON it is itself, and a byte for each character. -/
def Printable (s : String) : Prop := ∀ c ∈ s.toList, Json.plain c = true ∧ c.toNat < 128

theorem Printable.plain {s : String} (h : Printable s) : ∀ c ∈ s.toList, Json.plain c = true :=
  fun c hc => (h c hc).1

theorem printable_literal {s : String}
    (h : s.toList.all (fun c => Json.plain c && decide (c.toNat < 128)) = true) : Printable s := by
  intro c hc
  simpa using List.all_eq_true.mp h c hc

def fieldTexts (fields : List (String × String)) : List (String × Json × List Char) :=
  fields.map fun f => (f.1, .str f.2, Json.quote f.2)

def authFields (sessionId clientNonce rvdNonce : String) : List (String × String) :=
  [("sessionId", sessionId), ("clientNonce", clientNonce), ("rvdNonce", rvdNonce)]

def algorithmFields (signature : String) : List (String × String) :=
  [("signature", signature), ("hashingAlgo", "sha256"), ("signingAlgo", "rsa2048")]

/-- The members of an envelope, with their texts. -/
def envelopeMembers (fields : List (String × String)) (signature : String) : List (String × Json × List Char) :=
  ("payload", .obj ((fieldTexts fields).map fun m => (m.1, m.2.1)),
    Json.objectText ((fieldTexts fields).map fun m => (m.1, m.2.2))) :: fieldTexts (algorithmFields signature)

def envelopeText (fields : List (String × String)) (signature : String) : List Char :=
  Json.objectText ((envelopeMembers fields signature).map fun m => (m.1, m.2.2))

section text
variable {encode : Json → String} {fields : List (String × String)} {sessionId clientNonce rvdNonce signature : String}

theorem encode_fieldTexts (hc : Compact encode) (hp : ∀ f ∈ fields, Printable f.1 ∧ Printable f.2) :
    ∀ m ∈ fieldTexts fields, (∀ c ∈ m.1.toList, Json.plain c = true) ∧ encode m.2.1 = String.ofList m.2.2 := by
  intro m hm
  obtain ⟨f, hf, rfl⟩ := List.mem_map.mp hm
  obtain ⟨hkey, hvalue⟩ := hp f hf
  exact ⟨hkey.plain, hc.str f.2 hvalue.plain⟩

theorem printable_authFields (hs : Printable sessionId) (hc : Printable clientNonce) (hr : Printable rvdNonce) :
    ∀ f ∈ authFields sessionId clientNonce rvdNonce, Printable f.1 ∧ Printable f.2 := by
  have hsid : Printable "sessionId" := printable_literal (by decide)
  have hcn : Printable "clientNonce" := printable_literal (by decide)
  have hrn : Printable "rvdNonce" := printable_literal (by decide)
  intro f hf
  simp only [authFields, List.mem_cons, List.not_mem_nil, or_false] at hf
  rcases hf with h | h | h
  · rw [h]
    exact ⟨hsid, hs⟩
  · rw [h]
    exact ⟨hcn, hc⟩
  · rw [h]
    exact ⟨hrn, hr⟩

theorem printable_algorithmFields (hs : Printable signature) :
    ∀ f ∈ algorithmFields signature, Printable f.1 ∧ Printable f.2 := by
  have hsig : Printable "signature" := printable_literal (by decide)
  intro f hf
  simp only [algorithmFields, List.mem_cons, List.not_mem_nil, or_false] at hf
  rcases hf with h | h | h
  · rw [h]
    exact ⟨hsig, hs⟩
  · rw [h]
    exact ⟨printable_literal (by decide), printable_literal (by decide)⟩
  · rw [h]
    exact ⟨printable_literal (by decide), printable_literal (by decide)⟩

theorem printable_payload : Printable "payload" := printable_literal (by decide)

/-- Compact encoders agree on what a side signs. -/
theorem encode_authPayload (hc : Compact encode)
    (hp : ∀ f ∈ authFields sessionId clientNonce rvdNonce, Printable f.1 ∧ Printable f.2) :
    encode (.obj (authPayload sessionId clientNonce rvdNonce)) = String.ofList (Json.objectText
      ((fieldTexts (authFields sessionId clientNonce rvdNonce)).map fun m => (m.1, m.2.2))) :=
  hc.obj (fieldTexts (authFields sessionId clientNonce rvdNonce)) (List.cons_ne_nil _ _)
    (encode_fieldTexts hc hp)

theorem encode_envelope (hc : Compact encode)
    (hp : ∀ f ∈ authFields sessionId clientNonce rvdNonce, Printable f.1 ∧ Printable f.2)
    (hs : Printable signature) :
    encode (envelopeOf (authPayload sessionId clientNonce rvdNonce) signature) =
      String.ofList (envelopeText (authFields sessionId clientNonce rvdNonce) signature) := by
  apply hc.obj (envelopeMembers (authFields sessionId clientNonce rvdNonce) signature)
  · exact List.cons_ne_nil _ _
  · intro m hm
    rcases List.mem_cons.mp hm with h | hm
    · rw [h]
      exact ⟨printable_payload.plain, encode_authPayload hc hp⟩
    · exact encode_fieldTexts hc (printable_algorithmFields hs) m hm

theorem length_membersText (m : String × List Char) (members : List (String × List Char)) :
    (Json.quote m.1).length ≤ (Json.membersText (m :: members)).length := by
  cases members with
  | nil =>
    rw [Json.membersText, List.length_append]
    exact Nat.le_add_right _ _
  | cons m' members =>
    rw [Json.membersText, List.length_append]
    · exact Nat.le_add_right _ _
    · exact List.cons_ne_nil _ _

/-- Long enough for its two levels and its seven members. -/
theorem length_envelopeText (fields : List (String × String)) (signature : String) :
    9 ≤ (envelopeText fields signature).length := by
  have hkey : 9 ≤ (Json.quote "payload").length := by decide
  have hmembers := length_membersText ("payload", Json.objectText ((fieldTexts fields).map fun m => (m.1, m.2.2)))
    ((fieldTexts (algorithmFields signature)).map fun m => (m.1, m.2.2))
  exact le_trans hkey (le_trans hmembers (Nat.le_succ _))

/-- A reader of JSON has the envelope from its text. -/
theorem read_envelopeText
    (hp : ∀ f ∈ authFields sessionId clientNonce rvdNonce, Printable f.1 ∧ Printable f.2)
    (hs : Printable signature) :
    Json.read (String.ofList (envelopeText (authFields sessionId clientNonce rvdNonce) signature)) =
      some (envelopeOf (authPayload sessionId clientNonce rvdNonce) signature) := by
  have hreads : ∀ {fields : List (String × String)}, (∀ f ∈ fields, Printable f.1 ∧ Printable f.2) →
      ∀ m ∈ fieldTexts fields, (∀ c ∈ m.1.toList, Json.plain c = true) ∧ Json.Reads 0 m.2.2 m.2.1 := by
    intro fields hp m hm
    obtain ⟨f, hf, rfl⟩ := List.mem_map.mp hm
    obtain ⟨hkey, hvalue⟩ := hp f hf
    exact ⟨hkey.plain, Json.reads_quote hvalue.plain⟩
  have hpayload : Json.Reads 4 (Json.objectText
      ((fieldTexts (authFields sessionId clientNonce rvdNonce)).map fun m => (m.1, m.2.2)))
      (.obj (authPayload sessionId clientNonce rvdNonce)) := by
    apply Json.reads_objectText (fieldTexts (authFields sessionId clientNonce rvdNonce)) 0
    · exact List.cons_ne_nil _ _
    · exact fun m hm => (hreads hp m hm).1
    · change (["sessionId", "clientNonce", "rvdNonce"]).Nodup
      decide
    · exact fun m hm => (hreads hp m hm).2
  have henvelope : Json.Reads 9 (envelopeText (authFields sessionId clientNonce rvdNonce) signature)
      (envelopeOf (authPayload sessionId clientNonce rvdNonce) signature) := by
    apply Json.reads_objectText (envelopeMembers (authFields sessionId clientNonce rvdNonce) signature) 4
    · exact List.cons_ne_nil _ _
    · intro m hm
      rcases List.mem_cons.mp hm with h | hm
      · rw [h]
        exact printable_payload.plain
      · exact (hreads (printable_algorithmFields hs) m hm).1
    · change (["payload", "signature", "hashingAlgo", "signingAlgo"]).Nodup
      decide
    · intro m hm
      rcases List.mem_cons.mp hm with h | hm
      · rw [h]
        exact hpayload
      · exact (hreads (printable_algorithmFields hs) m hm).2.mono (Nat.zero_le 4)
  exact Json.read_of_reads henvelope (length_envelopeText _ _)

/-! ### The bytes of the line -/

/-- A character that takes a byte and ends no line. -/
def Inline (c : Char) : Prop := 32 ≤ c.toNat ∧ c.toNat < 128

theorem Printable.inline {s : String} (h : Printable s) : ∀ c ∈ s.toList, Inline c := by
  intro c hc
  obtain ⟨hplain, hascii⟩ := h c hc
  have hlow : 32 ≤ c.toNat := by
    simp only [Json.plain, Bool.and_eq_true, decide_eq_true_eq] at hplain
    exact hplain.1.1
  exact ⟨hlow, hascii⟩

theorem inline_quote {s : String} (h : Printable s) : ∀ c ∈ Json.quote s, Inline c := by
  intro c hc
  rw [Json.quote] at hc
  rcases List.mem_cons.mp hc with hc | hc
  · rw [hc]
    exact ⟨by decide, by decide⟩
  · rcases List.mem_append.mp hc with hc | hc
    · exact h.inline c hc
    · rw [List.mem_singleton.mp hc]
      exact ⟨by decide, by decide⟩

theorem inline_membersText {members : List (String × List Char)}
    (h : ∀ m ∈ members, Printable m.1 ∧ ∀ c ∈ m.2, Inline c) :
    ∀ c ∈ Json.membersText members, Inline c := by
  have hmark : ∀ d : Char, d ∈ [':', ',', '\x7d'] → Inline d := by
    intro d hd
    simp only [List.mem_cons, List.not_mem_nil, or_false] at hd
    rcases hd with hd | hd | hd
    · rw [hd]
      exact ⟨by decide, by decide⟩
    · rw [hd]
      exact ⟨by decide, by decide⟩
    · rw [hd]
      exact ⟨by decide, by decide⟩
  induction members with
  | nil =>
    intro c hc
    rw [List.mem_singleton.mp hc]
    exact hmark _ (by decide)
  | cons m members ih =>
    obtain ⟨hkey, hvalue⟩ := h m List.mem_cons_self
    have hrest := ih fun m hm => h m (List.mem_cons_of_mem _ hm)
    intro c hc
    cases members with
    | nil =>
      simp only [Json.membersText, List.mem_append, List.mem_cons, List.not_mem_nil, or_false] at hc
      rcases hc with hc | hc | hc | hc
      · exact inline_quote hkey c hc
      · rw [hc]
        exact hmark _ (by decide)
      · exact hvalue c hc
      · rw [hc]
        exact hmark _ (by decide)
    | cons m' members =>
      have htext : Json.membersText (m :: m' :: members) =
          Json.quote m.1 ++ ':' :: (m.2 ++ ',' :: Json.membersText (m' :: members)) := rfl
      rw [htext] at hc
      simp only [List.mem_append, List.mem_cons] at hc
      rcases hc with hc | hc | hc | hc | hc
      · exact inline_quote hkey c hc
      · rw [hc]
        exact hmark _ (by decide)
      · exact hvalue c hc
      · rw [hc]
        exact hmark _ (by decide)
      · exact hrest c hc

theorem inline_objectText {members : List (String × List Char)}
    (h : ∀ m ∈ members, Printable m.1 ∧ ∀ c ∈ m.2, Inline c) : ∀ c ∈ Json.objectText members, Inline c := by
  intro c hc
  rcases List.mem_cons.mp hc with hc | hc
  · rw [hc]
    exact ⟨by decide, by decide⟩
  · exact inline_membersText h c hc

theorem inline_fieldTexts (hp : ∀ f ∈ fields, Printable f.1 ∧ Printable f.2) :
    ∀ m ∈ (fieldTexts fields).map fun m => (m.1, m.2.2), Printable m.1 ∧ ∀ c ∈ m.2, Inline c := by
  intro m hm
  rw [fieldTexts, List.map_map] at hm
  obtain ⟨f, hf, rfl⟩ := List.mem_map.mp hm
  obtain ⟨hkey, hvalue⟩ := hp f hf
  exact ⟨hkey, inline_quote hvalue⟩

theorem inline_envelopeText (hp : ∀ f ∈ fields, Printable f.1 ∧ Printable f.2) (hs : Printable signature) :
    ∀ c ∈ envelopeText fields signature, Inline c := by
  apply inline_objectText
  intro m hm
  rw [envelopeMembers, List.map_cons] at hm
  rcases List.mem_cons.mp hm with h | hm
  · rw [h]
    exact ⟨printable_payload, inline_objectText (inline_fieldTexts hp)⟩
  · exact inline_fieldTexts (printable_algorithmFields hs) m hm

end text

/-- Text that is inline goes over the wire as it is. -/
theorem fromCharCodes_encode {text : List Char} (h : ∀ c ∈ text, Inline c) :
    fromCharCodes (Utf8.encode text) = String.ofList text ∧ newline ∉ Utf8.encode text := by
  have hbytes : Utf8.encode text = text.map fun c => UInt8.ofNat c.toNat := by
    induction text with
    | nil => rfl
    | cons c text ih =>
      have hascii : c.toNat < 0x80 := (h c List.mem_cons_self).2
      rw [Utf8.encode_cons, Utf8.encode_ascii hascii, ih fun d hd => h d (List.mem_cons_of_mem _ hd)]
      rfl
  have htoNat : ∀ c ∈ text, (UInt8.ofNat c.toNat).toNat = c.toNat := by
    intro c hc
    apply Utf8.toNat_ofNat
    have hascii := (h c hc).2
    omega
  constructor
  · rw [hbytes, fromCharCodes, List.map_map]
    apply congrArg String.ofList
    calc text.map ((fun b : UInt8 => Char.ofNat b.toNat) ∘ fun c => UInt8.ofNat c.toNat)
        = text.map id := by
          apply List.map_congr_left
          intro c hc
          rw [Function.comp_apply, htoNat c hc, Char.ofNat_toNat, id]
      _ = text := List.map_id _
  · rw [hbytes]
    intro hmem
    obtain ⟨c, hc, hline⟩ := List.mem_map.mp hmem
    have hten : (UInt8.ofNat c.toNat).toNat = 10 := by
      rw [hline]
      rfl
    have hlow := (h c hc).1
    rw [htoNat c hc] at hten
    omega

/-! ### The session -/

/-- What the client and the relay have exchanged: the relay has read the client's request and kept `si`, with the
keys it has fetched, and the client has read the relay's response. -/
structure Exchanged (dart : Runtime) (p : ChannelParams) (sessionId clientNonce : String) (si : SessionParams)
    (r : RelayResponse) : Prop where
  requested : ∃ generated preFetch rvdNonce fetch params,
    srvdSessionParamsFromJson rvdNonce (p.relayRequest sessionId clientNonce generated preFetch).toJson =
      .ok params ∧ withPayloadKeys fetch params = .ok si
  answered : ∃ ipAddress portA portB, Legible dart ipAddress portA portB si ∧
    dart.readRelayResponse (createResponseValue dart.jsonEncode ipAddress portA portB si) = .ok r

/-- What a side signs with, and how it writes JSON. -/
structure Signer where
  encode : Json → String
  sign : String → Option String

def cSigner (lib : CDaemon.DaemonLibraries) : Signer :=
  ⟨lib.printUnformatted, fun text => (lib.rsaSign text).map lib.base64Encode⟩

/-- The strings with which the sides of a session in the legacy mode authenticate, by the signer of each: the
client's own, the Dart daemon's and the C daemon's, of the request they have read. -/
inductive AuthString (p : ChannelParams) (sessionId clientNonce : String) (r : RelayResponse)
    (daemonSupportsEscr : Bool) : Signer → Bool → String → Prop
  | client (signer : Signer) (text : String) (hmode : p.sideAMode r.autoDetectsRelayAuth = .payload)
      (htext : signAndWrapAndJsonEncode signer.encode signer.sign
        (authPayload sessionId clientNonce r.rvdNonce) = some text) :
      AuthString p sessionId clientNonce r daemonSupportsEscr signer true text
  | sshnpd (signer : Signer) (sent req : NptSessionRequest) (text : String)
      (hmode : p.daemonRelayAuthMode r.autoDetectsRelayAuth daemonSupportsEscr = .payload)
      (hsent : sent.sessionId = sessionId ∧ sent.clientNonce = clientNonce ∧ sent.rvdNonce = r.rvdNonce ∧
        sent.relayAuthMode = requestMode (p.daemonRelayAuthMode r.autoDetectsRelayAuth daemonSupportsEscr))
      (hread : NptSessionRequest.fromJson (nptRequestJson sent) = .ok req)
      (htext : signAndWrapAndJsonEncode signer.encode signer.sign
        (authPayload req.sessionId req.clientNonce req.rvdNonce) = some text) :
      AuthString p sessionId clientNonce r daemonSupportsEscr signer false text
  | csshnpd (lib : CDaemon.DaemonLibraries) (sent : NptSessionRequest) (text : String)
      (hmode : p.daemonRelayAuthMode r.autoDetectsRelayAuth daemonSupportsEscr = .payload)
      (hsent : sent.sessionId = sessionId ∧ sent.clientNonce = clientNonce ∧ sent.rvdNonce = r.rvdNonce)
      (htext : lib.createRvdAuthString (some (.obj (nptRequestJson sent))) = some text) :
      AuthString p sessionId clientNonce r daemonSupportsEscr (cSigner lib) false text

section session
variable {dart : Runtime} {p : ChannelParams} {sessionId clientNonce text : String} {si : SessionParams}
  {r : RelayResponse} {daemonSupportsEscr isSideA : Bool} {signer : Signer}

theorem recorded_of_exchanged (h : Exchanged dart p sessionId clientNonce si r) :
    ∃ generated preFetch, Recorded (p.relayRequest sessionId clientNonce generated preFetch) r.rvdNonce si := by
  obtain ⟨generated, preFetch, rvdNonce, fetch, params, hread, hkeys⟩ := h.requested
  obtain ⟨ipAddress, portA, portB, hlegible, hresponse⟩ := h.answered
  rw [srvdSessionParamsFromJson_toJson] at hread
  cases hread
  obtain ⟨a, b, hsi⟩ := withPayloadKeys_ok hkeys
  rw [readRelayResponse_createResponseValue hlegible] at hresponse
  -- the nonce of the response is the one that was kept
  have hnonce : r.rvdNonce = rvdNonce := by
    rw [← Except.ok.inj hresponse, hsi]
    rfl
  refine ⟨generated, preFetch, a, b, ?_⟩
  rw [hnonce]
  exact hsi

/-- An object whose names differ, upper and lower case alike, has each of its members under its name. -/
theorem getObjectItem_of_mem {fields : List (String × Json)}
    (hnodup : (fields.map fun f => lowerAscii f.1).Nodup) {name : String} {value : Json}
    (hmem : (name, value) ∈ fields) : CDaemon.getObjectItem (some (.obj fields)) name = some value := by
  induction fields with
  | nil => cases hmem
  | cons f fields ih =>
    obtain ⟨hnew, hrest⟩ := List.nodup_cons.mp hnodup
    have hstep : CDaemon.getObjectItem (some (.obj (f :: fields))) name =
        if lowerAscii f.1 = lowerAscii name then some f.2
        else CDaemon.getObjectItem (some (.obj fields)) name := by
      rw [CDaemon.getObjectItem, List.find?_cons]
      by_cases heq : lowerAscii f.1 = lowerAscii name
      · have hsame : (lowerAscii f.1 == lowerAscii name) = true := beq_iff_eq.mpr heq
        rw [hsame, if_pos heq]
        rfl
      · have hdifferent : (lowerAscii f.1 == lowerAscii name) = false := beq_eq_false_iff_ne.mpr heq
        rw [hdifferent, if_neg heq]
        rfl
    rw [hstep]
    rcases List.mem_cons.mp hmem with h | hmem
    · rw [← h, if_pos rfl]
    · rw [if_neg, ih hrest hmem]
      intro heq
      apply hnew
      exact List.mem_map.mpr ⟨(name, value), hmem, heq.symm⟩

theorem createRvdAuthString_nptRequest (lib : CDaemon.DaemonLibraries) (sent : NptSessionRequest) :
    lib.createRvdAuthString (some (.obj (nptRequestJson sent))) =
      signAndWrapAndJsonEncode (cSigner lib).encode (cSigner lib).sign
        (authPayload sent.sessionId sent.clientNonce sent.rvdNonce) := by
  have hnodup : ((nptRequestJson sent).map fun f => lowerAscii f.1).Nodup := by
    change ([lowerAscii "sessionId", lowerAscii "rvdHost", lowerAscii "rvdPort", lowerAscii "requestedPort",
      lowerAscii "requestedHost", lowerAscii "authenticateToRvd", lowerAscii "relayAuthMode",
      lowerAscii "relayAuthAesKey", lowerAscii "clientNonce", lowerAscii "rvdNonce",
      lowerAscii "encryptRvdTraffic", lowerAscii "clientEphemeralPK", lowerAscii "clientEphemeralPKType",
      lowerAscii "timeout", lowerAscii "twinKeys", lowerAscii "relayAtsign"]).Nodup
    decide +kernel
  have hsession : ("sessionId", Json.str sent.sessionId) ∈ nptRequestJson sent := List.mem_cons_self
  have hclient : ("clientNonce", Json.str sent.clientNonce) ∈ nptRequestJson sent := by
    simp only [nptRequestJson, List.mem_cons, true_or, or_true]
  have hrelay : ("rvdNonce", Json.str sent.rvdNonce) ∈ nptRequestJson sent := by
    simp only [nptRequestJson, List.mem_cons, true_or, or_true]
  unfold CDaemon.DaemonLibraries.createRvdAuthString
  rw [getObjectItem_of_mem hnodup hclient, getObjectItem_of_mem hnodup hrelay,
    getObjectItem_of_mem hnodup hsession]
  change ((lib.rsaSign (lib.printUnformatted (.obj (authPayload sent.sessionId sent.clientNonce
    sent.rvdNonce)))).map fun signature => lib.printUnformatted (envelopeOf _ (lib.base64Encode signature))) =
      ((lib.rsaSign (lib.printUnformatted (.obj (authPayload sent.sessionId sent.clientNonce
        sent.rvdNonce)))).map lib.base64Encode).map fun signature => lib.printUnformatted (envelopeOf _ signature)
  rw [Option.map_map]
  rfl

/-- Whoever makes it, the string is the envelope of what the client and the relay have agreed on. -/
theorem AuthString.envelope (h : AuthString p sessionId clientNonce r daemonSupportsEscr signer isSideA text) :
    ∃ signature,
      signer.sign (signer.encode (.obj (authPayload sessionId clientNonce r.rvdNonce))) = some signature ∧
        text = signer.encode (envelopeOf (authPayload sessionId clientNonce r.rvdNonce) signature) := by
  cases h with
  | client _ _ _ htext =>
    obtain ⟨signature, hsign, rfl⟩ := Option.map_eq_some_iff.mp htext
    exact ⟨signature, hsign, rfl⟩
  | sshnpd _ sent req _ _ hsent hread htext =>
    -- the request the daemon reads is the one the client has sent
    obtain ⟨hreq, -⟩ := nptRequest_of_fromJson hread
    obtain ⟨hsession, hclient, hrelay, -⟩ := hsent
    rw [hreq, hsession, hclient, hrelay] at htext
    obtain ⟨signature, hsign, rfl⟩ := Option.map_eq_some_iff.mp htext
    exact ⟨signature, hsign, rfl⟩
  | csshnpd lib sent _ _ hsent htext =>
    obtain ⟨hsession, hclient, hrelay⟩ := hsent
    rw [createRvdAuthString_nptRequest, hsession, hclient, hrelay] at htext
    obtain ⟨signature, hsign, rfl⟩ := Option.map_eq_some_iff.mp htext
    exact ⟨signature, hsign, rfl⟩

/-! ### What the relay makes of it -/

variable {rt : Srvd.Runtime} {challenge pk signature : String} {v : RelayAuthVerifierAuto}

/-- The relay's libraries, beside those of a side that signs. -/
structure Verifies (rt : Srvd.Runtime) (signer : Signer) (pk : String) : Prop where
  signs : Compact signer.encode
  encodes : Compact rt.jsonEncode
  decodes : ∀ text value, Json.read text = some value → rt.jsonDecode text = .ok value
  verifies : ∀ text signature, signer.sign text = some signature →
    Printable signature ∧ rt.rsaVerifyString text signature pk .sha256 = .ok true

/-- The verifier of a side has what the client and the relay have agreed on. -/
theorem createAuthVerifier_eq {generated : String} {preFetch : List String} {rvdNonce : String}
    (hsi : Recorded (p.relayRequest sessionId clientNonce generated preFetch) rvdNonce si)
    (hv : createAuthVerifier rt si challenge isSideA = some v) :
    p.authenticates isSideA = true ∧ v.toRuntime = rt ∧ v.rvdNonce = rvdNonce ∧
      v.dataToVerify = rt.jsonEncode (.obj (authPayload sessionId clientNonce rvdNonce)) := by
  obtain ⟨a, b, rfl⟩ := hsi
  unfold createAuthVerifier at hv
  split at hv
  · rename_i hauth
    cases hv
    refine ⟨?_, rfl, rfl, rfl⟩
    cases isSideA with
    | true => exact hauth
    | false => exact hauth
  · cases hv

theorem verifyEnvelope_ok {payload : List (String × Json)}
    (hdecode : v.jsonDecode text = .ok (envelopeOf payload signature))
    (hnonce : (Json.field payload "rvdNonce").str? = some v.rvdNonce)
    (hverify : v.rsaVerifyString v.dataToVerify signature pk .sha256 = .ok true) :
    v.verifyEnvelope pk text = .ok () := by
  have hhash : Signing.HashingAlgoType.byName? "sha256" = some .sha256 := by decide +kernel
  have hsign : Signing.SigningAlgoType.byName? "rsa2048" = some .rsa2048 := by decide +kernel
  have hfields : (Json.field [("payload", .obj payload), ("signature", .str signature),
        ("hashingAlgo", .str "sha256"), ("signingAlgo", .str "rsa2048")] "hashingAlgo").str? = some "sha256" ∧
      (Json.field [("payload", .obj payload), ("signature", .str signature),
        ("hashingAlgo", .str "sha256"), ("signingAlgo", .str "rsa2048")] "signingAlgo").str? = some "rsa2048" ∧
      Json.field [("payload", .obj payload), ("signature", .str signature),
        ("hashingAlgo", .str "sha256"), ("signingAlgo", .str "rsa2048")] "payload" = .obj payload ∧
      (Json.field [("payload", .obj payload), ("signature", .str signature),
        ("hashingAlgo", .str "sha256"), ("signingAlgo", .str "rsa2048")] "signature").str? = some signature :=
    ⟨rfl, rfl, rfl, rfl⟩
  obtain ⟨hha, hsa, hpayload, hsignature⟩ := hfields
  rw [RelayAuthVerifierAuto.verifyEnvelope, hdecode]
  simp only [envelopeOf, hha, hsa, hpayload, hsignature, Option.bind_some, hhash, hsign, hnonce, hverify, ne_eq,
    not_true_eq_false, if_false]
  rfl

/-- The line of a side is what its verifier expects. -/
theorem handleLegacyLine_ok {rvdNonce : String} {helper : Srvd.RelayAuthVerifyHelper}
    (hp : ∀ f ∈ authFields sessionId clientNonce rvdNonce, Printable f.1 ∧ Printable f.2)
    (hrt : Verifies rt signer pk)
    (hsign : signer.sign (signer.encode (.obj (authPayload sessionId clientNonce rvdNonce))) = some signature)
    (hv : v.toRuntime = rt ∧ v.rvdNonce = rvdNonce ∧
      v.dataToVerify = rt.jsonEncode (.obj (authPayload sessionId clientNonce rvdNonce)))
    (hkey : v.legacyKey helper = .ok pk) (hatsign : (v.toAtsign v.expectedAtSign).isSome = true) :
    v.handleLegacyLine helper (fromCharCodes (Utf8.encode
      (signer.encode (envelopeOf (authPayload sessionId clientNonce rvdNonce) signature)).toList)) = .ok () := by
  obtain ⟨hruntime, hnonce, hdata⟩ := hv
  obtain ⟨hsignature, hverify⟩ := hrt.verifies _ _ hsign
  have hline : fromCharCodes (Utf8.encode
      (signer.encode (envelopeOf (authPayload sessionId clientNonce rvdNonce) signature)).toList) =
      String.ofList (envelopeText (authFields sessionId clientNonce rvdNonce) signature) := by
    rw [encode_envelope hrt.signs hp hsignature, String.toList_ofList]
    exact (fromCharCodes_encode (inline_envelopeText hp hsignature)).1
  have hdecode : v.jsonDecode (String.ofList (envelopeText (authFields sessionId clientNonce rvdNonce) signature)) =
      .ok (envelopeOf (authPayload sessionId clientNonce rvdNonce) signature) := by
    rw [hruntime]
    exact hrt.decodes _ _ (read_envelopeText hp hsignature)
  -- the side and the relay have written the same text
  have hsame : v.dataToVerify = signer.encode (.obj (authPayload sessionId clientNonce rvdNonce)) := by
    rw [hdata, encode_authPayload hrt.encodes hp, encode_authPayload hrt.signs hp]
  have hverified : v.rsaVerifyString v.dataToVerify signature pk .sha256 = .ok true := by
    rw [hsame, hruntime]
    exact hverify
  obtain ⟨atSign, hatsign⟩ := Option.isSome_iff_exists.mp hatsign
  rw [hline, RelayAuthVerifierAuto.handleLegacyLine, hkey, ok_bind, hatsign]
  dsimp only
  apply verifyEnvelope_ok hdecode _ hverified
  rw [hnonce]
  rfl

/-- What reaches the socket of a side: its line and then the traffic, in chunks of which the one that ends the line
is not too long; the hints that the relay has been given of its mode; the timer, but not before the first
bytes. -/
structure Reaches (v : RelayAuthVerifierAuto) (line traffic : List UInt8) (told : List (Bool × RelayAuthMode))
    (isSideA : Bool) (pk : String) (es : List SocketEvent) : Prop where
  sends : Srvd.sent es <+: line ++ newline :: traffic
  nonempty : .chunk [] ∉ es
  fits : ∀ consumed data later, Srvd.arrived es = consumed ++ .chunk data :: later →
    newline ∉ contents consumed → (contents consumed).length + data.length ≤ Srvd.maxAuthBufferLength
  hints : ∀ m resolves, .setKnownMode m resolves ∈ es → (isSideA, m) ∈ told
  /-- The side's other sockets. -/
  others : ∀ m, .otherVerified m ∈ es → m = .payload
  timer : ∀ es₁ es₂, es = es₁ ++ .timer :: es₂ → Srvd.sent es₁ ≠ []
  keys : ∀ reply, .resume reply ∈ es → v.legacyKey reply.helper = .ok pk
  noError : .error ∉ es

/-- A session in the legacy mode comes about: what the client, the Dart daemon or the C daemon sends on its socket
is what the relay that has answered the client expects there, so the side is let in, in whatever order the bytes,
the hints, the timer and the relay's own tasks come, and its traffic is passed on. -/
theorem legacy_session_authenticates {sessions : String → Option SessionParams} {sender : String}
    {sameAtsign : String → String → Bool} {told : List (Bool × RelayAuthMode)} {traffic : List UInt8}
    {knownMode : Option RelayAuthMode} {es : List SocketEvent} {s : Socket} {reply : Srvd.Reply}
    (hexchanged : Exchanged dart p sessionId clientNonce si r)
    (hsession : sessions sessionId = some si) (hsender : sameAtsign sender p.clientAtSign = true)
    (htold : told = ((p.definitiveAuthModes sessionId r daemonSupportsEscr).map
      (hints sameAtsign sessions sender)).getD [])
    (hside : AuthString p sessionId clientNonce r daemonSupportsEscr signer isSideA text)
    (hprintable : Printable sessionId ∧ Printable clientNonce ∧ Printable r.rvdNonce)
    (hrt : Verifies rt signer pk) (hv : createAuthVerifier rt si challenge isSideA = some v)
    (hatsign : (v.toAtsign v.expectedAtSign).isSome = true)
    (hknown : ∀ m, knownMode = some m → (isSideA, m) ∈ told)
    (hreaches : Reaches v (Utf8.encode text.toList) traffic told isSideA pk es)
    (hreply : v.legacyKey reply.helper = .ok pk)
    (hrun : v.socket.run (RelayAuthVerifierAuto.connected knownMode) es = some s) :
    (∀ thrown, s.completer ≠ some (.error thrown)) ∧ s.destroyed = false ∧ s.written = [] ∧
      (newline ∈ Srvd.sent es → ∃ n t,
        v.socket.run s (List.replicate n (.resume reply)) = some t ∧ t.queue = [] ∧
          t.completer = some (.ok ()) ∧ t.destroyed = false ∧ t.written = [] ∧
          Relays newline (Srvd.arrived es) t.sc) := by
  obtain ⟨generated, preFetch, hrecorded⟩ := recorded_of_exchanged hexchanged
  obtain ⟨signature, hsign, htext⟩ := hside.envelope
  have hp := printable_authFields hprintable.1 hprintable.2.1 hprintable.2.2
  obtain ⟨-, hagrees⟩ := createAuthVerifier_eq hrecorded hv
  obtain ⟨hsignature, -⟩ := hrt.verifies _ _ hsign
  have hline : text.toList = envelopeText (authFields sessionId clientNonce r.rvdNonce) signature := by
    rw [htext, encode_envelope hrt.signs hp hsignature, String.toList_ofList]
  -- the side's mode is the legacy one, and the relay has been told no other
  have hmode : p.used r.autoDetectsRelayAuth daemonSupportsEscr isSideA = .payload := by
    cases hside with
    | client _ _ hmode _ => exact hmode
    | sshnpd _ _ _ _ hmode _ _ _ => exact hmode
    | csshnpd _ _ _ hmode _ _ => exact hmode
  have htoldMode : ∀ m, (isSideA, m) ∈ told → m = .payload := by
    intro m hm
    rw [htold] at hm
    cases hsent : p.definitiveAuthModes sessionId r daemonSupportsEscr with
    | none =>
      rw [hsent] at hm
      cases hm
    | some decoded =>
      rw [hsent, Option.map_some, Option.getD_some] at hm
      obtain ⟨-, heq⟩ := used_of_hints hrecorded hsession hsender rfl hsent hm
      rw [heq, hmode]
  have haccepts : ∀ helper, v.legacyKey helper = .ok pk →
      v.handleLegacyLine helper (fromCharCodes (Utf8.encode text.toList)) = .ok () := by
    intro helper hkey
    rw [htext]
    exact handleLegacyLine_ok hp hrt hsign hagrees hkey hatsign
  have hpeer : Srvd.LegacyPeer v (Utf8.encode text.toList) traffic es :=
    ⟨hreaches.sends, hreaches.nonempty, hreaches.fits,
      fun m resolves hm => htoldMode m (hreaches.hints m resolves hm), hreaches.others, hreaches.timer,
      fun reply hm => haccepts _ (hreaches.keys reply hm), hreaches.noError⟩
  have hinline := inline_envelopeText hp hsignature
  rw [← hline] at hinline
  apply Srvd.legacy_side_authenticates _ (fromCharCodes_encode hinline).2 _ (haccepts _ hreply) hpeer hrun
  · intro hescr
    exact absurd (htoldMode _ (hknown _ hescr)) nofun
  · rw [hline]
    rfl

end session

/-! A C daemon's side, whose line comes at once with two bytes of traffic. -/

open Json (compactText compactMembers compactEncode)

theorem compact_compactEncode : Compact compactEncode := by
  refine ⟨fun s _ => rfl, ?_⟩
  intro members hne hmembers
  clear hne
  have htexts : compactMembers (members.map fun m => (m.1, m.2.1)) = members.map fun m => (m.1, m.2.2) := by
    induction members with
    | nil => rfl
    | cons m members ih =>
      have hvalue : compactText m.2.1 = m.2.2 := String.ofList_injective (hmembers m List.mem_cons_self).2
      have hrest := ih fun m hm => hmembers m (List.mem_cons_of_mem _ hm)
      rw [List.map_cons, List.map_cons, compactMembers, hvalue, hrest]
  rw [compactEncode, compactText, htexts]

def legacyParams : SessionParams := (sampleChannel.relayRequest "1" "c" "key" []).params "n"

def legacyResponse : RelayResponse := ⟨"ip", 1, 2, "n", true, true⟩

def legacyDart : Runtime where
  jsonDecode _ := some (.obj (relayResponseJson legacyResponse))
  jsonEncode := compactEncode
  rsaVerifyString _ _ _ _ := none
  rsaDecryptString _ := none
  eventConfig _ := none
  fixAtSign atSign := atSign
  intParse _ := .error (.other "FormatException")
  toAtsign := .ok

def legacyLibraries : CDaemon.DaemonLibraries where
  parse _ := none
  printUnformatted := compactEncode
  base64Decode _ := none
  sha256 _ := none
  populatePublicKey _ := none
  rsaVerify _ _ _ _ := false
  base64Encode _ := "c2ln"
  rsaSign _ := some [115, 105, 103]
  rsaEncrypt _ _ := none
  enrollmentId := none
  pkamPrivateKeyBase64 := ""

/-- The relay's, in which `c2ln` signs everything. -/
def legacyRelay : Srvd.Runtime :=
  { Srvd.sampleVerifierAuto.toRuntime with
    jsonDecode := fun text => match Json.read text with
      | some value => .ok value
      | none => .error "Unexpected character"
    jsonEncode := compactEncode }

def legacyRequest : NptSessionRequest where
  sessionId := "1"
  rvdHost := "ip"
  rvdPort := 2
  requestedHost := "localhost"
  requestedPort := 22
  authenticateToRvd := true
  relayAuthMode := .payload
  relayAuthAesKey := some "key"
  clientNonce := "c"
  rvdNonce := "n"
  encryptRvdTraffic := true
  clientEphemeralPK := "pk"
  clientEphemeralPKType := "rsa2048"
  timeout := 60000
  twinKeys := false
  relayAtsign := none

def legacyText : String := compactEncode (envelopeOf (authPayload "1" "c" "n") "c2ln")

def legacyVerifier : RelayAuthVerifierAuto :=
  { legacyRelay with
    challenge := "ch"
    expectedAtSign := "@daemon"
    sessionId := "1"
    isSideA := false
    dataToVerify := compactEncode (.obj (authPayload "1" "c" "n"))
    rvdNonce := "n"
    publicKey := none }

def legacyReply : Srvd.Reply :=
  ⟨.ok (), ⟨fun _ => true, fun _ => .error (.other ""), fun _ _ => .ok "cDI="⟩⟩

def legacyChunk : List UInt8 := Utf8.encode legacyText.toList ++ newline :: [1, 2]

def legacyEvents : List SocketEvent :=
  [.resume legacyReply, .setKnownMode .payload true, .chunk legacyChunk]

def legacySocket : Socket :=
  { RelayAuthVerifierAuto.connected (some .payload) with
    detectTimer := true
    queue := [.resolve .payload, .chunk legacyChunk] }

theorem legacy_exchanged : Exchanged legacyDart sampleChannel "1" "c" legacyParams legacyResponse where
  requested := ⟨"key", [], "n", fun _ => .ok none, legacyParams, srvdSessionParamsFromJson_toJson _ _, rfl⟩
  answered := by
    have hlegible : Legible legacyDart "ip" 1 2 legacyParams := ⟨fun _ => ⟨rfl, rfl⟩, nofun⟩
    exact ⟨"ip", 1, 2, hlegible, readRelayResponse_createResponseValue hlegible⟩

theorem legacy_reaches : Reaches legacyVerifier (Utf8.encode legacyText.toList) [1, 2]
    [(true, .escr), (false, .payload)] false "cDI=" legacyEvents := by
  have hsent : Srvd.sent legacyEvents = legacyChunk := List.append_nil _
  have hlength : legacyChunk.length ≤ Srvd.maxAuthBufferLength := by decide +kernel
  refine ⟨?sends, ?nonempty, ?fits, ?hints, ?others, ?timer, ?keys, ?noError⟩
  case sends =>
    rw [hsent]
    exact List.prefix_rfl
  case nonempty =>
    have hchunk : [] ≠ legacyChunk := by decide +kernel
    intro hmem
    rcases List.mem_cons.mp hmem with h | hmem
    · cases h
    rcases List.mem_cons.mp hmem with h | hmem
    · cases h
    · exact hchunk (SocketEvent.chunk.inj (List.mem_singleton.mp hmem))
  case fits =>
    intro consumed data later harrived _
    have hcontents : contents (Input.chunk data :: later) = data ++ contents later := rfl
    rw [← hsent, Srvd.sent, harrived, contents_append, hcontents, List.length_append,
      List.length_append] at hlength
    omega
  case hints =>
    intro m resolves hmem
    rcases List.mem_cons.mp hmem with h | hmem
    · cases h
    rcases List.mem_cons.mp hmem with h | hmem
    · cases h
      decide
    · cases List.mem_singleton.mp hmem
  case others =>
    intro m hmem
    rcases List.mem_cons.mp hmem with h | hmem
    · cases h
    rcases List.mem_cons.mp hmem with h | hmem
    · cases h
    · cases List.mem_singleton.mp hmem
  case timer =>
    intro es₁ es₂ hes
    have hmem : SocketEvent.timer ∈ legacyEvents := by
      rw [hes]
      exact List.mem_append_right es₁ List.mem_cons_self
    rcases List.mem_cons.mp hmem with h | hmem
    · cases h
    rcases List.mem_cons.mp hmem with h | hmem
    · cases h
    · cases List.mem_singleton.mp hmem
  case keys =>
    intro reply hmem
    rcases List.mem_cons.mp hmem with h | hmem
    · cases h
      rfl
    rcases List.mem_cons.mp hmem with h | hmem
    · cases h
    · cases List.mem_singleton.mp hmem
  case noError =>
    intro hmem
    rcases List.mem_cons.mp hmem with h | hmem
    · cases h
    rcases List.mem_cons.mp hmem with h | hmem
    · cases h
    · cases List.mem_singleton.mp hmem

theorem legacy_session_authenticates_sample :
    (∀ thrown, legacySocket.completer ≠ some (.error thrown)) ∧ legacySocket.destroyed = false ∧
      legacySocket.written = [] ∧
      (newline ∈ Srvd.sent legacyEvents → ∃ n t,
        legacyVerifier.socket.run legacySocket (List.replicate n (.resume legacyReply)) = some t ∧
          t.queue = [] ∧ t.completer = some (.ok ()) ∧ t.destroyed = false ∧ t.written = [] ∧
          Relays newline (Srvd.arrived legacyEvents) t.sc) := by
  have hside : AuthString sampleChannel "1" "c" legacyResponse false (cSigner legacyLibraries) false legacyText :=
    .csshnpd legacyLibraries legacyRequest legacyText rfl ⟨rfl, rfl, rfl⟩
      (createRvdAuthString_nptRequest _ _)
  have hone : Printable "1" := printable_literal (by decide)
  have hc : Printable "c" := printable_literal (by decide)
  have hn : Printable "n" := printable_literal (by decide)
  have hrt : Verifies legacyRelay (cSigner legacyLibraries) "cDI=" := by
    refine ⟨compact_compactEncode, compact_compactEncode, ?_, ?_⟩
    · intro text value hread
      simp only [legacyRelay, hread]
    · intro text signature hsign
      cases hsign
      exact ⟨printable_literal (by decide), rfl⟩
  have hsession : (fun id : String => if id = "1" then some legacyParams else none) "1" = some legacyParams := rfl
  have hsender : (fun a b : String => a == b) "@alice" sampleChannel.clientAtSign = true := by decide
  have htold : [(true, Srvd.RelayAuthMode.escr), (false, .payload)] =
      ((sampleChannel.definitiveAuthModes "1" legacyResponse false).map
        (hints (fun a b => a == b) (fun id => if id = "1" then some legacyParams else none) "@alice")).getD [] := by
    decide +kernel
  have hv : createAuthVerifier legacyRelay legacyParams "ch" false = some legacyVerifier := rfl
  have hrun : legacyVerifier.socket.run (RelayAuthVerifierAuto.connected none) legacyEvents = some legacySocket := rfl
  have hknown : ∀ m, (none : Option Srvd.RelayAuthMode) = some m →
      (false, m) ∈ [(true, Srvd.RelayAuthMode.escr), (false, .payload)] := fun m hm => by cases hm
  exact legacy_session_authenticates legacy_exchanged hsession hsender htold hside ⟨hone, hc, hn⟩ hrt hv rfl
    hknown legacy_reaches rfl hrun

end NoPorts.RelayMessages
