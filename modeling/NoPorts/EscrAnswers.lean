import NoPorts.ApkamSigning
import NoPorts.EscrResponseAgreement
import NoPorts.LegacyAuthentication

/-! A Dart srv's response to the relay's challenge, made with its enrollment's key: the relay verifies it. -/
namespace NoPorts.RelayAuthenticator
open Lib Signing
open Srvd (Runtime RelayAuthVerifyHelper EscrFields fromCharCodes)
open RelayMessages (Compact Printable Inline fieldTexts printable_literal encode_fieldTexts)

/-- The packages of the srv and of the relay, which are the same: base64, AES, and compact JSON. -/
structure EscrSdk.Agrees (sdk : EscrSdk) (rt : Runtime) : Prop where
  compact : Compact sdk.jsonEncode
  jsonEncode : rt.jsonEncode = sdk.jsonEncode
  jsonDecode : ∀ text value, Json.read text = some value → rt.jsonDecode text = .ok value
  base64Encode : ∀ bytes, sdk.base64Encode (fromCharCodes bytes) = .ok (fromCharCodes (Base64.encode bytes))
  base64EncodeBytes : ∀ bytes, sdk.base64EncodeBytes bytes = fromCharCodes (Base64.encode bytes)
  base64Decode : ∀ bytes, rt.base64Decode (fromCharCodes (Base64.encode bytes)) = some bytes
  aesEncryptString : ∀ text key iv ciphertext, sdk.aesEncryptString text key iv = .ok ciphertext →
    Printable ciphertext ∧ rt.aesDecryptString ciphertext key iv = .ok text
  signWithApskKey : ∀ text algorithm key signature,
    sdk.signWithApskKey text algorithm key = .ok signature → Printable signature
  publicKeyKidOfBase64 : ∀ key kid, sdk.publicKeyKidOfBase64 key = .ok kid → Printable kid
  toLowerCase : ∀ s : String, (∀ c ∈ s.toList, c.toNat < 128) → rt.toLowerCase s = lowerAscii s

/-! ### The texts of a response -/

/-- A byte for each character. -/
def bytesOf (text : List Char) : List UInt8 := text.map fun c => UInt8.ofNat c.toNat

theorem fromCharCodes_bytesOf {text : List Char} (h : ∀ c ∈ text, c.toNat < 256) :
    fromCharCodes (bytesOf text) = String.ofList text := by
  have htoNat : ∀ c ∈ text, Char.ofNat (UInt8.ofNat c.toNat).toNat = c := by
    intro c hc
    rw [UInt8.toNat_ofNat', Nat.mod_eq_of_lt (h c hc), Char.ofNat_toNat]
  rw [fromCharCodes, bytesOf, List.map_map]
  apply congrArg String.ofList
  calc text.map ((fun b : UInt8 => Char.ofNat b.toNat) ∘ fun c => UInt8.ofNat c.toNat)
      = text.map id := List.map_congr_left htoNat
    _ = text := List.map_id _

theorem bytes_of_inline {text : List Char} (h : ∀ c ∈ text, Inline c) : ∀ c ∈ text, c.toNat < 256 := by
  intro c hc
  have hascii := (h c hc).2
  omega

def payloadFields (a : RelayAuthenticatorESCR) (challenge : String) : List (String × String) :=
  [("sid", a.sessionId), ("c", challenge), ("side", if a.isSideA then "a" else "b")]

/-- The members of the envelope, its payload apart. -/
def signatureFields (a : RelayAuthenticatorESCR) (s kid : String) : List (String × String) :=
  [("s", s), ("ha", "sha256"), ("sa", a.signingAlgo.name), ("sk", a.publicSigningKeyUri), ("kid", kid)]

def jsonOf (fields : List (String × String)) : List (String × Json) := fields.map fun f => (f.1, .str f.2)

def textOf (fields : List (String × String)) : List Char :=
  Json.objectText (fields.map fun f => (f.1, Json.quote f.2))

def envelopeJson (a : RelayAuthenticatorESCR) (challenge s kid : String) : List (String × Json) :=
  ("p", .obj (jsonOf (payloadFields a challenge))) :: jsonOf (signatureFields a s kid)

def envelopeText (a : RelayAuthenticatorESCR) (challenge s kid : String) : List Char :=
  Json.objectText (("p", textOf (payloadFields a challenge)) ::
    (signatureFields a s kid).map fun f => (f.1, Json.quote f.2))

/-- What goes into a response reads the same in JSON, and none of it is a `:`. -/
structure Readable (a : RelayAuthenticatorESCR) (challenge : String) : Prop where
  sessionId : Printable a.sessionId
  colon : ':' ∉ a.sessionId.toList
  challenge : Printable challenge
  uri : Printable a.publicSigningKeyUri

section texts
variable {a : RelayAuthenticatorESCR} {challenge s kid : String} {fields : List (String × String)}

/-- Fields whose names and values are printable. -/
theorem readable_of_values (names : List String) (hnames : names = fields.map Prod.fst)
    (hliteral : names.all (fun n => n.toList.all fun c => Json.plain c && decide (c.toNat < 128)) = true)
    (hvalues : ∀ v ∈ fields.map Prod.snd, Printable v) : ∀ f ∈ fields, Printable f.1 ∧ Printable f.2 := by
  intro f hf
  constructor
  · apply printable_literal
    apply List.all_eq_true.mp hliteral
    rw [hnames]
    exact List.mem_map.mpr ⟨f, hf, rfl⟩
  · exact hvalues f.2 (List.mem_map.mpr ⟨f, hf, rfl⟩)

theorem readable_payloadFields (h : Readable a challenge) :
    ∀ f ∈ payloadFields a challenge, Printable f.1 ∧ Printable f.2 := by
  have hside : Printable (if a.isSideA then "a" else "b") := by
    cases a.isSideA
    · exact printable_literal (by decide)
    · exact printable_literal (by decide)
  apply readable_of_values ["sid", "c", "side"]
  · rfl
  · decide
  · change ∀ v ∈ [a.sessionId, challenge, if a.isSideA then "a" else "b"], Printable v
    intro v hv
    rcases List.mem_cons.mp hv with rfl | hv
    · exact h.sessionId
    · rcases List.mem_pair.mp hv with rfl | rfl
      · exact h.challenge
      · exact hside

theorem printable_name (algorithm : SigningAlgoType) : Printable algorithm.name := by
  cases algorithm <;> exact printable_literal (by decide)

theorem readable_signatureFields (h : Readable a challenge) (hs : Printable s) (hkid : Printable kid) :
    ∀ f ∈ signatureFields a s kid, Printable f.1 ∧ Printable f.2 := by
  have hha : Printable "sha256" := printable_literal (by decide)
  have hsa : Printable a.signingAlgo.name := printable_name a.signingAlgo
  apply readable_of_values ["s", "ha", "sa", "sk", "kid"]
  · rfl
  · decide
  · change ∀ v ∈ [s, "sha256", a.signingAlgo.name, a.publicSigningKeyUri, kid], Printable v
    intro v hv
    rcases List.mem_cons.mp hv with rfl | hv
    · exact hs
    · rcases List.mem_cons.mp hv with rfl | hv
      · exact hha
      · rcases List.mem_cons.mp hv with rfl | hv
        · exact hsa
        · rcases List.mem_pair.mp hv with rfl | rfl
          · exact h.uri
          · exact hkid

/-- What an encoder of compact JSON makes of fields of strings. -/
theorem encode_jsonOf {encode : Json → String} (hc : Compact encode) (hne : fields ≠ [])
    (hp : ∀ f ∈ fields, Printable f.1 ∧ Printable f.2) :
    encode (.obj (jsonOf fields)) = String.ofList (textOf fields) := by
  have hobj := hc.obj (fieldTexts fields) (mt List.map_eq_nil_iff.mp hne) (encode_fieldTexts hc hp)
  rw [fieldTexts, List.map_map, List.map_map] at hobj
  exact hobj

theorem encode_envelopeJson {encode : Json → String} (hc : Compact encode) (h : Readable a challenge)
    (hs : Printable s) (hkid : Printable kid) :
    encode (.obj (envelopeJson a challenge s kid)) = String.ofList (envelopeText a challenge s kid) := by
  have hobj := hc.obj (("p", .obj (jsonOf (payloadFields a challenge)), textOf (payloadFields a challenge)) ::
    fieldTexts (signatureFields a s kid)) (List.cons_ne_nil _ _) ?_
  · rw [List.map_cons, List.map_cons, fieldTexts, List.map_map, List.map_map] at hobj
    exact hobj
  · intro m hm
    rcases List.mem_cons.mp hm with rfl | hm
    · refine ⟨(printable_literal (by decide) : Printable "p").plain, ?_⟩
      exact encode_jsonOf hc (List.cons_ne_nil _ _) (readable_payloadFields h)
    · exact encode_fieldTexts hc (readable_signatureFields h hs hkid) m hm

/-- A reader of JSON has fields of strings from their text. -/
theorem reads_textOf (hne : fields ≠ []) (hnodup : (fields.map Prod.fst).Nodup)
    (hp : ∀ f ∈ fields, Printable f.1 ∧ Printable f.2) :
    Json.Reads (0 + fields.length + 1) (textOf fields) (.obj (jsonOf fields)) := by
  have h := Json.reads_objectText (fieldTexts fields) 0 (mt List.map_eq_nil_iff.mp hne) ?_ ?_ ?_
  · rw [fieldTexts, List.map_map, List.map_map, List.length_map] at h
    exact h
  · intro m hm
    obtain ⟨f, hf, rfl⟩ := List.mem_map.mp hm
    exact (hp f hf).1.plain
  · rw [fieldTexts, List.map_map]
    exact hnodup
  · intro m hm
    obtain ⟨f, hf, rfl⟩ := List.mem_map.mp hm
    exact Json.reads_quote (hp f hf).2.plain

/-- A reader of JSON has the envelope from its text. -/
theorem read_envelopeText (h : Readable a challenge) (hs : Printable s) (hkid : Printable kid) :
    Json.read (String.ofList (envelopeText a challenge s kid)) =
      some (.obj (envelopeJson a challenge s kid)) := by
  have hpayload : Json.Reads 4 (textOf (payloadFields a challenge)) (.obj (jsonOf (payloadFields a challenge))) := by
    apply reads_textOf (List.cons_ne_nil _ _) ?_ (readable_payloadFields h)
    exact (by decide : ["sid", "c", "side"].Nodup)
  have hsignature := readable_signatureFields (a := a) h hs hkid
  have henvelope := Json.reads_objectText
    (("p", .obj (jsonOf (payloadFields a challenge)), textOf (payloadFields a challenge)) ::
      fieldTexts (signatureFields a s kid)) 4 (List.cons_ne_nil _ _) ?keys ?nodup ?values
  case keys =>
    intro m hm
    rcases List.mem_cons.mp hm with rfl | hm
    · exact (printable_literal (by decide) : Printable "p").plain
    · obtain ⟨f, hf, rfl⟩ := List.mem_map.mp hm
      exact (hsignature f hf).1.plain
  case nodup => exact (by decide : ["p", "s", "ha", "sa", "sk", "kid"].Nodup)
  case values =>
    intro m hm
    rcases List.mem_cons.mp hm with rfl | hm
    · exact hpayload
    · obtain ⟨f, hf, rfl⟩ := List.mem_map.mp hm
      exact (Json.reads_quote (hsignature f hf).2.plain).mono (Nat.zero_le 4)
  rw [List.map_cons, List.map_cons, fieldTexts, List.map_map, List.map_map] at henvelope
  apply Json.read_of_reads henvelope
  -- the names alone are longer than the nesting is deep
  have hkey : (Json.quote "p").length + (textOf (payloadFields a challenge)).length ≤
      (envelopeText a challenge s kid).length := by
    change _ ≤ (Json.quote "p" ++ ':' :: (textOf (payloadFields a challenge) ++ ',' :: _)).length + 1
    rw [List.length_append, List.length_cons, List.length_append]
    omega
  have hthree : (Json.quote "p").length = 3 := by decide
  have hsid : 9 ≤ (textOf (payloadFields a challenge)).length := by
    change 9 ≤ (Json.quote "sid" ++ ':' :: (Json.quote a.sessionId ++ ',' :: (Json.quote "c" ++ ':' :: _))).length + 1
    have hfive : (Json.quote "sid").length = 5 := by decide
    have hc : (Json.quote "c").length = 3 := by decide
    rw [List.length_append, List.length_cons, List.length_append, List.length_cons, List.length_append, hfive, hc]
    omega
  have hlength : 11 ≤ (envelopeText a challenge s kid).length := by omega
  exact hlength

theorem inline_textOf (hp : ∀ f ∈ fields, Printable f.1 ∧ Printable f.2) : ∀ c ∈ textOf fields, Inline c := by
  apply RelayMessages.inline_objectText
  intro m hm
  obtain ⟨f, hf, rfl⟩ := List.mem_map.mp hm
  exact ⟨(hp f hf).1, RelayMessages.inline_quote (hp f hf).2⟩

theorem inline_envelopeText (h : Readable a challenge) (hs : Printable s) (hkid : Printable kid) :
    ∀ c ∈ envelopeText a challenge s kid, Inline c := by
  apply RelayMessages.inline_objectText
  intro m hm
  rcases List.mem_cons.mp hm with rfl | hm
  · exact ⟨(printable_literal (by decide) : Printable "p"), inline_textOf (readable_payloadFields h)⟩
  · obtain ⟨f, hf, rfl⟩ := List.mem_map.mp hm
    obtain ⟨hkey, hvalue⟩ := readable_signatureFields h hs hkid f hf
    exact ⟨hkey, RelayMessages.inline_quote hvalue⟩

end texts

/-! ### A response and what the verifier makes of it -/

section response
variable {a : RelayAuthenticatorESCR} {rt : Runtime} {challenge response : String} {iv : List UInt8}

def outerFields (iv64 envelopeEncrypted64 : String) : List (String × String) :=
  [("iv", iv64), ("e", envelopeEncrypted64)]

/-- What has been made on the way to a response. -/
structure Made (a : RelayAuthenticatorESCR) (challenge : String) (iv : List UInt8)
    (s kid ciphertext response : String) : Prop where
  signed : a.signWithApskKey (String.ofList (textOf (payloadFields a challenge))) a.signingAlgo
    a.privateSigningKey = .ok s
  kid_eq : a.publicKeyKidOfBase64 a.publicSigningKey = .ok kid
  encrypted : a.aesEncryptString (fromCharCodes (Base64.encode (bytesOf (envelopeText a challenge s kid))))
    a.relayAuthAesKey iv = .ok ciphertext
  response_eq : response = a.sessionId ++ ":" ++ fromCharCodes (Base64.encode (bytesOf
    (textOf (outerFields (fromCharCodes (Base64.encode iv)) ciphertext))))

theorem printable_encode (bytes : List UInt8) : Printable (fromCharCodes (Base64.encode bytes)) := by
  intro c hc
  have hsafe := CSrv.plain_of_json_safe (CSrv.json_safe_encode bytes)
  rw [CSrv.toList_fromCharCodes] at hc
  refine ⟨hsafe c hc, ?_⟩
  obtain ⟨b, hb, rfl⟩ := List.mem_map.mp hc
  have hcases := Base64.isChar_cases (Base64.isChar_of_mem_encode hb)
  rw [toNat_ofNat_byte]
  omega

theorem readable_outerFields {ciphertext : String} (hciphertext : Printable ciphertext) (iv : List UInt8) :
    ∀ f ∈ outerFields (fromCharCodes (Base64.encode iv)) ciphertext, Printable f.1 ∧ Printable f.2 := by
  apply readable_of_values ["iv", "e"]
  · rfl
  · decide
  · intro v hv
    rcases List.mem_pair.mp hv with rfl | rfl
    · exact printable_encode iv
    · exact hciphertext

theorem responseToChallenge_of_steps {s kid envelope64 ciphertext authPayload64 : String}
    (hs : a.signWithApskKey (a.jsonEncode (.obj (jsonOf (payloadFields a challenge)))) a.signingAlgo
      a.privateSigningKey = .ok s)
    (hkid : a.publicKeyKidOfBase64 a.publicSigningKey = .ok kid)
    (henvelope : a.base64Encode (a.jsonEncode (.obj (envelopeJson a challenge s kid))) = .ok envelope64)
    (hciphertext : a.aesEncryptString envelope64 a.relayAuthAesKey iv = .ok ciphertext)
    (houter : a.base64Encode (a.jsonEncode (.obj (jsonOf (outerFields (a.base64EncodeBytes iv) ciphertext)))) =
      .ok authPayload64) :
    a.responseToChallenge challenge iv = .ok (a.sessionId ++ ":" ++ authPayload64) := by
  apply bind_eq_ok.mpr
  refine ⟨s, hs, bind_eq_ok.mpr ⟨kid, hkid, bind_eq_ok.mpr ⟨envelope64, henvelope, ?_⟩⟩⟩
  exact bind_eq_ok.mpr ⟨ciphertext, hciphertext, bind_eq_ok.mpr ⟨authPayload64, houter, rfl⟩⟩

/-- A response is made in these steps. -/
theorem made_of_response (hag : a.toEscrSdk.Agrees rt) (hread : Readable a challenge)
    (hresponse : a.responseToChallenge challenge iv = .ok response) :
    ∃ s kid ciphertext, Made a challenge iv s kid ciphertext response := by
  have hpayload : a.jsonEncode (.obj (jsonOf (payloadFields a challenge))) =
      String.ofList (textOf (payloadFields a challenge)) :=
    encode_jsonOf hag.compact (List.cons_ne_nil _ _) (readable_payloadFields hread)
  obtain ⟨s, hs, hresponse⟩ := bind_eq_ok.mp hresponse
  obtain ⟨kid, hkid, hresponse⟩ := bind_eq_ok.mp hresponse
  obtain ⟨envelope64, henvelope, hresponse⟩ := bind_eq_ok.mp hresponse
  obtain ⟨ciphertext, hciphertext, hresponse⟩ := bind_eq_ok.mp hresponse
  obtain ⟨authPayload64, houter, hresponse⟩ := bind_eq_ok.mp hresponse
  have hs' : a.signWithApskKey (a.jsonEncode (.obj (jsonOf (payloadFields a challenge)))) a.signingAlgo
      a.privateSigningKey = .ok s := hs
  have henvelope' : a.base64Encode (a.jsonEncode (.obj (envelopeJson a challenge s kid))) =
      .ok envelope64 := henvelope
  have houter' : a.base64Encode (a.jsonEncode (.obj (jsonOf (outerFields (a.base64EncodeBytes iv)
      ciphertext)))) = .ok authPayload64 := houter
  have hsignature : Printable s := hag.signWithApskKey _ _ _ _ hs'
  have hid : Printable kid := hag.publicKeyKidOfBase64 _ _ hkid
  rw [hpayload] at hs'
  rw [encode_envelopeJson hag.compact hread hsignature hid,
    ← fromCharCodes_bytesOf (bytes_of_inline (inline_envelopeText hread hsignature hid)), hag.base64Encode] at henvelope'
  obtain rfl := Except.ok.inj henvelope'
  have hcipher : Printable ciphertext := (hag.aesEncryptString _ _ _ _ hciphertext).1
  have hfields := readable_outerFields hcipher iv
  have htext : a.jsonEncode (.obj (jsonOf (outerFields (fromCharCodes (Base64.encode iv)) ciphertext))) =
      String.ofList (textOf (outerFields (fromCharCodes (Base64.encode iv)) ciphertext)) :=
    encode_jsonOf hag.compact (List.cons_ne_nil _ _) hfields
  rw [hag.base64EncodeBytes, htext, ← fromCharCodes_bytesOf (bytes_of_inline (inline_textOf hfields)),
    hag.base64Encode] at houter'
  obtain rfl := Except.ok.inj houter'
  exact ⟨s, kid, ciphertext, hs', hkid, hciphertext, (Except.ok.inj hresponse).symm⟩

theorem splitResponse_made (hag : a.toEscrSdk.Agrees rt) (hread : Readable a challenge) {s kid ciphertext : String}
    (hmade : Made a challenge iv s kid ciphertext response) :
    rt.splitResponse response = .ok (a.sessionId, fromCharCodes (bytesOf
      (textOf (outerFields (fromCharCodes (Base64.encode iv)) ciphertext)))) := by
  let outer := bytesOf (textOf (outerFields (fromCharCodes (Base64.encode iv)) ciphertext))
  have hcolon : ':' ∉ (fromCharCodes (Base64.encode outer)).toList := by
    rw [CSrv.toList_fromCharCodes]
    exact CSrv.colon_notMem_chars (CSrv.colon_notMem_encode outer)
  have hparts : response.toList.splitOn ':' = [a.sessionId.toList, (fromCharCodes (Base64.encode outer)).toList] := by
    have hjoin : response.toList =
        [':'].intercalate [a.sessionId.toList, (fromCharCodes (Base64.encode outer)).toList] := by
      rw [hmade.response_eq, String.toList_append, String.toList_append, List.append_assoc]
      simp only [List.intercalate, List.intersperse, List.flatten_cons, List.flatten_nil, List.append_nil]
      rfl
    rw [hjoin]
    apply List.splitOn_intercalate
    · intro piece hpiece
      rcases List.mem_pair.mp hpiece with h | h
      · rw [h]
        exact hread.colon
      · rw [h]
        exact hcolon
    · exact List.cons_ne_nil _ _
  rw [Runtime.splitResponse, hparts, List.map_cons, List.map_cons, List.map_nil, String.ofList_toList,
    String.ofList_toList]
  dsimp only
  rw [hag.base64Decode]
  rfl

theorem readOuter_made (hag : a.toEscrSdk.Agrees rt) {ciphertext : String} (hciphertext : Printable ciphertext)
    (iv : List UInt8) :
    rt.readOuter (fromCharCodes (bytesOf (textOf (outerFields (fromCharCodes (Base64.encode iv)) ciphertext)))) =
      .ok (fromCharCodes (Base64.encode iv), ciphertext) := by
  have hfields := readable_outerFields hciphertext iv
  have hreads : Json.Reads 3 (textOf (outerFields (fromCharCodes (Base64.encode iv)) ciphertext))
      (.obj (jsonOf (outerFields (fromCharCodes (Base64.encode iv)) ciphertext))) := by
    apply reads_textOf (List.cons_ne_nil _ _) ?_ hfields
    exact (by decide : ["iv", "e"].Nodup)
  have hlength : 3 ≤ (textOf (outerFields (fromCharCodes (Base64.encode iv)) ciphertext)).length := by
    change 3 ≤ (Json.quote "iv" ++ ':' :: _).length + 1
    have hfour : (Json.quote "iv").length = 4 := by decide
    rw [List.length_append, hfour]
    omega
  rw [Runtime.readOuter, fromCharCodes_bytesOf (bytes_of_inline (inline_textOf hfields)),
    hag.jsonDecode _ _ (Json.read_of_reads hreads hlength)]
  rfl

theorem decrypt_made (hag : a.toEscrSdk.Agrees rt) (hread : Readable a challenge) {s kid ciphertext : String}
    (hmade : Made a challenge iv s kid ciphertext response) :
    rt.decrypt (fromCharCodes (Base64.encode iv)) ciphertext a.relayAuthAesKey =
      .ok (String.ofList (envelopeText a challenge s kid)) := by
  have hs : Printable s := hag.signWithApskKey _ _ _ _ hmade.signed
  have hkid : Printable kid := hag.publicKeyKidOfBase64 _ _ hmade.kid_eq
  rw [Runtime.decrypt, hag.base64Decode]
  dsimp only
  rw [(hag.aesEncryptString _ _ _ _ hmade.encrypted).2]
  dsimp only
  rw [hag.base64Decode]
  dsimp only
  rw [fromCharCodes_bytesOf (bytes_of_inline (inline_envelopeText hread hs hkid))]
  rfl

theorem sideOf_payloadFields (hag : a.toEscrSdk.Agrees rt) (challenge : String) :
    rt.sideOf (jsonOf (payloadFields a challenge)) = some a.isSideA := by
  have hlower : ∀ s : String, s = "a" ∨ s = "b" → rt.toLowerCase s = s := by
    intro s hs
    have hascii : ∀ c ∈ s.toList, c.toNat < 128 := by
      intro c hc
      rcases hs with rfl | rfl
      · obtain rfl : c = 'a' := List.mem_singleton.mp hc
        decide
      · obtain rfl : c = 'b' := List.mem_singleton.mp hc
        decide
    rw [hag.toLowerCase s hascii]
    rcases hs with rfl | rfl
    · decide
    · decide
  have hside : rt.sideText (jsonOf (payloadFields a challenge)) = if a.isSideA then "a" else "b" := by
    change rt.toLowerCase (if a.isSideA then "a" else "b") = _
    apply hlower
    cases a.isSideA
    · exact Or.inr rfl
    · exact Or.inl rfl
  rw [Runtime.sideOf, hside]
  cases a.isSideA
  · rfl
  · rfl

/-- The claim that the verifier reads out of a response. -/
def claimOf (a : RelayAuthenticatorESCR) (challenge s kid atSign : String) : Srvd.Claim :=
  ⟨envelopeJson a challenge s kid, jsonOf (payloadFields a challenge), a.isSideA, a.publicSigningKeyUri, atSign,
    .sha256, a.signingAlgo⟩

theorem readEnvelope_made (hag : a.toEscrSdk.Agrees rt) (hread : Readable a challenge) {s kid atSign : String}
    (hs : Printable s) (hkid : Printable kid) (hescr : escrSigningAlgorithms.contains a.signingAlgo = true)
    (howner : rt.ownerOf a.publicSigningKeyUri = .ok atSign) :
    rt.readEnvelope challenge a.sessionId (String.ofList (envelopeText a challenge s kid)) =
      .ok (claimOf a challenge s kid atSign) := by
  have hp : Json.field (envelopeJson a challenge s kid) "p" = .obj (jsonOf (payloadFields a challenge)) := rfl
  have hsid : Json.field (jsonOf (payloadFields a challenge)) "sid" = .str a.sessionId := rfl
  have hc : Json.field (jsonOf (payloadFields a challenge)) "c" = .str challenge := rfl
  have hsk : Json.field (envelopeJson a challenge s kid) "sk" = .str a.publicSigningKeyUri := rfl
  have hha : Json.field (envelopeJson a challenge s kid) "ha" = .str "sha256" := rfl
  have hsa : Json.field (envelopeJson a challenge s kid) "sa" = .str a.signingAlgo.name := rfl
  have hsha : HashingAlgoType.byName? "sha256" = some .sha256 := by decide
  rw [Runtime.readEnvelope, hag.jsonDecode _ _ (read_envelopeText hread hs hkid)]
  simp only [hp, sideOf_payloadFields hag, hsid, hc, hsk, hha, hsa, Json.str?, ne_eq, not_true_eq_false, if_false,
    howner, Option.bind_some, hsha, byName?_signing, hescr, Bool.not_true, Bool.false_eq_true]
  rfl

theorem verifyClaim_made (hag : a.toEscrSdk.Agrees rt) (hread : Readable a challenge) {s kid apsk : String}
    (atSign : String)
    (hverified : rt.verifyApskSignature a.publicSigningKeyUri apsk
      (String.ofList (textOf (payloadFields a challenge))) s a.signingAlgo .sha256 (some kid) = .ok ()) :
    rt.verifyClaim (claimOf a challenge s kid atSign) apsk = .ok () := by
  have hs : (Json.field (envelopeJson a challenge s kid) "s").str? = some s := rfl
  have hkid : rt.readKid (envelopeJson a challenge s kid) = .ok (some kid) := rfl
  have hpayload : rt.jsonEncode (.obj (jsonOf (payloadFields a challenge))) =
      String.ofList (textOf (payloadFields a challenge)) := by
    rw [hag.jsonEncode]
    exact encode_jsonOf hag.compact (List.cons_ne_nil _ _) (readable_payloadFields hread)
  rw [Runtime.verifyClaim, claimOf]
  dsimp only
  rw [hs]
  dsimp only
  rw [hkid]
  dsimp only
  rw [hpayload, hverified]
  rfl

/-- A response to the verifier's challenge, of a session it knows, is verified if its signature is. -/
theorem verifyWith_responseToChallenge {helper : RelayAuthVerifyHelper} {atSign apsk : String}
    (hread : Readable a challenge) (hag : a.toEscrSdk.Agrees rt)
    (hescr : escrSigningAlgorithms.contains a.signingAlgo = true)
    (howner : rt.ownerOf a.publicSigningKeyUri = .ok atSign)
    (hactive : helper.isSessionActive a.sessionId = true)
    (haes : helper.getRelayAuthAesKey a.sessionId = .ok a.relayAuthAesKey)
    (hlookup : helper.lookup a.sessionId a.publicSigningKeyUri = .ok apsk)
    (hverified : ∀ kid signed s, a.publicKeyKidOfBase64 a.publicSigningKey = .ok kid →
      a.signWithApskKey signed a.signingAlgo a.privateSigningKey = .ok s →
      rt.verifyApskSignature a.publicSigningKeyUri apsk signed s a.signingAlgo .sha256 (some kid) = .ok ())
    (hresponse : a.responseToChallenge challenge iv = .ok response) :
    rt.verifyWith challenge helper response =
      .ok ⟨a.sessionId, a.isSideA, atSign, a.publicSigningKeyUri⟩ := by
  obtain ⟨s, kid, ciphertext, hmade⟩ := made_of_response hag hread hresponse
  have hs : Printable s := hag.signWithApskKey _ _ _ _ hmade.signed
  have hkid : Printable kid := hag.publicKeyKidOfBase64 _ _ hmade.kid_eq
  have hciphertext : Printable ciphertext := (hag.aesEncryptString _ _ _ _ hmade.encrypted).1
  have hclaim := verifyClaim_made hag hread atSign (hverified kid _ s hmade.kid_eq hmade.signed)
  rw [Runtime.verifyWith, splitResponse_made hag hread hmade, ok_bind]
  dsimp only
  rw [hactive, Bool.not_true, if_neg Bool.false_ne_true, readOuter_made hag hciphertext iv, ok_bind]
  dsimp only
  rw [haes, ok_bind, decrypt_made hag hread hmade, ok_bind,
    readEnvelope_made hag hread hs hkid hescr howner, ok_bind]
  dsimp only [claimOf]
  rw [claimOf] at hclaim
  rw [hlookup, ok_bind, hclaim]
  rfl

/-- The authenticator of a side, with the key its enrollment signs with. -/
def relayAuthenticatorOf (sdk : EscrSdk) (signer : ApkamSigning) (sessionId relayAuthAesKey : String)
    (isSideA : Bool) : Except String RelayAuthenticatorESCR := do
  let signingKeyPair ← signer.escrSigningKeyPair sdk
  return { sdk with
    sessionId, relayAuthAesKey
    publicSigningKeyUri := signer.publicSigningKeyUri
    publicSigningKey := signingKeyPair.publicKey
    privateSigningKey := signingKeyPair.privateKey
    signingAlgo := signingKeyPair.algorithm
    isSideA }

/-- What the relay knows of the session, and what it looks up: the enrollment's record. -/
structure Trusts (rt : Runtime) (helper : RelayAuthVerifyHelper) (sdk : EscrSdk) (signer : ApkamSigning)
    (sessionId relayAuthAesKey atSign : String) : Prop where
  active : helper.isSessionActive sessionId = true
  aesKey : helper.getRelayAuthAesKey sessionId = .ok relayAuthAesKey
  owner : rt.ownerOf signer.publicSigningKeyUri = .ok atSign
  record : ∃ apsk, helper.lookup sessionId signer.publicSigningKeyUri = .ok apsk ∧
    Advertises rt.toSdk sdk signer.publicSigningKeyUri apsk signer.signingKeys
  paired : ∀ key ∈ signer.signingKeys, Paired rt.toSdk sdk key

/-- The relay verifies the response a side makes to its challenge, with the record of the side's enrollment, and
has the side's session, enrollment and atSign from it. -/
theorem relay_verifies_response {sdk : EscrSdk} {signer : ApkamSigning} {helper : RelayAuthVerifyHelper}
    {sessionId relayAuthAesKey atSign : String} {isSideA : Bool} (hag : sdk.Agrees rt)
    (ha : relayAuthenticatorOf sdk signer sessionId relayAuthAesKey isSideA = .ok a)
    (hread : Readable a challenge) (htrusts : Trusts rt helper sdk signer sessionId relayAuthAesKey atSign)
    (hresponse : a.responseToChallenge challenge iv = .ok response) :
    rt.verifyWith challenge helper response =
      .ok ⟨sessionId, isSideA, atSign, signer.publicSigningKeyUri⟩ := by
  obtain ⟨key, hpair, ha⟩ := bind_eq_ok.mp ha
  have hfind := find_of_escrSigningKeyPair hpair
  have hescr : escrSigningAlgorithms.contains key.algorithm = true := by
    apply List.find?_some (p := fun k : SigningKey => escrSigningAlgorithms.contains k.algorithm)
    exact hfind
  obtain ⟨apsk, hlookup, hrecord⟩ := htrusts.record
  have hpaired : Paired rt.toSdk sdk key := htrusts.paired key (List.mem_of_find?_eq_some hfind)
  obtain rfl := Except.ok.inj ha
  apply verifyWith_responseToChallenge hread hag hescr htrusts.owner htrusts.active htrusts.aesKey hlookup
  · intro kid signed s hkid hsigned
    exact verifyApskSignature_advertised hrecord hfind hpaired hkid hsigned
  · exact hresponse

end response

/-! ### The response with a key of RSA-2048, under an AES key and an IV of zeros -/

def escrPayload : String := "\x7b\"sid\":\"s\",\"c\":\"c\",\"side\":\"a\"\x7d"

def escrSignature : String := fromCharCodes (Base64.encode CSrv.sampleSig)

def escrSign (data privateKey : String) : Except String String :=
  if privateKey = "rsa" ∧ (data = escrPayload ∨ data = "") then .ok escrSignature else .error "no key"

/-- `cnNh` is the public half. -/
def escrVerify (signed : String) (signature publicKey : List UInt8) : Bool :=
  publicKey == [114, 115, 97] && (signed == escrPayload || signed == "") && signature == CSrv.sampleSig

def escrEncrypt (plaintext : String) : Except String String :=
  if plaintext.toList.all (fun c => c.toNat < 256) then
    .ok (fromCharCodes (Base64.encode (CSrv.sampleAes.crypt 0 (Pkcs7.pad 16 (bytesOf plaintext.toList)))))
  else .error "not bytes"

def escrDecrypt (ciphertext : String) : Except String String :=
  match (Base64.decode (bytesOf ciphertext.toList)).bind fun data =>
    Pkcs7.unpad 16 (CSrv.sampleAes.crypt 0 data) with
  | none => .error "Invalid or corrupted pad block"
  | some text => .ok (fromCharCodes text)

theorem escrSign_ok {data privateKey signature : String} (h : escrSign data privateKey = .ok signature) :
    signature = escrSignature ∧ escrVerify data CSrv.sampleSig [114, 115, 97] = true ∧ Printable signature := by
  unfold escrSign at h
  split at h
  · rename_i hkey
    obtain ⟨-, hdata⟩ := hkey
    rw [← Except.ok.inj h]
    refine ⟨rfl, ?_, printable_encode CSrv.sampleSig⟩
    rw [escrVerify, Bool.and_eq_true, Bool.and_eq_true, Bool.or_eq_true, beq_iff_eq, beq_iff_eq, beq_iff_eq,
      beq_iff_eq]
    exact ⟨⟨rfl, hdata⟩, rfl⟩
  · cases h

theorem escrSign_of {data : String} (h : data = escrPayload ∨ data = "") : escrSign data "rsa" = .ok escrSignature :=
  if_pos ⟨rfl, h⟩

theorem escrEncrypt_ok {plaintext ciphertext : String} (h : escrEncrypt plaintext = .ok ciphertext) :
    Printable ciphertext ∧ escrDecrypt ciphertext = .ok plaintext := by
  unfold escrEncrypt at h
  split at h
  · rename_i hall
    rw [← Except.ok.inj h]
    refine ⟨printable_encode _, ?_⟩
    have hbytes : ∀ c ∈ plaintext.toList, c.toNat < 256 := by
      intro c hc
      exact of_decide_eq_true (List.all_eq_true.mp hall c hc)
    rw [escrDecrypt, bytesOf, CSrv.codes_fromCharCodes, Base64.decode_encode, Option.bind_some]
    -- the padding is undone once the keystream is
    rw [Keystream.crypt_crypt, Pkcs7.unpad_pad (by decide) (by decide)]
    dsimp only
    rw [fromCharCodes_bytesOf hbytes, String.ofList_toList]
  · cases h

def escrSdk : EscrSdk where
  jsonEncode := Json.compactEncode
  base64Encode text := .ok (fromCharCodes (Base64.encode (bytesOf text.toList)))
  base64EncodeBytes bytes := fromCharCodes (Base64.encode bytes)
  mlDsaSign _ _ := .error "no key"
  rsaSignString := escrSign
  publicKeyKidOfBase64 _ := .ok "k1"
  aesEncryptString plaintext _ _ := escrEncrypt plaintext

def escrSigner : ApkamSigning where
  enrollmentId := "1"
  publicSigningKeyUri := "public:_apsk.1.a.__e@alice"
  heldSigningKeys := [⟨.rsa2048, "cnNh", "rsa"⟩]
  authenticationSigningKey := some ⟨.rsa2048, "cnNh", "rsa"⟩
  signingKeys := [⟨.rsa2048, "cnNh", "rsa"⟩]
  publishPublicSigningKey := .ok ()

def escrRuntime : Runtime :=
  { CSrv.sampleRuntime with
    jsonEncode := Json.compactEncode
    publicKeyKidOfBase64 := fun _ => .ok "k1"
    verifyBytes := fun _ signed signature publicKey => .ok (escrVerify signed signature publicKey)
    aesDecryptString := fun ciphertext _ _ => escrDecrypt ciphertext }

def escrHelper : RelayAuthVerifyHelper where
  isSessionActive sessionId := sessionId == "s"
  getRelayAuthAesKey _ := .ok (fromCharCodes CSrv.sampleAesKey64)
  lookup _ _ := .ok "cnNh"

theorem escrSdk_agrees : escrSdk.Agrees escrRuntime := by
  refine ⟨RelayMessages.compact_compactEncode, rfl, ?jsonDecode, ?base64Encode, fun _ => rfl, ?base64Decode, ?aes,
    ?sign, ?kid, fun _ _ => rfl⟩
  case jsonDecode =>
    intro text value hread
    exact CSrv.sample_agrees.jsonDecode text value hread
  case base64Encode =>
    intro bytes
    exact congrArg (fun bytes => Except.ok (fromCharCodes (Base64.encode bytes))) (CSrv.codes_fromCharCodes bytes)
  case base64Decode => exact CSrv.sample_agrees.base64Decode
  case aes => exact fun _ _ _ _ hencrypt => escrEncrypt_ok hencrypt
  case sign =>
    intro text algorithm key signature hsign
    cases algorithm with
    | rsa2048 => exact (escrSign_ok hsign).2.2
    | _ => cases hsign
  case kid =>
    intro key kid hkid
    obtain rfl := Except.ok.inj hkid
    exact printable_literal (by decide)

theorem escrSdk_paired (key : SigningKey) (hkey : key ∈ escrSigner.signingKeys) :
    Paired escrRuntime.toSdk escrSdk key := by
  obtain rfl := List.mem_singleton.mp hkey
  intro signed signature hsign
  obtain ⟨hsame, hverified, -⟩ := escrSign_ok hsign
  rw [hsame]
  have hdecode : ∀ bytes, escrRuntime.base64Decode (fromCharCodes (Base64.encode bytes)) = some bytes :=
    CSrv.sample_agrees.base64Decode
  have hsignature := hdecode CSrv.sampleSig
  rw [← escrSignature] at hsignature
  have hkey : escrRuntime.base64Decode "cnNh" = some [114, 115, 97] := by decide +kernel
  have htakes : ¬(!escrRuntime.rsa2048Hashing .sha256) = true := Bool.false_ne_true
  change escrRuntime.rsaVerifyString signed escrSignature "cnNh" .sha256 = .ok true
  rw [Sdk.rsaVerifyString, if_neg htakes, hsignature, hkey]
  exact congrArg Except.ok hverified

theorem escrTrusts : Trusts escrRuntime escrHelper escrSdk escrSigner "s" (fromCharCodes CSrv.sampleAesKey64)
    "@alice" where
  active := rfl
  aesKey := rfl
  owner := by decide +kernel
  record := by
    refine ⟨"cnNh", rfl, ⟨[⟨"k1", .rsa2048, "cnNh", true⟩], rfl, ?_⟩, List.pairwise_singleton _ _⟩
    exact .cons ⟨rfl, rfl, rfl, rfl⟩ .nil
  paired := escrSdk_paired

def escrAuthenticator : RelayAuthenticatorESCR :=
  { escrSdk with
    sessionId := "s"
    relayAuthAesKey := fromCharCodes CSrv.sampleAesKey64
    publicSigningKeyUri := "public:_apsk.1.a.__e@alice"
    publicSigningKey := "cnNh"
    privateSigningKey := "rsa"
    signingAlgo := .rsa2048
    isSideA := true }

theorem escrAuthenticator_of :
    relayAuthenticatorOf escrSdk escrSigner "s" (fromCharCodes CSrv.sampleAesKey64) true = .ok escrAuthenticator := by
  have hsign : escrSdk.rsaSignString "" "rsa" = .ok escrSignature := escrSign_of (Or.inr rfl)
  have hkey : escrSigner.signingKeys.find? (fun k => escrSigningAlgorithms.contains k.algorithm) =
    some ⟨.rsa2048, "cnNh", "rsa"⟩ := rfl
  have hpair : escrSigner.escrSigningKeyPair escrSdk = .ok ⟨.rsa2048, "cnNh", "rsa"⟩ := by
    rw [ApkamSigning.escrSigningKeyPair, if_neg (by decide), hkey]
    dsimp only
    rw [if_pos rfl, hsign]
    rfl
  rw [relayAuthenticatorOf, hpair]
  rfl

theorem escr_responds : ∃ response,
    escrAuthenticator.responseToChallenge "c" (List.replicate 16 0) = .ok response := by
  have hpayload : escrAuthenticator.jsonEncode (.obj (jsonOf (payloadFields escrAuthenticator "c"))) = escrPayload := by
    decide +kernel
  have hs : escrAuthenticator.signWithApskKey (escrAuthenticator.jsonEncode (.obj (jsonOf (payloadFields
      escrAuthenticator "c")))) .rsa2048 "rsa" = .ok escrSignature := by
    rw [hpayload]
    exact escrSign_of (Or.inl rfl)
  have hencrypt : ∀ bytes, ∃ ciphertext, escrEncrypt (fromCharCodes (Base64.encode bytes)) = .ok ciphertext := by
    intro bytes
    refine ⟨_, if_pos ?_⟩
    apply List.all_eq_true.mpr
    intro c hc
    have hascii := (printable_encode bytes c hc).2
    exact decide_eq_true (by omega)
  obtain ⟨ciphertext, hciphertext⟩ := hencrypt (bytesOf (escrAuthenticator.jsonEncode
    (.obj (envelopeJson escrAuthenticator "c" escrSignature "k1"))).toList)
  have hbase64 : ∀ text, escrAuthenticator.base64Encode text =
      .ok (fromCharCodes (Base64.encode (bytesOf text.toList))) := fun _ => rfl
  have henvelope := hbase64 (escrAuthenticator.jsonEncode
    (.obj (envelopeJson escrAuthenticator "c" escrSignature "k1")))
  have haes : ∀ text key iv, escrAuthenticator.aesEncryptString text key iv = escrEncrypt text := fun _ _ _ => rfl
  have hkid : escrAuthenticator.publicKeyKidOfBase64 escrAuthenticator.publicSigningKey = .ok "k1" := rfl
  exact ⟨_, responseToChallenge_of_steps hs hkid henvelope ((haes _ _ _).trans hciphertext) (hbase64 _)⟩

theorem relay_verifies_response_sample : ∃ response,
    escrAuthenticator.responseToChallenge "c" (List.replicate 16 0) = .ok response ∧
    escrRuntime.verifyWith "c" escrHelper response = .ok ⟨"s", true, "@alice", "public:_apsk.1.a.__e@alice"⟩ := by
  have hread : Readable escrAuthenticator "c" :=
    ⟨printable_literal (by decide), by decide, printable_literal (by decide), printable_literal (by decide)⟩
  obtain ⟨response, hresponse⟩ := escr_responds
  exact ⟨response, hresponse,
    relay_verifies_response escrSdk_agrees escrAuthenticator_of hread escrTrusts hresponse⟩

end NoPorts.RelayAuthenticator
