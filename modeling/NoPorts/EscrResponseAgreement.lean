import NoPorts.EscrResponse
import NoPorts.RelayAuthEscr
import NoPorts.Lib.JsonText
import NoPorts.Lib.Pkcs7

/-! A response the C daemon's srv has built is what the relay's verifier reads. -/
namespace NoPorts.CSrv
open Lib Signing
open Srvd (Runtime RelayAuthVerifyHelper fromCharCodes)

/-- The libraries of the srv and of the relay: base64, AES-256 in counter mode with PKCS#7
padding, and the JSON of objects and strings. -/
structure EscrHost.Agrees (host : EscrHost) (rt : Runtime)
    (aes : List UInt8 → List UInt8 → Keystream UInt8) : Prop where
  base64_encode : ∀ dstsize src text, host.base64_encode dstsize src = some text →
    text = Base64.encode src ∧ text.length ≤ dstsize
  base64Decode : ∀ bytes, rt.base64Decode (fromCharCodes (Base64.encode bytes)) = some bytes
  aes_ctr : ∀ key iv : List UInt8, key.length = 32 → iv.length = 16 →
    host.mbedtls_aes_crypt_ctr.Follows ⟨key, iv, 0, List.replicate 16 0⟩ (aes key iv)
  aesDecryptString : ∀ ciphertext key64 iv data key text : List UInt8,
    rt.base64Decode (fromCharCodes ciphertext) = some data →
    host.base64_decode 32 key64 = some key → key.length = 32 → iv.length = 16 →
    Pkcs7.unpad 16 ((aes key iv).crypt 0 data) = some text → (∀ b ∈ text, b < 128) →
    rt.aesDecryptString (fromCharCodes ciphertext) (fromCharCodes key64) iv = .ok (fromCharCodes text)
  jsonDecode : ∀ text value, Json.read text = some value → rt.jsonDecode text = .ok value
  jsonEncode : ∀ fields : List (String × String),
    (∀ f ∈ fields, ∀ c ∈ f.1.toList ++ f.2.toList, Json.plain c = true) →
    rt.jsonEncode (.obj (fields.map fun f => (f.1, .str f.2))) =
      String.ofList (Json.objectText (fields.map fun f => (f.1, Json.quote f.2)))
  toLowerCase : ∀ s : String, (∀ c ∈ s.toList, c.toNat < 128) → rt.toLowerCase s = lowerAscii s

/-! ### Bytes as the characters they stand for -/

def chars (bytes : List UInt8) : List Char := bytes.map fun b => Char.ofNat b.toNat

theorem fromCharCodes_eq (bytes : List UInt8) : fromCharCodes bytes = String.ofList (chars bytes) := rfl

theorem toList_fromCharCodes (bytes : List UInt8) : (fromCharCodes bytes).toList = chars bytes :=
  String.toList_ofList

theorem chars_append (a b : List UInt8) : chars (a ++ b) = chars a ++ chars b := List.map_append

theorem charOf_ne {b : UInt8} {c : Char} (h : b.toNat ≠ c.toNat) : Char.ofNat b.toNat ≠ c := by
  intro heq
  exact h (by rw [← heq, toNat_ofNat_byte])

/-- A literal of ASCII characters. -/
theorem chars_literal {s : String} (h : s.toList.all (fun c => c.toNat < 256) = true) :
    chars (literal s) = s.toList := by
  rw [chars, literal, List.map_map]
  calc s.toList.map ((fun b : UInt8 => Char.ofNat b.toNat) ∘ fun c => UInt8.ofNat c.toNat)
      = s.toList.map id := by
        apply List.map_congr_left
        intro c hc
        have hbyte : c.toNat < 256 := by simpa using List.all_eq_true.mp h c hc
        rw [Function.comp_apply, UInt8.toNat_ofNat', Nat.mod_eq_of_lt hbyte, Char.ofNat_toNat, id]
    _ = s.toList := List.map_id _

theorem plain_of_json_safe {s : List UInt8} (h : json_safe s = true) :
    ∀ c ∈ chars s, Json.plain c = true := by
  intro c hc
  obtain ⟨b, hb, rfl⟩ := List.mem_map.mp hc
  have hsafe := List.all_eq_true.mp h b hb
  simp only [Bool.not_eq_true', Bool.or_eq_false_iff, decide_eq_false_iff_not, beq_eq_false_iff_ne,
    UInt8.lt_iff_toNat_lt, ne_eq, ← UInt8.toNat_inj, not_lt] at hsafe
  obtain ⟨⟨⟨hlow, hhigh⟩, hquote⟩, hslash⟩ := hsafe
  rw [Json.plain, toNat_ofNat_byte]
  have hq : Char.ofNat b.toNat ≠ '"' := charOf_ne hquote
  have hs : Char.ofNat b.toNat ≠ '\\' := charOf_ne hslash
  simp [hq, hs]
  exact hlow

theorem json_safe_encode (bytes : List UInt8) : json_safe (Base64.encode bytes) = true := by
  apply List.all_eq_true.mpr
  intro c hc
  have hcases := Base64.isChar_cases (Base64.isChar_of_mem_encode hc)
  simp only [Bool.not_eq_true', Bool.or_eq_false_iff, decide_eq_false_iff_not, beq_eq_false_iff_ne,
    UInt8.lt_iff_toNat_lt, ne_eq, ← UInt8.toNat_inj, not_lt]
  simp
  omega

/-! ### The texts as JSON -/

def payloadFields (session_id challenge : List UInt8) (is_side_a : Bool) : List (String × String) :=
  [("sid", fromCharCodes session_id), ("c", fromCharCodes challenge),
    ("side", if is_side_a then "a" else "b")]

def payload (session_id challenge : List UInt8) (is_side_a : Bool) : List (String × Json) :=
  (payloadFields session_id challenge is_side_a).map fun f => (f.1, .str f.2)

def envelope (payload : List (String × Json)) (sig signing_key_uri : List UInt8) :
    List (String × Json) :=
  [("p", .obj payload), ("s", .str (fromCharCodes (Base64.encode sig))), ("ha", .str "sha256"),
    ("sa", .str "rsa2048"), ("sk", .str (fromCharCodes signing_key_uri))]

theorem chars_payloadText (session_id challenge : List UInt8) (is_side_a : Bool) :
    chars (payloadText session_id challenge is_side_a) = Json.objectText
      ((payloadFields session_id challenge is_side_a).map fun f => (f.1, Json.quote f.2)) := by
  cases is_side_a <;>
  · simp only [payloadText, chars_append, Bool.false_eq_true, if_true, if_false]
    rw [chars_literal rfl, chars_literal rfl, chars_literal rfl, chars_literal rfl, chars_literal rfl]
    simp [payloadFields, Json.objectText, Json.membersText, Json.quote, toList_fromCharCodes]

theorem chars_envelopeText (p_json sig_b64 signing_key_uri : List UInt8) :
    chars (envelopeText p_json sig_b64 signing_key_uri) = Json.objectText
      [("p", chars p_json), ("s", Json.quote (fromCharCodes sig_b64)),
        ("ha", Json.quote "sha256"), ("sa", Json.quote "rsa2048"),
        ("sk", Json.quote (fromCharCodes signing_key_uri))] := by
  simp only [envelopeText, chars_append]
  rw [chars_literal rfl, chars_literal rfl, chars_literal rfl, chars_literal rfl]
  simp [Json.objectText, Json.membersText, Json.quote, toList_fromCharCodes]

theorem chars_outerText (iv_b64 enc_b64 : List UInt8) :
    chars (outerText iv_b64 enc_b64) = Json.objectText
      [("iv", Json.quote (fromCharCodes iv_b64)), ("e", Json.quote (fromCharCodes enc_b64))] := by
  simp only [outerText, chars_append]
  rw [chars_literal rfl, chars_literal rfl, chars_literal rfl]
  simp [Json.objectText, Json.membersText, Json.quote, toList_fromCharCodes]

theorem plain_literal {s : String} (h : s.toList.all Json.plain = true) :
    ∀ c ∈ s.toList, Json.plain c = true := List.all_eq_true.mp h

theorem plain_payloadFields {session_id challenge : List UInt8} (is_side_a : Bool)
    (hsid : json_safe session_id = true) (hc : json_safe challenge = true) :
    ∀ f ∈ payloadFields session_id challenge is_side_a,
      ∀ c ∈ f.1.toList ++ f.2.toList, Json.plain c = true := by
  intro f hf c hmem
  have hside : ∀ d ∈ (if is_side_a then "a" else "b").toList, Json.plain d = true := by
    cases is_side_a
    · exact plain_literal rfl
    · exact plain_literal rfl
  simp only [payloadFields, List.mem_cons, List.not_mem_nil, or_false] at hf
  rcases hf with rfl | rfl | rfl <;> rcases List.mem_append.mp hmem with hkey | hvalue
  · exact plain_literal (by decide : "sid".toList.all Json.plain = true) c hkey
  · exact plain_of_json_safe hsid c (toList_fromCharCodes session_id ▸ hvalue)
  · exact plain_literal (by decide : "c".toList.all Json.plain = true) c hkey
  · exact plain_of_json_safe hc c (toList_fromCharCodes challenge ▸ hvalue)
  · exact plain_literal (by decide : "side".toList.all Json.plain = true) c hkey
  · exact hside c hvalue

theorem reads_text {bytes : List UInt8} (h : json_safe bytes = true) :
    Json.Reads 0 (Json.quote (fromCharCodes bytes)) (.str (fromCharCodes bytes)) := by
  apply Json.reads_quote
  rw [toList_fromCharCodes]
  exact plain_of_json_safe h

theorem reads_payload {session_id challenge : List UInt8} (is_side_a : Bool)
    (hsid : json_safe session_id = true) (hc : json_safe challenge = true) :
    Json.Reads 4 (chars (payloadText session_id challenge is_side_a))
      (.obj (payload session_id challenge is_side_a)) := by
  have hplain := plain_payloadFields is_side_a hsid hc
  have h := Json.reads_objectText ((payloadFields session_id challenge is_side_a).map fun f =>
      (f.1, Json.str f.2, Json.quote f.2)) 0 (List.cons_ne_nil _ _) ?_ ?_ ?_
  · rw [List.map_map, List.map_map] at h
    rw [chars_payloadText]
    exact h
  · intro m hm c hmem
    obtain ⟨f, hf, rfl⟩ := List.mem_map.mp hm
    exact hplain f hf c (List.mem_append_left _ hmem)
  · exact (by decide : ["sid", "c", "side"].Nodup)
  · intro m hm
    obtain ⟨f, hf, rfl⟩ := List.mem_map.mp hm
    exact Json.reads_quote fun c hmem => hplain f hf c (List.mem_append_right _ hmem)

theorem reads_envelope {session_id challenge signing_key_uri : List UInt8} (is_side_a : Bool)
    (sig : List UInt8) (hsid : json_safe session_id = true) (hc : json_safe challenge = true)
    (huri : json_safe signing_key_uri = true) :
    Json.Reads 10 (chars (envelopeText (payloadText session_id challenge is_side_a)
        (Base64.encode sig) signing_key_uri))
      (.obj (envelope (payload session_id challenge is_side_a) sig signing_key_uri)) := by
  rw [chars_envelopeText]
  apply Json.reads_objectText
    [("p", .obj (payload session_id challenge is_side_a),
        chars (payloadText session_id challenge is_side_a)),
      ("s", .str (fromCharCodes (Base64.encode sig)), Json.quote (fromCharCodes (Base64.encode sig))),
      ("ha", .str "sha256", Json.quote "sha256"), ("sa", .str "rsa2048", Json.quote "rsa2048"),
      ("sk", .str (fromCharCodes signing_key_uri), Json.quote (fromCharCodes signing_key_uri))] 4
    (List.cons_ne_nil _ _)
  · simp only [List.forall_mem_cons]
    exact ⟨plain_literal rfl, plain_literal rfl, plain_literal rfl, plain_literal rfl,
      plain_literal rfl, fun _ hm => absurd hm List.not_mem_nil⟩
  · exact (by decide : ["p", "s", "ha", "sa", "sk"].Nodup)
  · simp only [List.forall_mem_cons]
    refine ⟨reads_payload is_side_a hsid hc, ?_, ?_, ?_, ?_, fun _ hm => absurd hm List.not_mem_nil⟩
    · exact (reads_text (json_safe_encode sig)).mono (Nat.zero_le 4)
    · exact (Json.reads_quote (plain_literal rfl)).mono (Nat.zero_le 4)
    · exact (Json.reads_quote (plain_literal rfl)).mono (Nat.zero_le 4)
    · exact (reads_text huri).mono (Nat.zero_le 4)

theorem reads_outer (iv enc : List UInt8) :
    Json.Reads 3 (chars (outerText (Base64.encode iv) (Base64.encode enc)))
      (.obj [("iv", .str (fromCharCodes (Base64.encode iv))),
        ("e", .str (fromCharCodes (Base64.encode enc)))]) := by
  rw [chars_outerText]
  apply Json.reads_objectText
    [("iv", .str (fromCharCodes (Base64.encode iv)),
        Json.quote (fromCharCodes (Base64.encode iv))),
      ("e", .str (fromCharCodes (Base64.encode enc)),
        Json.quote (fromCharCodes (Base64.encode enc)))] 0 (List.cons_ne_nil _ _)
  · simp only [List.forall_mem_cons]
    exact ⟨plain_literal rfl, plain_literal rfl, fun _ hm => absurd hm List.not_mem_nil⟩
  · exact (by decide : ["iv", "e"].Nodup)
  · simp only [List.forall_mem_cons]
    exact ⟨reads_text (json_safe_encode iv), reads_text (json_safe_encode enc),
      fun _ hm => absurd hm List.not_mem_nil⟩

/-! ### What the building of a response has done -/

theorem orElse_ok {α : Type} {refusal : EscrRefusal} {o : Option α} {a : α} :
    orElse refusal o = .ok a ↔ o = some a := by
  cases o with
  | none => exact ⟨fun h => absurd h (by simp [orElse, throw, throwThe, MonadExceptOf.throw]), by simp⟩
  | some b => exact ⟨fun h => congrArg some (Except.ok.inj h), fun h => congrArg Except.ok (Option.some.inj h)⟩

/-- What is printed is whole, and fits. -/
theorem printed_ok {text buffer : List UInt8} (h : printed text = .ok buffer) :
    buffer = text ∧ text.length < ESCR_MAX_LINE := by
  simp only [printed, snprintf] at h
  obtain ⟨hn, hbuffer⟩ := throwIf_ok.mp h
  have hfits : text.length < ESCR_MAX_LINE := by
    split at hn <;> omega
  refine ⟨?_, hfits⟩
  rw [← Except.ok.inj hbuffer]
  exact List.take_of_length_le (by simp only [ESCR_MAX_LINE] at hfits ⊢; omega)

/-- The encrypted envelope. -/
def encrypted (host : EscrHost) (aes_key : List UInt8) (iv : Vector UInt8 16) (env_json : List UInt8) :
    List UInt8 :=
  (host.mbedtls_aes_crypt_ctr ⟨aes_key, iv.toList, 0, List.replicate 16 0⟩
    (padded (Base64.encode env_json))).1

/-- `line` is a response with every text in it whole, and each of them fits its buffer. -/
structure Response (host : EscrHost) (session_id challenge aes_key_base64 signing_key_uri : List UInt8)
    (signing_key : RsaPrivateKey) (is_side_a : Bool) (iv : Vector UInt8 16)
    (sig aes_key env_json outer_json line : List UInt8) : Prop where
  session_id_safe : json_safe session_id = true
  challenge_safe : json_safe challenge = true
  signing_key_uri_safe : json_safe signing_key_uri = true
  signed : host.rsa_sign signing_key (payloadText session_id challenge is_side_a) = some sig
  key : host.base64_decode 32 aes_key_base64 = some aes_key
  key_length : aes_key.length = 32
  env_json_eq : env_json =
    envelopeText (payloadText session_id challenge is_side_a) (Base64.encode sig) signing_key_uri
  outer_json_eq : outer_json =
    outerText (Base64.encode iv.toList) (Base64.encode (encrypted host aes_key iv env_json))
  line_eq : line = session_id ++ colon :: Base64.encode outer_json
  fits : ∀ text ∈ [payloadText session_id challenge is_side_a, env_json, Base64.encode env_json,
    Base64.encode (encrypted host aes_key iv env_json), outer_json, Base64.encode outer_json, line],
    text.length < ESCR_MAX_LINE

section agreement
variable {host : EscrHost} {rt : Runtime} {aes : List UInt8 → List UInt8 → Keystream UInt8}
variable {session_id challenge aes_key_base64 signing_key_uri line : List UInt8}
variable {signing_key : RsaPrivateKey} {is_side_a : Bool} {iv : Vector UInt8 16}

theorem base64_encode_str_ok (h : host.Agrees rt aes) {dstsize : ℕ} {src text : List UInt8}
    (htext : base64_encode_str host dstsize src = some text) :
    text = Base64.encode src ∧ text.length < dstsize := by
  by_cases hsize : dstsize = 0
  · rw [base64_encode_str, if_pos hsize] at htext
    exact absurd htext (by simp)
  · rw [base64_encode_str, if_neg hsize] at htext
    obtain ⟨hencode, hlength⟩ := h.base64_encode _ _ _ htext
    exact ⟨hencode, by omega⟩

theorem response_of_build (h : host.Agrees rt aes)
    (hbuild : srv_escr_build_response host session_id challenge aes_key_base64 signing_key_uri
      signing_key is_side_a iv = .ok line) :
    ∃ sig aes_key env_json outer_json, Response host session_id challenge aes_key_base64
      signing_key_uri signing_key is_side_a iv sig aes_key env_json outer_json line := by
  obtain ⟨hsafe, hbuild⟩ := throwIf_ok.mp hbuild
  simp only [Bool.or_eq_true, Bool.not_eq_true', not_or, Bool.not_eq_false] at hsafe
  obtain ⟨⟨hsid, hc⟩, huri⟩ := hsafe
  obtain ⟨p_json, hp, hbuild⟩ := bind_eq_ok.mp hbuild
  obtain ⟨rfl, hpfits⟩ := printed_ok hp
  obtain ⟨-, hbuild⟩ := throwIf_ok.mp hbuild
  obtain ⟨sig, hsig, hbuild⟩ := bind_eq_ok.mp hbuild
  obtain ⟨sig_b64, hsig64, hbuild⟩ := bind_eq_ok.mp hbuild
  obtain ⟨rfl, -⟩ := base64_encode_str_ok h (orElse_ok.mp hsig64)
  obtain ⟨env_json, henv, hbuild⟩ := bind_eq_ok.mp hbuild
  obtain ⟨rfl, henvfits⟩ := printed_ok henv
  obtain ⟨env64, henv64, hbuild⟩ := bind_eq_ok.mp hbuild
  obtain ⟨rfl, henv64fits⟩ := base64_encode_str_ok h (orElse_ok.mp henv64)
  obtain ⟨aes_key, hkey, hbuild⟩ := bind_eq_ok.mp hbuild
  obtain ⟨hlength, hbuild⟩ := throwIf_ok.mp hbuild
  obtain ⟨-, hbuild⟩ := throwIf_ok.mp hbuild
  obtain ⟨iv_b64, hiv, hbuild⟩ := bind_eq_ok.mp hbuild
  obtain ⟨rfl, -⟩ := base64_encode_str_ok h (orElse_ok.mp hiv)
  obtain ⟨enc_b64, henc, hbuild⟩ := bind_eq_ok.mp hbuild
  obtain ⟨rfl, hencfits⟩ := base64_encode_str_ok h (orElse_ok.mp henc)
  obtain ⟨outer_json, houter, hbuild⟩ := bind_eq_ok.mp hbuild
  obtain ⟨rfl, houterfits⟩ := printed_ok houter
  obtain ⟨auth_payload64, hauth, hbuild⟩ := bind_eq_ok.mp hbuild
  obtain ⟨rfl, hauthfits⟩ := base64_encode_str_ok h (orElse_ok.mp hauth)
  obtain ⟨hlinefits, hline⟩ := throwIf_ok.mp hbuild
  have hline := (Except.ok.inj hline).symm
  refine ⟨sig, aes_key, _, _, hsid, hc, huri, orElse_ok.mp hsig, orElse_ok.mp hkey,
    not_not.mp hlength, rfl, rfl, hline, ?_⟩
  simp only [List.forall_mem_cons]
  refine ⟨hpfits, henvfits, henv64fits, hencfits, houterfits, hauthfits, ?_,
    fun _ hm => absurd hm List.not_mem_nil⟩
  rw [hline]
  simp only [ESCR_MAX_LINE] at hlinefits ⊢
  omega

/-! ### What the verifier reads -/

theorem colon_notMem_chars {bytes : List UInt8} (h : colon ∉ bytes) : ':' ∉ chars bytes := by
  intro hmem
  obtain ⟨b, hb, heq⟩ := List.mem_map.mp hmem
  have hbyte : b.toNat = colon.toNat := by
    rw [← toNat_ofNat_byte, heq]
    rfl
  exact h (UInt8.toNat_inj.mp hbyte ▸ hb)

theorem colon_notMem_encode (bytes : List UInt8) : colon ∉ Base64.encode bytes := by
  intro hmem
  have hcases := Base64.isChar_cases (Base64.isChar_of_mem_encode hmem)
  simp [colon] at hcases

theorem split_response (h : host.Agrees rt aes) {outer_json : List UInt8} (hcolon : colon ∉ session_id)
    (hline : line = session_id ++ colon :: Base64.encode outer_json) :
    rt.splitResponse (fromCharCodes line) =
      .ok (fromCharCodes session_id, fromCharCodes outer_json) := by
  have hparts : (chars line).splitOn ':' = [chars session_id, chars (Base64.encode outer_json)] := by
    have hjoin : chars line = [':'].intercalate [chars session_id, chars (Base64.encode outer_json)] := by
      rw [hline, chars_append]
      simp only [List.intercalate, List.intersperse, List.flatten_cons, List.flatten_nil,
        List.append_nil, List.singleton_append]
      rfl
    rw [hjoin]
    apply List.splitOn_intercalate
    · intro piece hpiece
      rcases List.mem_pair.mp hpiece with rfl | rfl
      · exact colon_notMem_chars hcolon
      · exact colon_notMem_chars (colon_notMem_encode outer_json)
    · exact List.cons_ne_nil _ _
  simp only [Runtime.splitResponse, toList_fromCharCodes, hparts, List.map_cons, List.map_nil,
    ← fromCharCodes_eq, h.base64Decode]
  rfl

theorem read_outer (h : host.Agrees rt aes) (iv enc : List UInt8) :
    rt.readOuter (fromCharCodes (outerText (Base64.encode iv) (Base64.encode enc))) =
      .ok (fromCharCodes (Base64.encode iv), fromCharCodes (Base64.encode enc)) := by
  have hlength : 3 ≤ (chars (outerText (Base64.encode iv) (Base64.encode enc))).length := by
    rw [chars_outerText, Json.objectText, Json.membersText, Json.quote]
    · simp only [List.length_cons, List.length_append]
      omega
    · exact List.cons_ne_nil _ _
  have hdecode := h.jsonDecode _ _ (Json.read_of_reads (reads_outer iv enc) hlength)
  rw [Runtime.readOuter, fromCharCodes_eq, hdecode]
  rfl

theorem decode_envelope (h : host.Agrees rt aes) (sig : List UInt8)
    (hsid : json_safe session_id = true) (hc : json_safe challenge = true)
    (huri : json_safe signing_key_uri = true) :
    rt.jsonDecode (fromCharCodes (envelopeText (payloadText session_id challenge is_side_a)
      (Base64.encode sig) signing_key_uri)) =
      .ok (.obj (envelope (payload session_id challenge is_side_a) sig signing_key_uri)) := by
  have hlength : 10 ≤ (chars (envelopeText (payloadText session_id challenge is_side_a)
      (Base64.encode sig) signing_key_uri)).length := by
    have hliteral : (literal "\",\"ha\":\"sha256\",\"sa\":\"rsa2048\",\"sk\":\"").length = 37 := rfl
    simp only [chars, List.length_map, envelopeText, List.length_append, hliteral]
    omega
  exact h.jsonDecode _ _ (Json.read_of_reads (reads_envelope is_side_a sig hsid hc huri) hlength)

theorem encode_payload (h : host.Agrees rt aes) (is_side_a : Bool) (hsid : json_safe session_id = true)
    (hc : json_safe challenge = true) :
    rt.jsonEncode (.obj (payload session_id challenge is_side_a)) =
      fromCharCodes (payloadText session_id challenge is_side_a) := by
  rw [payload, h.jsonEncode _ (plain_payloadFields is_side_a hsid hc), ← chars_payloadText,
    fromCharCodes_eq]

/-- The keystream is undone, then the padding. -/
theorem decrypt_encrypted (h : host.Agrees rt aes) (iv : Vector UInt8 16) {aes_key : List UInt8}
    (env_json : List UInt8) (hkey : host.base64_decode 32 aes_key_base64 = some aes_key) (hlength : aes_key.length = 32) :
    rt.decrypt (fromCharCodes (Base64.encode iv.toList))
      (fromCharCodes (Base64.encode (encrypted host aes_key iv env_json)))
      (fromCharCodes aes_key_base64) = .ok (fromCharCodes env_json) := by
  have hcrypt : encrypted host aes_key iv env_json =
      (aes aes_key iv.toList).crypt 0 (padded (Base64.encode env_json)) := by
    have hone := h.aes_ctr aes_key iv.toList hlength (Vector.length_toList) [padded (Base64.encode env_json)]
    simp only [Transducer.outputs, List.flatten_cons, List.flatten_nil, List.append_nil] at hone
    exact hone
  have hunpad : Pkcs7.unpad 16 ((aes aes_key iv.toList).crypt 0 (encrypted host aes_key iv env_json)) =
      some (Base64.encode env_json) := by
    rw [hcrypt, Keystream.crypt_crypt]
    exact Pkcs7.unpad_pad (by decide) (by decide) _
  have hascii : ∀ b ∈ Base64.encode env_json, b < 128 := by
    intro b hb
    have hcases := Base64.isChar_cases (Base64.isChar_of_mem_encode hb)
    rw [UInt8.lt_iff_toNat_lt]
    change b.toNat < 128
    omega
  have hplain := h.aesDecryptString _ _ iv.toList _ _ _ (h.base64Decode _) hkey hlength
    Vector.length_toList hunpad hascii
  simp only [Runtime.decrypt, h.base64Decode, hplain]
  rfl

theorem sideOf_payload (h : host.Agrees rt aes) :
    rt.sideOf (payload session_id challenge is_side_a) = some is_side_a := by
  have hascii {s : String} (hs : s.toList.all (fun c => c.toNat < 128) = true) :
      ∀ c ∈ s.toList, c.toNat < 128 := by
    intro c hc
    exact of_decide_eq_true (List.all_eq_true.mp hs c hc)
  have hlower (s : String) (hs : s = "a" ∨ s = "b") : rt.toLowerCase s = s := by
    rcases hs with rfl | rfl
    · rw [h.toLowerCase _ (hascii rfl)]
      rfl
    · rw [h.toLowerCase _ (hascii rfl)]
      rfl
  cases is_side_a
  · have htext : rt.sideText (payload session_id challenge false) = "b" := hlower "b" (Or.inr rfl)
    rw [Runtime.sideOf, htext]
    rfl
  · have htext : rt.sideText (payload session_id challenge true) = "a" := hlower "a" (Or.inl rfl)
    rw [Runtime.sideOf, htext]
    rfl

/-- How the envelope is judged, its key's owner apart. -/
theorem readEnvelope_built (h : host.Agrees rt aes) (is_side_a : Bool) (sig : List UInt8)
    (hsid : json_safe session_id = true) (hc : json_safe challenge = true)
    (huri : json_safe signing_key_uri = true) :
    rt.readEnvelope (fromCharCodes challenge) (fromCharCodes session_id)
      (fromCharCodes (envelopeText (payloadText session_id challenge is_side_a) (Base64.encode sig)
        signing_key_uri)) =
      (rt.ownerOf (fromCharCodes signing_key_uri)).bind fun atSign =>
        .ok ⟨envelope (payload session_id challenge is_side_a) sig signing_key_uri,
          payload session_id challenge is_side_a, is_side_a, fromCharCodes signing_key_uri, atSign,
          .sha256, .rsa2048⟩ := by
  have hp : Json.field (envelope (payload session_id challenge is_side_a) sig signing_key_uri) "p" =
      .obj (payload session_id challenge is_side_a) := rfl
  have hsidField : Json.field (payload session_id challenge is_side_a) "sid" =
      .str (fromCharCodes session_id) := rfl
  have hcField : Json.field (payload session_id challenge is_side_a) "c" =
      .str (fromCharCodes challenge) := rfl
  have hsk : Json.field (envelope (payload session_id challenge is_side_a) sig signing_key_uri) "sk" =
      .str (fromCharCodes signing_key_uri) := rfl
  have hha : Json.field (envelope (payload session_id challenge is_side_a) sig signing_key_uri) "ha" =
      .str "sha256" := rfl
  have hsa : Json.field (envelope (payload session_id challenge is_side_a) sig signing_key_uri) "sa" =
      .str "rsa2048" := rfl
  rw [Runtime.readEnvelope, decode_envelope h sig hsid hc huri]
  simp only [hp, sideOf_payload h, hsidField, hcField, hsk, hha, hsa, Json.str?, ne_eq,
    not_true_eq_false, if_false]
  cases rt.ownerOf (fromCharCodes signing_key_uri) with
  | error e => rfl
  | ok atSign => rfl

theorem verifyClaim_built (h : host.Agrees rt aes) (sig : List UInt8) (hsid : json_safe session_id = true)
    (hc : json_safe challenge = true) (atSign apsk : String) :
    rt.verifyClaim ⟨envelope (payload session_id challenge is_side_a) sig signing_key_uri,
      payload session_id challenge is_side_a, is_side_a, fromCharCodes signing_key_uri, atSign,
      .sha256, .rsa2048⟩ apsk = .ok () ↔
    rt.verifyApskSignature (fromCharCodes signing_key_uri) apsk
      (fromCharCodes (payloadText session_id challenge is_side_a))
      (fromCharCodes (Base64.encode sig)) .rsa2048 .sha256 none = .ok () := by
  have hs : (Json.field (envelope (payload session_id challenge is_side_a) sig signing_key_uri)
      "s").str? = some (fromCharCodes (Base64.encode sig)) := rfl
  have hkid : rt.readKid (envelope (payload session_id challenge is_side_a) sig signing_key_uri) =
      .ok none := rfl
  simp only [Runtime.verifyClaim, hs, hkid, encode_payload h is_side_a hsid hc]
  cases rt.verifyApskSignature (fromCharCodes signing_key_uri) apsk
    (fromCharCodes (payloadText session_id challenge is_side_a))
    (fromCharCodes (Base64.encode sig)) .rsa2048 .sha256 none with
  | ok u => exact iff_of_true rfl rfl
  | error e =>
    constructor
    · intro hok
      cases e <;> cases hok
    · intro hok
      cases hok

/-- What the verifier makes of `line`: the session id, challenge, side, key uri, algorithms and
signature that went into it, no key id, and the text that was signed. -/
structure ReadBack (rt : Runtime) (session_id challenge aes_key_base64 signing_key_uri : List UInt8)
    (is_side_a : Bool) (sig line : List UInt8) : Prop where
  opened : ∃ outer iv_b64 e json,
    rt.splitResponse (fromCharCodes line) = .ok (fromCharCodes session_id, outer) ∧
    rt.readOuter outer = .ok (iv_b64, e) ∧
    rt.decrypt iv_b64 e (fromCharCodes aes_key_base64) = .ok json ∧
    rt.jsonDecode json =
      .ok (.obj (envelope (payload session_id challenge is_side_a) sig signing_key_uri))
  side : rt.sideOf (payload session_id challenge is_side_a) = some is_side_a
  kid : rt.readKid (envelope (payload session_id challenge is_side_a) sig signing_key_uri) = .ok none
  signed : rt.jsonEncode (.obj (payload session_id challenge is_side_a)) =
    fromCharCodes (payloadText session_id challenge is_side_a)
  /-- What the verdict then rests on. -/
  verdict : ∀ helper : RelayAuthVerifyHelper,
    helper.isSessionActive (fromCharCodes session_id) = true →
    helper.getRelayAuthAesKey (fromCharCodes session_id) = .ok (fromCharCodes aes_key_base64) →
    ∀ fields, rt.verifyWith (fromCharCodes challenge) helper (fromCharCodes line) = .ok fields ↔
      ∃ atSign apsk, rt.ownerOf (fromCharCodes signing_key_uri) = .ok atSign ∧
        helper.lookup (fromCharCodes session_id) (fromCharCodes signing_key_uri) = .ok apsk ∧
        rt.verifyApskSignature (fromCharCodes signing_key_uri) apsk
          (fromCharCodes (payloadText session_id challenge is_side_a))
          (fromCharCodes (Base64.encode sig)) .rsa2048 .sha256 none = .ok () ∧
        fields = ⟨fromCharCodes session_id, is_side_a, atSign, fromCharCodes signing_key_uri⟩

/-- A response that is built holds whole texts, none too long for its buffer, and is read back
as what it was built from. -/
theorem readBack_of_build (h : host.Agrees rt aes) (hcolon : colon ∉ session_id)
    (hbuild : srv_escr_build_response host session_id challenge aes_key_base64 signing_key_uri
      signing_key is_side_a iv = .ok line) :
    ∃ sig aes_key env_json outer_json,
      Response host session_id challenge aes_key_base64 signing_key_uri signing_key is_side_a iv
        sig aes_key env_json outer_json line ∧
      ReadBack rt session_id challenge aes_key_base64 signing_key_uri is_side_a sig line := by
  obtain ⟨sig, aes_key, env_json, outer_json, hr⟩ := response_of_build h hbuild
  have hsid := hr.session_id_safe
  have hc := hr.challenge_safe
  have huri := hr.signing_key_uri_safe
  have hsplit := split_response h hcolon hr.line_eq
  have houter := read_outer h iv.toList (encrypted host aes_key iv env_json)
  rw [← hr.outer_json_eq] at houter
  have hdecrypt := decrypt_encrypted h iv env_json hr.key hr.key_length
  have hread := readEnvelope_built h is_side_a sig hsid hc huri
  rw [← hr.env_json_eq] at hread
  refine ⟨sig, aes_key, env_json, outer_json, hr,
    ⟨⟨_, _, _, _, hsplit, houter, hdecrypt, ?_⟩, sideOf_payload h, rfl,
      encode_payload h is_side_a hsid hc, ?_⟩⟩
  · rw [hr.env_json_eq]
    exact decode_envelope h sig hsid hc huri
  · intro helper hactive haes fields
    simp only [Runtime.verifyWith, hsplit, ok_bind, hactive, Bool.not_true, Bool.false_eq_true,
      if_false, houter, haes, hdecrypt, hread]
    cases howner : rt.ownerOf (fromCharCodes signing_key_uri) with
    | error e =>
      constructor
      · intro hok
        cases hok
      · rintro ⟨atSign, apsk, hok, -⟩
        cases hok
    | ok atSign =>
      simp only [Except.bind, ok_bind, bind_eq_ok, verifyClaim_built h sig hsid hc]
      constructor
      · rintro ⟨apsk, hlookup, -, hverified, hfields⟩
        exact ⟨atSign, apsk, rfl, hlookup, hverified, (Except.ok.inj hfields).symm⟩
      · rintro ⟨atSign', apsk, hsame, hlookup, hverified, rfl⟩
        rw [Except.ok.inj hsame]
        exact ⟨apsk, hlookup, (), hverified, rfl⟩

end agreement

/-! ### A response with a key of RSA-2048, under an AES key and an IV of zeros -/

/-- Rows of 32 bytes each. -/
def bytesOf (rows : List ℕ) : List UInt8 :=
  rows.flatMap fun row => (List.range 32).map fun i => UInt8.ofNat (row >>> (8 * (31 - i)))

def sampleModulus : List UInt8 := bytesOf
  [0xb56f7cd3b2b9a9e87b81888b9d12bee8eab26ea4cb6e567b74bd888fd4ae9ba1,
   0x2fbb2f3375fece99c5ffc06bfb97006915aecbc2e39befe21e658917c74685bb,
   0xe4baaf6761a0d64b7fddaa1bfad5978c57d4792ddeb05eda849e419b04de4b1f,
   0x320b787f1883496851313ac2d47d0fe151aea9bb762a0a42b54c127d29628a3e,
   0xde334ab5df1dfbf9d920047fa49d81f9b4ee4025b494cea4d9891cafb3426e21,
   0x1b2c178ac42212648f8900848a3212ea2af8cea3271ae890f6c48be00af6b846,
   0xfbf1c1a34cd3f9551af64790ae94b9c4f09c180b8233acb471313dd912e8e583,
   0x59bdbf216299f38fda38f2cff608ad34c0c11804726e54f8352a8e701711919b]

/-- The signature over the payload of session "s" and challenge "c", for side A. -/
def sampleSig : List UInt8 := bytesOf
  [0x7fc42825092c420f74da8061f5abb69191ccccbda7d0ce0e8a9d7569f91b818d,
   0x9a27ca875ac38f855cfc88e628738aebe0a2b12eacaaa7eef1d4651046382c65,
   0x65c4b5daf80870b04b7a6e11e512b3ec78c79f7904af091ab320895250311499,
   0xc18376ee2900a2ed162b7230a5961568d2a06b3058353f6ebf7c93d85e29fdbf,
   0x9e85728d609742c41ba9e49b7d2653a7887b5ec331214b0ba13ad5945da982d9,
   0xe7aa90db1b0ca2be7791bde255b28a0fd6cb84bec71c9f0c54d777ec124a2143,
   0x3410cf5cf427f9b6e7cd3cceae8208d488feb90be0d9a0d722305d3cba096621,
   0x3c8c10e96c29ad782a34de5103c3715d5edde4b8c876444d69a45376160cdbb0]

/-- AES-CTR's keystream. -/
def sampleStream : List UInt8 := bytesOf
  [0xdc95c078a2408989ad48a21492842087530f8afbc74536b9a963b4f1c4cb738b,
   0xcea7403d4d606b6e074ec5d3baf39d18726003ca37a62a74d1a2f58e7506358e,
   0xdd4ab1284d4ae17b41e85924470c36f74741cbe181bb7f30617c1de3ab0c3a1f,
   0xd0c48f7321a82d376095ace0419167a0bcaf49b0c0cea62de6bc1c66545e1dad,
   0xabfa77cd6e85da245fb0bdc5e52cfc29ba0ae1ab2837e0f36387b70e93176012,
   0x4362c2bb66d8f4b137fce8342c9cd386a1144296e27268a8e50df537a805d579,
   0xbb21ebbdf357ed34bf58b5837150ddcaf362225e620a6070ac5ef529fb522466,
   0x768b78c04b54e51ef5fa07e506a35fc6b0b710249c8626e1a96ad57828d7be2e,
   0x1490a05a7cee43bde98b56e309dc01264ed6df6e82c1bfc72a59ad53a9c0e434,
   0x7d6c5278507940a7def6ba93e8b6af1e46537276611bc766955c587d301ba847,
   0xacc9dda78a438e2c0a69d514744c72d34f326b9b7ef34286ca0ef8a7eae06ebe,
   0x669c537212402dcb5feae99d76c7f4a76abdb79c0dfaa038a0e2282c730ed48b,
   0x869dac2f168ecf3ea610e61fac512c8e95fb8c06de62bc76695551358adb864c,
   0xc268f914b49ab3aa20edfdb2d172798137b4b3d8ddd17522eb2cbfe4dc47cf9f,
   0xb0fa1ccd23dedb5693d1f50ae4eddee70820b0f7c6e073089e2d1dfd97b06c32,
   0xa50036d8284dbf3468292ee0b62ec87c887cb1eb76b46720104130dbf1966387,
   0x482dc43f2388ef25d24144e144bd834e448e7da3bfa6eaf9bcda215cba500cf3,
   0xb95cb432d195129fc3945f87d1862ca4d6ea8ff1201034dc4d328ff5fd73a909,
   0x6234d379e4cfbf9c36f6589a8a2ce98a5fe4d97103bc15c5c4021d3396c1932b]

def sampleAes : Keystream UInt8 where
  apply pos b := b ^^^ sampleStream.getD pos 0
  involutive pos b := by simp only [UInt8.xor_assoc, UInt8.xor_self, UInt8.xor_zero]

/-- With a zero before the modulus, as DER writes it. -/
def sampleKey : RsaPrivateKey := ⟨0 :: sampleModulus, [1, 0, 1], [], [], []⟩

def sampleHost : EscrHost where
  base64_decode n src := (Base64.decode src).filter (·.length ≤ n)
  mbedtls_aes_crypt_ctr s chunk :=
    (sampleAes.crypt s.nc_off chunk, { s with nc_off := s.nc_off + chunk.length })
  base64_encode n src := (some (Base64.encode src)).filter (·.length < n)
  rsa_sign key text :=
    if key = sampleKey ∧ text = payloadText (literal "s") (literal "c") true then some sampleSig
    else none
  mbedtls_aes_setkey_enc key := key.length == 32

def sampleUri : List UInt8 := literal "public:_apsk.1.a.__e@alice"

def sampleAesKey64 : List UInt8 := Base64.encode (List.replicate 32 0)

def sampleRuntime : Runtime where
  jsonDecode text := ((Json.read text).map Except.ok).getD (.error "Unexpected character")
  jsonEncode
    | .obj fields => String.ofList (Json.objectText (fields.map fun f =>
        (f.1, Json.quote (f.2.str?.getD ""))))
    | _ => "null"
  apskSigningKeys _ := .ok []
  publicKeyKidOfBase64 pub := .ok pub
  rank _ := 0
  mlDsaVerify _ _ _ := .ok false
  rsa2048Hashing h := h == .sha256 || h == .sha512
  verifyBytes _ _ _ _ := .ok true
  toLowerCase := lowerAscii
  base64Decode text := Base64.decode (text.toList.map fun c => UInt8.ofNat c.toNat)
  aesDecryptString ciphertext _ _ :=
    match Base64.decode (ciphertext.toList.map fun c => UInt8.ofNat c.toNat) with
    | none => .error "FormatException"
    | some data =>
      match Pkcs7.unpad 16 (sampleAes.crypt 0 data) with
      | none => .error "Invalid or corrupted pad block"
      | some text => .ok (fromCharCodes text)
  jsonText _ := ""
  toAtsign atSign := some (lowerAscii atSign)

theorem codes_fromCharCodes (bytes : List UInt8) :
    ((fromCharCodes bytes).toList.map fun c => UInt8.ofNat c.toNat) = bytes := by
  rw [toList_fromCharCodes, chars, bytes_of_chars]

theorem sample_agrees : sampleHost.Agrees sampleRuntime fun _ _ => sampleAes := by
  refine ⟨?_, ?_, ?_, ?_, ?_, ?_, ?_⟩
  · intro dstsize src text htext
    have htext : (some (Base64.encode src)).filter (·.length < dstsize) = some text := htext
    obtain ⟨htext, hfits⟩ := Option.filter_eq_some_iff.mp htext
    rw [← Option.some.inj htext] at hfits ⊢
    exact ⟨rfl, Nat.le_of_lt (by simpa using hfits)⟩
  · intro bytes
    exact (congrArg Base64.decode (codes_fromCharCodes _)).trans (Base64.decode_encode bytes)
  · intro key iv _ _
    exact Transducer.follows_of_counts AesCtr.nc_off (fun _ _ => ⟨rfl, rfl⟩) rfl
  · intro ciphertext key64 iv data key text hdata _ _ _ hunpad _
    change (match Base64.decode _ with | none => _ | some data => _) = _
    have hdata : Base64.decode
      ((fromCharCodes ciphertext).toList.map fun c => UInt8.ofNat c.toNat) = some data := hdata
    simp only [hdata, hunpad]
  · intro text value hread
    simp only [sampleRuntime, hread, Option.map_some, Option.getD_some]
  · intro fields _
    simp only [sampleRuntime, List.map_map]
    rfl
  · intro s _
    rfl

theorem readBack_of_build_sample : ∃ line sig,
    srv_escr_build_response sampleHost (literal "s") (literal "c") sampleAesKey64 sampleUri sampleKey
      true (Vector.replicate 16 0) = .ok line ∧
    ReadBack sampleRuntime (literal "s") (literal "c") sampleAesKey64 sampleUri true sig line := by
  have hbuilt : (srv_escr_build_response sampleHost (literal "s") (literal "c") sampleAesKey64
      sampleUri sampleKey true (Vector.replicate 16 0)).toOption.isSome = true := by
    decide +kernel
  cases hbuild : srv_escr_build_response sampleHost (literal "s") (literal "c") sampleAesKey64
      sampleUri sampleKey true (Vector.replicate 16 0) with
  | error e =>
    rw [hbuild] at hbuilt
    cases hbuilt
  | ok line =>
    obtain ⟨sig, -, -, -, -, hread⟩ := readBack_of_build sample_agrees (by decide) hbuild
    exact ⟨line, sig, rfl, hread⟩

end NoPorts.CSrv
