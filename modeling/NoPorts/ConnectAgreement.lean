import NoPorts.ConnectMessage
import NoPorts.ConnectMessageC

/-! All three daemons read the keys the client has written, and take the other end of both
its streams. -/
namespace NoPorts.Connect
open Lib
open CSrv (colon newline connect)

/-! ### The line -/

/-- The keys of a session, as they stand in its connect message. -/
def keyTexts (twinKeys : Bool) (c2d d2c : SessionKey) : List (List UInt8) :=
  Base64.encode c2d.key :: Base64.encode c2d.iv ::
    if twinKeys then [Base64.encode d2c.key, Base64.encode d2c.iv] else []

def connectLine (twinKeys : Bool) (c2d d2c : SessionKey) : List UInt8 :=
  [colon].intercalate (connect :: keyTexts twinKeys c2d d2c)

theorem codeUnits_append (s t : String) : codeUnits (s ++ t) = codeUnits s ++ codeUnits t := by
  rw [codeUnits, String.toList_append, List.map_append]
  rfl

theorem codeUnits_fromCharCodes (bytes : List UInt8) : codeUnits (fromCharCodes bytes) = bytes := by
  rw [codeUnits, fromCharCodes, String.toList_ofList, bytes_of_chars]

theorem codeUnits_base64Encode (bytes : List UInt8) :
    codeUnits (base64Encode bytes) = Base64.encode bytes := codeUnits_fromCharCodes _

theorem base64Decode_base64Encode (bytes : List UInt8) : base64Decode (base64Encode bytes) = some bytes := by
  have hascii : (base64Encode bytes).toList.all (·.toNat < 128) = true := by
    rw [base64Encode, fromCharCodes, String.toList_ofList, List.all_map, List.all_eq_true]
    intro b hb
    have hcases := Base64.isChar_cases (Base64.isChar_of_mem_encode hb)
    rw [Function.comp, decide_eq_true_iff, toNat_ofNat_byte]
    omega
  rw [base64Decode, if_pos hascii, codeUnits_base64Encode, Base64.decodeAny_encode]

/-- Nothing that separates, trims or ends a message stands in a key. -/
structure Plain (c : UInt8) : Prop where
  ascii : c.toNat < 128
  notNul : c ≠ 0
  notColon : c ≠ colon
  notBlank : 32 < c.toNat

theorem plain_of_isChar {c : UInt8} (h : Base64.isChar c = true) : Plain c := by
  have hcases := Base64.isChar_cases h
  constructor
  · omega
  · rintro rfl
    simp at hcases
  · rintro rfl
    simp [colon] at hcases
  · omega

theorem mem_keyTexts {twinKeys : Bool} {c2d d2c : SessionKey} {text : List UInt8}
    (h : text ∈ keyTexts twinKeys c2d d2c) :
    ∃ bytes : List UInt8, 16 ≤ bytes.length ∧ text = Base64.encode bytes := by
  have hkey (k : SessionKey) : 16 ≤ k.key.length := by
    rw [k.key_length]
    omega
  have hiv (k : SessionKey) : 16 ≤ k.iv.length := Nat.le_of_eq k.iv_length.symm
  cases twinKeys
  · simp only [keyTexts, Bool.false_eq_true, if_false, List.mem_cons, List.not_mem_nil, or_false] at h
    rcases h with rfl | rfl
    · exact ⟨_, hkey c2d, rfl⟩
    · exact ⟨_, hiv c2d, rfl⟩
  · simp only [keyTexts, if_true, List.mem_cons, List.not_mem_nil, or_false] at h
    rcases h with rfl | rfl | rfl | rfl
    · exact ⟨_, hkey c2d, rfl⟩
    · exact ⟨_, hiv c2d, rfl⟩
    · exact ⟨_, hkey d2c, rfl⟩
    · exact ⟨_, hiv d2c, rfl⟩

theorem plain_keyTexts {twinKeys : Bool} {c2d d2c : SessionKey} {text : List UInt8}
    (h : text ∈ keyTexts twinKeys c2d d2c) : ∀ c ∈ text, Plain c := by
  obtain ⟨bytes, -, rfl⟩ := mem_keyTexts h
  exact fun c hc => plain_of_isChar (Base64.isChar_of_mem_encode hc)

theorem plain_connect : ∀ c ∈ connect, Plain c := by
  have hall : connect.all Base64.isChar = true := rfl
  exact fun c hc => plain_of_isChar (List.all_eq_true.mp hall c hc)

theorem plain_connectLine {twinKeys : Bool} {c2d d2c : SessionKey} {c : UInt8}
    (h : c ∈ connectLine twinKeys c2d d2c) : c = colon ∨ Plain c := by
  rcases mem_intercalate h with hcolon | ⟨piece, hpiece, hc⟩
  · exact Or.inl hcolon
  · rcases List.mem_cons.mp hpiece with rfl | hpiece
    · exact Or.inr (plain_connect c hc)
    · exact Or.inr (plain_keyTexts hpiece c hc)

/-- A colon separates, and is none of what blanks and the end of a message are. -/
theorem visible_connectLine {twinKeys : Bool} {c2d d2c : SessionKey} {c : UInt8}
    (h : c ∈ connectLine twinKeys c2d d2c) : 32 < c.toNat ∧ c.toNat < 128 := by
  rcases plain_connectLine h with rfl | hplain
  · decide
  · exact ⟨hplain.notBlank, hplain.ascii⟩

theorem splitOn_connectLine (twinKeys : Bool) (c2d d2c : SessionKey) :
    (connectLine twinKeys c2d d2c).splitOn colon = connect :: keyTexts twinKeys c2d d2c := by
  apply List.splitOn_intercalate
  · intro piece hpiece hcolon
    rcases List.mem_cons.mp hpiece with rfl | hpiece
    · exact (plain_connect colon hcolon).notColon rfl
    · exact (plain_keyTexts hpiece colon hcolon).notColon rfl
  · exact List.cons_ne_nil _ _

/-! ### The Dart client and the Dart daemon -/

section dart
variable {σ : Type} {host : DartHost σ} {aes : List UInt8 → List UInt8 → Keystream UInt8}

/-- The cipher of a session's new connection. -/
def cipher (host : DartHost σ) (k : SessionKey) : σ :=
  (host.aesCtrStreamCipher k.key k.iv).getD (host.dartAesCtr k.key k.iv)

theorem setAesCtrTransformer_eq (h : host.IsAesCtr aes) (k : SessionKey) :
    host.setAesCtrTransformer k.keyText k.ivText = some (cipher host k) := by
  simp only [DartHost.setAesCtrTransformer, SessionKey.keyText, SessionKey.ivText, h.base64Decode,
    k.key_length, k.iv_length, Option.bind_eq_bind, Option.bind_some, or_true, guard_true,
    Option.pure_def]
  rfl

theorem cipher_follows (h : host.IsAesCtr aes) (k : SessionKey) :
    host.update.Follows (cipher host k) (aes k.key k.iv) := by
  unfold cipher
  cases hcipher : host.aesCtrStreamCipher k.key k.iv with
  | none => exact h.pureDart k
  | some s => exact h.libcrypto k s hcipher

/-- The key the daemon encrypts with. -/
def otherKey (twinKeys : Bool) (c2d d2c : SessionKey) : SessionKey := if twinKeys then d2c else c2d

theorem codeUnits_keyText (k : SessionKey) : codeUnits k.keyText = Base64.encode k.key :=
  codeUnits_fromCharCodes _

theorem codeUnits_ivText (k : SessionKey) : codeUnits k.ivText = Base64.encode k.iv :=
  codeUnits_fromCharCodes _

theorem beforeJoining_eq (h : host.IsAesCtr aes) (twinKeys : Bool) (c2d d2c : SessionKey) :
    host.beforeJoining twinKeys c2d d2c =
      some (⟨some (cipher host c2d), some (cipher host (otherKey twinKeys c2d d2c))⟩,
        connectLine twinKeys c2d d2c ++ [newline]) := by
  have hconnect : codeUnits "connect:" = connect ++ [colon] := by decide
  have hcolon : codeUnits ":" = [colon] := by decide
  have hnewline : codeUnits "\n" = [newline] := by decide
  cases twinKeys
  · simp [DartHost.beforeJoining, setAesCtrTransformer_eq h, otherKey, codeUnits_append, hconnect,
      hcolon, hnewline, codeUnits_keyText, codeUnits_ivText, connectLine, keyTexts]
  · simp [DartHost.beforeJoining, setAesCtrTransformer_eq h, otherKey, codeUnits_append, hconnect,
      hcolon, hnewline, codeUnits_keyText, codeUnits_ivText, connectLine, keyTexts]

/-- The message as the Dart daemon finds it. -/
def request (twinKeys : Bool) (c2d d2c : SessionKey) : ConnectRequest :=
  if twinKeys then ⟨some c2d.keyText, some c2d.ivText, some d2c.keyText, some d2c.ivText⟩
  else ⟨some c2d.keyText, some c2d.ivText, none, none⟩

theorem trim_connectLine (twinKeys : Bool) (c2d d2c : SessionKey) :
    Signing.trim (fromCharCodes (connectLine twinKeys c2d d2c)) =
      fromCharCodes (connectLine twinKeys c2d d2c) := by
  rw [Signing.trim, fromCharCodes, String.toList_ofList, trimBy_eq_self]
  intro c hc
  obtain ⟨b, hb, rfl⟩ := List.mem_map.mp hc
  obtain ⟨hlow, hhigh⟩ := visible_connectLine hb
  apply Bool.eq_false_iff.mpr
  intro hspace
  simp only [Signing.isWhitespace, toNat_ofNat_byte, Bool.or_eq_true, Bool.and_eq_true,
    decide_eq_true_eq, beq_iff_eq] at hspace
  omega

theorem split_connectLine (twinKeys : Bool) (c2d d2c : SessionKey) :
    split (fromCharCodes (connectLine twinKeys c2d d2c)) =
      (connect :: keyTexts twinKeys c2d d2c).map fromCharCodes := by
  have hline : (fromCharCodes (connectLine twinKeys c2d d2c)).toList =
      [':'].intercalate ((connect :: keyTexts twinKeys c2d d2c).map
        (List.map fun b => Char.ofNat b.toNat)) := by
    rw [fromCharCodes, String.toList_ofList, connectLine, map_intercalate]
    rfl
  rw [split, hline, List.splitOn_intercalate, List.map_map]
  · rfl
  · intro piece hpiece hcolon
    obtain ⟨text, htext, rfl⟩ := List.mem_map.mp hpiece
    obtain ⟨b, hb, hbcolon⟩ := List.mem_map.mp hcolon
    have hplain : Plain b := by
      rcases List.mem_cons.mp htext with rfl | htext
      · exact plain_connect b hb
      · exact plain_keyTexts htext b hb
    apply hplain.notColon
    apply UInt8.toNat_inj.mp
    rw [← toNat_ofNat_byte, hbcolon]
    rfl
  · exact List.cons_ne_nil _ _

theorem handleControlMessage_connectLine (twinKeys : Bool) (c2d d2c : SessionKey) :
    handleControlMessage (fromCharCodes (connectLine twinKeys c2d d2c)) =
      .connect (request twinKeys c2d d2c) := by
  have hargs := split_connectLine twinKeys c2d d2c
  have hnoEncrypt : fromCharCodes (connectLine twinKeys c2d d2c) ≠ "connect:no:encrypt" := by
    intro heq
    have hno : split "connect:no:encrypt" = ["connect", "no", "encrypt"] := by decide
    rw [heq, hno] at hargs
    have hkey : "no" = fromCharCodes (Base64.encode c2d.key) :=
      (List.cons.inj (List.cons.inj hargs).2).1
    have hlen := congrArg (fun s => s.toList.length) hkey
    simp [fromCharCodes, Base64.length_encode, c2d.key_length] at hlen
  have hconnect : fromCharCodes connect = "connect" := by decide
  simp only [handleControlMessage, trim_connectLine, hargs, List.map_cons, List.head?_cons, hconnect,
    if_true, ne_eq, hnoEncrypt, not_false_eq_true]
  cases twinKeys <;> rfl

theorem handleMultiConnectRequest_eq (h : host.IsAesCtr aes) (twinKeys : Bool)
    (c2d d2c : SessionKey) :
    host.handleMultiConnectRequest (request twinKeys c2d d2c) =
      some ⟨some (cipher host (otherKey twinKeys c2d d2c)), some (cipher host c2d)⟩ := by
  cases twinKeys
  · simp [DartHost.handleMultiConnectRequest, request, otherKey, setAesCtrTransformer_eq h]
  · simp [DartHost.handleMultiConnectRequest, request, otherKey, setAesCtrTransformer_eq h]

end dart

/-! ### The C daemon -/

/-- mbedtls at the beginning of a session's keystream. -/
def fresh (k : SessionKey) : AesCtr := ⟨k.key, k.iv, 0, List.replicate 16 0⟩

/-- The functions of a host with mbedtls are base64 and AES-CTR. -/
structure MbedAesCtr (host : MbedHost) (aes : List UInt8 → List UInt8 → Keystream UInt8) : Prop where
  base64_decode : ∀ bytes n, bytes.length ≤ n → host.base64_decode n (Base64.encode bytes) = some bytes
  aes_ctr : ∀ k : SessionKey, host.mbedtls_aes_crypt_ctr.Follows (fresh k) (aes k.key k.iv)

section c
variable {host : MbedHost} {aes : List UInt8 → List UInt8 → Keystream UInt8}

theorem create_transformer_eq (h : MbedAesCtr host aes) (k : SessionKey) :
    CSrv.create_transformer host (Base64.encode k.key) (Base64.encode k.iv) = some (fresh k) := by
  simp only [CSrv.create_transformer, h.base64_decode _ _ (Nat.le_of_eq k.key_length),
    h.base64_decode _ _ (Nat.le_of_eq k.iv_length), k.key_length, k.iv_length, Option.bind_eq_bind,
    Option.bind_some, guard_true, Option.pure_def]
  rfl

/-- Nothing is trimmed from a string without blanks. -/
theorem trim_unblank {mem : List UInt8} {p : ℕ}
    (hvisible : ∀ c ∈ cstring mem p, CSrv.isBlank c = false) :
    (cstring mem p).takeWhile CSrv.isBlank = [] ∧ CSrv.trimEnd mem p = mem := by
  have hstop {l : List UInt8} (hl : ∀ c ∈ l, CSrv.isBlank c = false) :
      l.takeWhile CSrv.isBlank = [] ∧ l.dropWhile CSrv.isBlank = l := by
    cases l with
    | nil => exact ⟨rfl, rfl⟩
    | cons c l => simp [hl c List.mem_cons_self]
  refine ⟨(hstop hvisible).1, ?_⟩
  have hend := (hstop fun c hc => hvisible c (List.mem_reverse.mp hc)).2
  rw [CSrv.trimEnd, hend, List.length_reverse, Nat.sub_self, List.replicate_zero, List.append_nil,
    List.take_append_drop]

/-- A string without blanks is parsed into its tokens: the type, a key and an IV, and maybe
another key and IV. -/
theorem parse_of_strtokAll {mem mem' : List UInt8} {p a b c fuel : ℕ} {d2c : Option (ℕ × ℕ)}
    (hne : cstring mem p ≠ []) (hvisible : ∀ c ∈ cstring mem p, CSrv.isBlank c = false)
    (h : strtokAll colon (fuel + 6) mem p =
      (a :: b :: c :: (d2c.elim [] fun d => [d.1, d.2]), mem')) :
    CSrv.parse_control_message mem p = (some ⟨a, b, c, d2c⟩, mem') := by
  obtain ⟨hskip, htrim⟩ := trim_unblank hvisible
  obtain ⟨rest₁, mem₁, h₁, h⟩ := strtokAll_cons h
  obtain ⟨rest₂, mem₂, h₂, h⟩ := strtokAll_cons h
  obtain ⟨rest₃, mem₃, h₃, h⟩ := strtokAll_cons h
  cases d2c with
  | none =>
    obtain ⟨h₄, rfl⟩ := strtokAll_nil h
    simp only [CSrv.parse_control_message, hskip, List.length_nil, Nat.add_zero, htrim, hne, if_false,
      h₁, h₂, h₃, h₄]
  | some d =>
    obtain ⟨rest₄, mem₄, h₄, h⟩ := strtokAll_cons h
    obtain ⟨rest₅, mem₅, h₅, h⟩ := strtokAll_cons h
    obtain ⟨-, rfl⟩ := strtokAll_nil h
    simp only [CSrv.parse_control_message, hskip, List.length_nil, Nat.add_zero, htrim, hne, if_false,
      h₁, h₂, h₃, h₄, h₅]

theorem tokens_connectLine (twinKeys : Bool) (c2d d2c : SessionKey) :
    tokens colon (connectLine twinKeys c2d d2c) = connect :: keyTexts twinKeys c2d d2c := by
  rw [tokens, splitOn_connectLine]
  apply List.filter_eq_self.mpr
  intro piece hpiece
  simp only [ne_eq, decide_eq_true_eq]
  rcases List.mem_cons.mp hpiece with rfl | hpiece
  · exact List.cons_ne_nil _ _
  · obtain ⟨bytes, hlen, rfl⟩ := mem_keyTexts hpiece
    apply List.length_pos_iff.mp
    rw [Base64.length_encode]
    omega

/-- The key of a session is never the "no" of a connection without encryption. -/
theorem encode_key_ne_no (k : SessionKey) : Base64.encode k.key ≠ CSrv.no := by
  intro heq
  have hlen := congrArg List.length heq
  rw [Base64.length_encode, k.key_length] at hlen
  exact absurd hlen (by decide)

theorem connectRequest_connectLine (h : MbedAesCtr host aes) (twinKeys : Bool) (c2d d2c : SessionKey)
    (front back : List UInt8) :
    CSrv.connectRequest host (front ++ connectLine twinKeys c2d d2c ++ 0 :: back) front.length =
      some (some ⟨fresh (otherKey twinKeys c2d d2c), fresh c2d⟩) := by
  have h0 : 0 ∉ connectLine twinKeys c2d d2c := fun h0 => by simpa using (visible_connectLine h0).1
  have hstring : cstring (front ++ connectLine twinKeys c2d d2c ++ 0 :: back) front.length =
      connectLine twinKeys c2d d2c := cstring_append h0
  have hne : connectLine twinKeys c2d d2c ≠ [] := by
    simp [connectLine, keyTexts, connect]
  have hvisible : ∀ c ∈ connectLine twinKeys c2d d2c, CSrv.isBlank c = false := by
    intro c hc
    have hlow := (visible_connectLine hc).1
    apply Bool.eq_false_iff.mpr
    intro hblank
    simp only [CSrv.isBlank, CSrv.space, newline, Bool.or_eq_true, beq_iff_eq] at hblank
    rcases hblank with rfl | rfl
    · exact absurd hlow (by decide)
    · exact absurd hlow (by decide)
  rw [← hstring] at hne hvisible
  have hspec := @strtokAll_spec colon front back (connectLine twinKeys c2d d2c) (by decide)
    ((connectLine twinKeys c2d d2c).length + 6) h0 (by omega)
  have hstrings := hspec.strings
  rw [tokens_connectLine] at hstrings
  generalize hps : strtokAll colon ((connectLine twinKeys c2d d2c).length + 6)
    (front ++ connectLine twinKeys c2d d2c ++ 0 :: back) front.length = parsed at hstrings
  obtain ⟨ps, mem⟩ := parsed
  obtain ⟨a, ps, rfl, ha, hstrings⟩ := List.map_eq_cons_iff.mp hstrings
  obtain ⟨b, ps, rfl, hb, hstrings⟩ := List.map_eq_cons_iff.mp hstrings
  obtain ⟨c, ps, rfl, hc, hstrings⟩ := List.map_eq_cons_iff.mp hstrings
  cases twinKeys
  · obtain rfl : ps = [] := List.map_eq_nil_iff.mp hstrings
    have hparse := @parse_of_strtokAll _ _ _ _ _ _ _ none hne hvisible hps
    simp only at ha hb hc
    rw [CSrv.connectRequest, hparse]
    simp [ha, hb, hc, encode_key_ne_no, otherKey,
      CSrv.create_encrypter_and_decrypter, create_transformer_eq h]
  · obtain ⟨d, ps, rfl, hd, hstrings⟩ := List.map_eq_cons_iff.mp hstrings
    obtain ⟨e, ps, rfl, he, hstrings⟩ := List.map_eq_cons_iff.mp hstrings
    obtain rfl : ps = [] := List.map_eq_nil_iff.mp hstrings
    have hparse := @parse_of_strtokAll _ _ _ _ _ _ _ (some (d, e)) hne hvisible hps
    simp only at ha hb hc hd he
    rw [CSrv.connectRequest, hparse]
    simp [ha, hb, hc, hd, he, encode_key_ne_no, otherKey,
      CSrv.create_encrypter_and_decrypter, create_transformer_eq h]

end c

/-! ### The Arduino daemon -/

section arduino
open Arduino
variable {host : MbedHost} {aes : List UInt8 → List UInt8 → Keystream UInt8}

theorem controlBytes_line {line rest ctrl_msg : List UInt8} (hline : newline ∉ line)
    (hfits : ctrl_msg.length + line.length ≤ ctrlMsgSize - 1) :
    controlBytes ctrl_msg (line ++ newline :: rest) =
      ((ctrl_msg ++ line) :: (controlBytes [] rest).1, (controlBytes [] rest).2) := by
  induction line generalizing ctrl_msg with
  | nil => simp [controlBytes, controlByte]
  | cons c line ih =>
    have hc : c ≠ newline := fun h => hline (h ▸ List.mem_cons_self)
    have hroom : ctrl_msg.length < ctrlMsgSize - 1 := by
      rw [List.length_cons] at hfits
      omega
    have hnext := @ih (ctrl_msg ++ [c]) (fun h => hline (List.mem_cons_of_mem _ h)) (by
      rw [List.length_cons] at hfits
      rw [List.length_append, List.length_singleton]
      omega)
    simp only [List.cons_append, controlBytes, controlByte, if_neg hc, if_pos hroom, hnext]
    simp

theorem cutFields_part {part : List UInt8} (hpart : colon ∉ part) (nfields : ℕ) (field : List UInt8) :
    cutFields nfields field part = [field ++ part] := by
  induction part generalizing field with
  | nil => simp [cutFields]
  | cons c part ih =>
    have hc : c ≠ colon := fun h => hpart (h ▸ List.mem_cons_self)
    rw [cutFields, if_neg hc, ih fun h => hpart (List.mem_cons_of_mem _ h)]
    simp

theorem cutFields_colon {part : List UInt8} (hpart : colon ∉ part) {nfields : ℕ} (hn : nfields < 4)
    (field rest : List UInt8) : cutFields nfields field (part ++ colon :: rest) =
      (field ++ part) :: cutFields (nfields + 1) [] rest := by
  induction part generalizing field with
  | nil => simp [cutFields, hn]
  | cons c part ih =>
    have hc : c ≠ colon := fun h => hpart (h ▸ List.mem_cons_self)
    rw [List.cons_append, cutFields, if_pos hn, if_neg hc,
      ih fun h => hpart (List.mem_cons_of_mem _ h)]
    simp

/-- Four parts at most are each a field. -/
theorem cutFields_intercalate {part : List UInt8} {parts : List (List UInt8)} {nfields : ℕ}
    (hparts : ∀ p ∈ part :: parts, colon ∉ p) (hn : nfields + parts.length ≤ 4) :
    cutFields nfields [] ([colon].intercalate (part :: parts)) = part :: parts := by
  induction parts generalizing part nfields with
  | nil =>
    rw [List.intercalate_singleton, cutFields_part (hparts part List.mem_cons_self), List.nil_append]
  | cons next parts ih =>
    rw [List.length_cons] at hn
    rw [List.intercalate_cons_cons, List.append_assoc, List.singleton_append,
      cutFields_colon (hparts part List.mem_cons_self) (by omega), List.nil_append,
      ih (fun p hp => hparts p (List.mem_cons_of_mem _ hp)) (by omega)]

theorem _init_aes_ctr_state_eq (h : MbedAesCtr host aes) (k : SessionKey) :
    _init_aes_ctr_state host (Base64.encode k.key) (Base64.encode k.iv) = some (fresh k) := by
  simp only [_init_aes_ctr_state, h.base64_decode _ _ (Nat.le_of_eq k.key_length),
    h.base64_decode _ _ (Nat.le_of_eq k.iv_length), k.key_length, k.iv_length, Option.bind_eq_bind,
    Option.bind_some, guard_true, Option.pure_def]
  rfl

theorem length_keyTexts (twinKeys : Bool) (c2d d2c : SessionKey) :
    ([colon].intercalate (keyTexts twinKeys c2d d2c)).length = if twinKeys then 139 else 69 := by
  cases twinKeys
  · simp [keyTexts, Base64.length_encode, c2d.key_length, c2d.iv_length]
  · simp [keyTexts, Base64.length_encode, c2d.key_length, c2d.iv_length, d2c.key_length, d2c.iv_length]

theorem connectLine_eq (twinKeys : Bool) (c2d d2c : SessionKey) :
    connectLine twinKeys c2d d2c =
      connect ++ [colon] ++ [colon].intercalate (keyTexts twinKeys c2d d2c) :=
  List.intercalate_cons_cons

theorem fields_keyTexts (twinKeys : Bool) (c2d d2c : SessionKey) :
    fields ([colon].intercalate (keyTexts twinKeys c2d d2c)) = keyTexts twinKeys c2d d2c := by
  have hfits : ([colon].intercalate (keyTexts twinKeys c2d d2c)).length ≤ ctrlMsgSize - 1 := by
    rw [length_keyTexts]
    cases twinKeys <;> decide
  rw [fields, List.take_of_length_le hfits]
  apply cutFields_intercalate
  · exact fun text htext hcolon => (plain_keyTexts htext colon hcolon).notColon rfl
  · cases twinKeys
    · exact Nat.le_of_ble_eq_true rfl
    · exact Nat.le_of_ble_eq_true rfl

theorem _handle_connect_msg_connectLine (h : MbedAesCtr host aes) (twinKeys : Bool)
    (c2d d2c : SessionKey) :
    _handle_connect_msg host (connectLine twinKeys c2d d2c) =
      some (some ⟨fresh (otherKey twinKeys c2d d2c), fresh c2d⟩) := by
  have h0 : ∀ c ∈ connectLine twinKeys c2d d2c, (c != 0) = true := by
    intro c hc
    refine bne_iff_ne.mpr ?_
    rintro rfl
    simpa using (visible_connectLine hc).1
  have hmsg : (connectLine twinKeys c2d d2c).takeWhile (· != 0) = connectLine twinKeys c2d d2c := by
    apply List.takeWhile_eq_self_iff.mpr
    exact h0
  have hdata : (connectLine twinKeys c2d d2c).drop 8 =
      [colon].intercalate (keyTexts twinKeys c2d d2c) := by
    rw [connectLine_eq]
    exact List.drop_left' rfl
  have hlen : ([colon].intercalate (keyTexts twinKeys c2d d2c)).length ≠ 10 ∧
      ([colon].intercalate (keyTexts twinKeys c2d d2c)).length ≠ 0 := by
    rw [length_keyTexts]
    cases twinKeys <;> decide
  have hplain : ¬([colon].intercalate (keyTexts twinKeys c2d d2c) = CSrv.no ++ colon :: CSrv.encrypt ∨
      [colon].intercalate (keyTexts twinKeys c2d d2c) = []) := by
    rintro (heq | heq)
    · exact hlen.1 (by rw [heq]; rfl)
    · exact hlen.2 (by rw [heq]; rfl)
  rw [_handle_connect_msg, hmsg, hdata, if_neg hplain, fields_keyTexts]
  cases twinKeys
  · simp [keyTexts, otherKey, _create_enc_dec, _init_aes_ctr_state_eq h]
  · simp [keyTexts, otherKey, _create_enc_dec, _init_aes_ctr_state_eq h]

end arduino

/-! ### The two ends of a connection -/

/-- The daemon restores what the client's side encrypts, and the client what the daemon's does. -/
def Joined {σ τ : Type} (client : Transducer σ UInt8) (clientSides : Sides σ)
    (daemon : Transducer τ UInt8) (daemonSides : Sides τ) : Prop :=
  ∃ a b a' b', clientSides = ⟨some a, some b⟩ ∧ daemonSides = ⟨some a', some b'⟩ ∧
    client.Restores a daemon b' ∧ daemon.Restores a' client b

/-- The local side encrypts, the relay's side decrypts. -/
def sides (t : CSrv.Transformers) : Sides AesCtr := ⟨some t.encrypter, some t.decrypter⟩

/-- Every daemon reads the keys the client's connect message is written with, and each end
restores what the other encrypts with them. -/
theorem connect_message_read {σ τ : Type} (client : DartHost σ) (dart : DartHost τ)
    (pf : Srv.Platform) (c arduino : MbedHost) (aes : List UInt8 → List UInt8 → Keystream UInt8)
    (hclient : client.IsAesCtr aes) (hdart : dart.IsAesCtr aes) (hc : MbedAesCtr c aes)
    (harduino : MbedAesCtr arduino aes)
    (hutf8 : ∀ bytes, (∀ b ∈ bytes, b.toNat < 128) → pf.utf8Decode bytes = some (fromCharCodes bytes))
    (twinKeys : Bool) (c2d d2c : SessionKey) :
    ∃ clientSides line,
      client.beforeJoining twinKeys c2d d2c = some (clientSides, line ++ [newline]) ∧ newline ∉ line ∧
      (∃ daemonSides, (pf.controlMsg line).map handleControlMessage =
          some (.connect (request twinKeys c2d d2c)) ∧
        dart.handleMultiConnectRequest (request twinKeys c2d d2c) = some daemonSides ∧
        Joined client.update clientSides dart.update daemonSides) ∧
      (∀ front back, ∃ t, CSrv.connectRequest c (front ++ line ++ 0 :: back) front.length =
          some (some t) ∧
        t.encrypter = fresh (if twinKeys then d2c else c2d) ∧ t.decrypter = fresh c2d ∧
        Joined client.update clientSides c.mbedtls_aes_crypt_ctr (sides t)) ∧
      ∃ t, Arduino.controlBytes [] (line ++ [newline]) = ([line], []) ∧
        Arduino._handle_connect_msg arduino line = some (some t) ∧
        t.encrypter = fresh (if twinKeys then d2c else c2d) ∧ t.decrypter = fresh c2d ∧
        Joined client.update clientSides arduino.mbedtls_aes_crypt_ctr (sides t) := by
  have hnewline : newline ∉ connectLine twinKeys c2d d2c :=
    fun h => absurd (visible_connectLine h).1 (by decide)
  refine ⟨_, _, beforeJoining_eq hclient twinKeys c2d d2c, hnewline, ?_, ?_, ?_⟩
  · have hdecode : pf.controlMsg (connectLine twinKeys c2d d2c) =
        some (fromCharCodes (connectLine twinKeys c2d d2c)) := by
      rw [Srv.Platform.controlMsg, hutf8 _ fun b hb => (visible_connectLine hb).2, Option.map_some,
        trim_connectLine]
    refine ⟨_, ?_, handleMultiConnectRequest_eq hdart twinKeys c2d d2c, _, _, _, _, rfl, rfl, ?_, ?_⟩
    · rw [hdecode, Option.map_some, handleControlMessage_connectLine]
    · exact (cipher_follows hclient c2d).restores (cipher_follows hdart c2d)
    · exact (cipher_follows hdart _).restores (cipher_follows hclient _)
  · intro front back
    refine ⟨_, connectRequest_connectLine hc twinKeys c2d d2c front back, rfl, rfl, _, _, _, _, rfl,
      rfl, ?_, ?_⟩
    · exact (cipher_follows hclient c2d).restores (hc.aes_ctr c2d)
    · exact (hc.aes_ctr _).restores (cipher_follows hclient _)
  · have hfits : ([] : List UInt8).length + (connectLine twinKeys c2d d2c).length ≤
        Arduino.ctrlMsgSize - 1 := by
      rw [connectLine_eq, List.length_append, length_keyTexts]
      cases twinKeys <;> decide
    refine ⟨_, controlBytes_line hnewline hfits,
      _handle_connect_msg_connectLine harduino twinKeys c2d d2c, rfl, rfl, _, _, _, _, rfl, rfl, ?_, ?_⟩
    · exact (cipher_follows hclient c2d).restores (harduino.aes_ctr c2d)
    · exact (harduino.aes_ctr _).restores (cipher_follows hclient _)

/-- The first block of AES-CTR for a key and an IV of zeros. -/
def zeroBlock : List UInt8 :=
  [220, 149, 192, 120, 162, 64, 137, 137, 173, 72, 162, 20, 146, 132, 32, 135]

def zeroStream : Keystream UInt8 where
  apply pos b := b ^^^ zeroBlock.getD pos 0
  involutive pos b := by simp only [UInt8.xor_assoc, UInt8.xor_self, UInt8.xor_zero]

def zeroKey : SessionKey := ⟨List.replicate 32 0, List.replicate 16 0, rfl, rfl⟩

def zeroDart : DartHost ℕ where
  base64Decode := base64Decode
  aesCtrStreamCipher _ _ := none
  dartAesCtr _ _ := 0
  update pos chunk := (zeroStream.crypt pos chunk, pos + chunk.length)

def zeroMbed : MbedHost where
  base64_decode n src := (Base64.decode src).filter (·.length ≤ n)
  mbedtls_aes_crypt_ctr s chunk :=
    (zeroStream.crypt s.nc_off chunk, { s with nc_off := s.nc_off + chunk.length })

theorem connect_message_read_sample : ∃ clientSides line,
    zeroDart.beforeJoining true zeroKey zeroKey = some (clientSides, line ++ [newline]) ∧
      ∃ t, CSrv.connectRequest zeroMbed (line ++ [0]) 0 = some (some t) ∧
        Joined zeroDart.update clientSides zeroMbed.mbedtls_aes_crypt_ctr (sides t) := by
  have hdart : zeroDart.IsAesCtr fun _ _ => zeroStream := by
    refine ⟨base64Decode_base64Encode, fun _ _ h => ?_, fun _ => ?_⟩
    · cases h
    · exact Transducer.follows_of_counts id (fun _ _ => ⟨rfl, rfl⟩) rfl
  have hmbed : MbedAesCtr zeroMbed fun _ _ => zeroStream := by
    refine ⟨fun bytes n hn => ?_, fun _ => ?_⟩
    · simp [zeroMbed, Base64.decode_encode, Option.filter, hn]
    · exact Transducer.follows_of_counts AesCtr.nc_off (fun _ _ => ⟨rfl, rfl⟩) rfl
  obtain ⟨clientSides, line, hclient, -, -, hc, -⟩ :=
    connect_message_read zeroDart zeroDart ⟨fun bytes => some (fromCharCodes bytes), fun _ _ => none⟩
      zeroMbed zeroMbed (fun _ _ => zeroStream) hdart hdart hmbed hmbed (fun _ _ => rfl) true
      zeroKey zeroKey
  obtain ⟨t, hrequest, -, -, hjoined⟩ := hc [] []
  exact ⟨clientSides, line, hclient, t, hrequest, hjoined⟩

end NoPorts.Connect
