import NoPorts.EnrollmentSignatureC
import NoPorts.Lib.Base64
import NoPorts.Lib.JsonText

/-! When the C daemon and the Dart daemon agree on the enrollment signature of a
request. -/
namespace NoPorts.CDaemon
open Lib Signing

/-! The verdict both daemons give. -/

inductive Verdict where
  | absent
  | verified (uri : String)
  | refused
  | unchecked
  deriving DecidableEq, Repr

def EnrollmentSignatureResult.verdict : EnrollmentSignatureResult → Verdict
  | absent => .absent
  | verified uri => .verified uri
  | refused _ => .refused
  | unchecked _ => .unchecked

/-- The Dart check returns null or a uri, throws `ApskSignatureException`, or
fails any other way. -/
def dartVerdict : Except Failure (Option String) → Verdict
  | .ok none => .absent
  | .ok (some uri) => .verified uri
  | .error (.apskSignature _) => .refused
  | .error _ => .unchecked

/-- The same lookup as the Dart daemon sees it. -/
def dartLookup (lookup : String → PublicLookupResult) (uri : String) :
    Except Failure (Option String) :=
  match lookup uri with
  | .found value => .ok (some value)
  | .notFound => .ok none
  | .notServed => .error (.other "not served")
  | .failed => .error (.other "failed")

/-- Whether the bytes are a signature of the text's by the key, of any size, as the libraries have it. -/
def Atchops.signs (c : Atchops) (key : RsaPublicKey) (h : HashingAlgoType) (signed : String)
    (signature : List UInt8) : Bool :=
  signature.length == rsaModulusBytes key && c.rsaVerify key h signed signature

/-- The libraries agree: JSON both ways, base64 with the ids of keys, and RSA, where at_chops verifies with keys
of 2048 bits only; at_auth reads an advertisement as the C daemon takes it to; ML-DSA is the stronger. -/
structure LibrariesAgree (sdk : Sdk) (c : Atchops) : Prop where
  parse : ∀ s, c.parse s = (sdk.jsonDecode s).toOption
  print : ∀ j, c.printUnformatted j = sdk.jsonEncode j
  base64Decode : ∀ s, c.base64Decode s = sdk.base64Decode s
  kid : ∀ pub, c.kidOf pub = (sdk.publicKeyKidOfBase64 pub).toOption
  populate : ∀ pub key, c.populatePublicKey pub = some key → (c.base64Decode pub).isSome = true
  hashing : ∀ h, sdk.rsa2048Hashing h = true ↔ h = .sha256 ∨ h = .sha512
  verifyBytes : ∀ pub publicKey h signed signature, h = .sha256 ∨ h = .sha512 →
    sdk.base64Decode pub = some publicKey → sdk.verifyBytes h signed signature publicKey =
      .ok ((c.populatePublicKey pub).any fun key => key.bits == 2048 && c.signs key h signed signature)
  advertisement : ∀ fields, sdk.apskSigningKeys fields = .ok (advertisementKeys fields)
  rank : sdk.rank .rsa2048 < sdk.rank .mldsa65

/-! The checks before the lookup. -/

theorem signingAlgo_byName {t : String} {a : SigningAlgoType} :
    SigningAlgoType.byName? t = some a ↔ t = a.name := by
  constructor
  · intro h
    have hn : a.name = t := by simpa using List.find?_some h
    exact hn.symm
  · rintro rfl
    cases a <;> rfl

theorem hashingAlgo_byName {t : String} {h : HashingAlgoType} :
    HashingAlgoType.byName? t = some h ↔ t = h.name := by
  constructor
  · intro hb
    have hn : h.name = t := by simpa using List.find?_some hb
    exact hn.symm
  · rintro rfl
    cases h <;> rfl

/-- The field passes every check before the lookup, the signature apart: `shape`
and `lower` are how the daemon tests a key's uri and lowers a text. -/
structure WellNamed (shape : String → Bool) (lower : String → String) (requester : String)
    (field : List (String × Json)) (named : Named) : Prop where
  sk : Json.field field "sk" = .str named.uri
  shaped : shape named.uri = true
  owner : lower (String.ofList (fromLast '@' named.uri.toList)) = lower requester
  sa : Json.field field "sa" = .str named.signingAlgo.name
  supported : named.signingAlgo ∈ escrSigningAlgorithms
  ha : Json.field field "ha" = .str named.hashingAlgo.name
  kid : Json.field field "kid" = Json.ofStr? named.kid

theorem dart_text_ok {field : List (String × Json)} {name s : String} :
    Signing.text field name = .ok s ↔ Json.field field name = .str s := by
  unfold Signing.text
  split
  · rename_i t ht
    rw [ht]
    exact ⟨fun h => congrArg Json.str (Except.ok.inj h), fun h => by cases h; rfl⟩
  · rename_i hne
    exact ⟨fun h => (nomatch h), fun h => absurd h (hne s)⟩

theorem dart_text_error {field : List (String × Json)} {name : String} {e : Failure}
    (h : Signing.text field name = .error e) : dartVerdict (.error e) = .refused := by
  unfold Signing.text at h
  split at h
  · cases h
  · cases h
    rfl

theorem dart_readField_ok {sdk : Sdk} {requester : String} {field : List (String × Json)}
    {named : Named} : sdk.readField requester field = .ok named ↔
      WellNamed signingKeyUriShape sdk.toLowerCase requester field named := by
  constructor
  · intro h
    obtain ⟨uri, hsk, h⟩ := bind_eq_ok.mp h
    obtain ⟨hshape, h⟩ := throwIf_ok.mp h
    obtain ⟨howner, h⟩ := throwIf_ok.mp h
    obtain ⟨sa, hsa, h⟩ := bind_eq_ok.mp h
    split at h
    · cases h
    rename_i signingAlgo hsign
    obtain ⟨ha, hha, h⟩ := bind_eq_ok.mp h
    split at h
    · cases h
    rename_i hashingAlgo hhash
    obtain ⟨hsup, h⟩ := throwIf_ok.mp h
    have hsup : signingAlgo ∈ escrSigningAlgorithms := by simpa using hsup
    rw [dart_text_ok] at hsk hsa hha
    obtain rfl := signingAlgo_byName.mp hsign
    obtain rfl := hashingAlgo_byName.mp hhash
    split at h
    · rename_i hkid
      obtain rfl := Except.ok.inj h
      exact ⟨hsk, by simpa using hshape, not_not.mp howner, hsa, hsup, hha, hkid⟩
    · rename_i kid hkid
      obtain rfl := Except.ok.inj h
      exact ⟨hsk, by simpa using hshape, not_not.mp howner, hsa, hsup, hha, hkid⟩
    · cases h
  · intro h
    obtain ⟨uri, signingAlgo, hashingAlgo, kid⟩ := named
    have hsup : escrSigningAlgorithms.contains signingAlgo = true := by simpa using h.supported
    simp only [Sdk.readField, dart_text_ok.mpr h.sk, dart_text_ok.mpr h.sa, dart_text_ok.mpr h.ha,
      ok_bind, h.shaped, h.owner, signingAlgo_byName.mpr rfl, hashingAlgo_byName.mpr rfl, hsup,
      h.kid, Bool.not_true, Bool.false_eq_true, if_false, ne_eq, not_true_eq_false]
    cases kid <;> rfl

theorem dart_readField_error {sdk : Sdk} {requester : String} {field : List (String × Json)}
    {e : Failure} (h : sdk.readField requester field = .error e) :
    dartVerdict (.error e) = .refused := by
  rcases bind_eq_error.mp h with h | ⟨uri, -, h⟩
  · exact dart_text_error h
  rcases throwIf_error.mp h with ⟨-, rfl⟩ | ⟨-, h⟩
  · rfl
  rcases throwIf_error.mp h with ⟨-, rfl⟩ | ⟨-, h⟩
  · rfl
  rcases bind_eq_error.mp h with h | ⟨sa, -, h⟩
  · exact dart_text_error h
  split at h
  · cases h
    rfl
  rcases bind_eq_error.mp h with h | ⟨ha, -, h⟩
  · exact dart_text_error h
  split at h
  · cases h
    rfl
  rcases throwIf_error.mp h with ⟨-, rfl⟩ | ⟨-, h⟩
  · rfl
  split at h
  · cases h
  · cases h
  · cases h
    rfl

/-! The same checks in C, which test the signature's text with them. -/

theorem text_ok {field : List (String × Json)} {name s : String} :
    CDaemon.text field name = .ok s ↔ Json.field field name = .str s := by
  unfold CDaemon.text
  split
  · rename_i t ht
    rw [ht]
    exact ⟨fun h => congrArg Json.str (Except.ok.inj h), fun h => by cases h; rfl⟩
  · rename_i hne
    exact ⟨fun h => (nomatch h), fun h => absurd h (hne s)⟩

theorem mem_hashingAlgorithms {t : String} (h : t ∈ hashingAlgorithms) :
    ∃ a : HashingAlgoType, t = a.name := by
  simp only [hashingAlgorithms, List.mem_cons, List.not_mem_nil, or_false] at h
  rcases h with rfl | rfl | rfl | rfl
  · exact ⟨.sha256, rfl⟩
  · exact ⟨.sha512, rfl⟩
  · exact ⟨.md5, rfl⟩
  · exact ⟨.argon2id, rfl⟩

/-- What the C checks let through is named well, under `rsa2048`, and signed. -/
theorem readField_ok {requester : String} {field : List (String × Json)}
    {uri ha signature : String} {kid : Option String} :
    readField requester field = .ok (uri, ha, signature, kid) ↔
      ∃ named, WellNamed isSigningKeyUri lowerAscii requester field named ∧
        named.signingAlgo = .rsa2048 ∧ Json.field field "s" = .str signature ∧
          uri = named.uri ∧ ha = named.hashingAlgo.name ∧ kid = named.kid := by
  constructor
  · intro h
    obtain ⟨uri', hsk, h⟩ := bind_eq_ok.mp h
    obtain ⟨sa, hsa, h⟩ := bind_eq_ok.mp h
    obtain ⟨ha', hha, h⟩ := bind_eq_ok.mp h
    obtain ⟨s, hs, h⟩ := bind_eq_ok.mp h
    obtain ⟨hshape, h⟩ := throwIf_ok.mp h
    obtain ⟨howner, h⟩ := throwIf_ok.mp h
    obtain ⟨hknown, h⟩ := throwIf_ok.mp h
    obtain ⟨-, h⟩ := throwIf_ok.mp h
    obtain ⟨hrsa, hkid⟩ := throwIf_ok.mp h
    rw [text_ok] at hsk hsa hha hs
    obtain rfl : sa = "rsa2048" := not_not.mp hrsa
    have hmem : ha' ∈ hashingAlgorithms := by
      by_contra hn
      exact hknown (Or.inr (by simpa using hn))
    obtain ⟨hashingAlgo, rfl⟩ := mem_hashingAlgorithms hmem
    have hshape : isSigningKeyUri uri' = true := by simpa using hshape
    split at hkid
    · rename_i hnull
      obtain ⟨rfl, h⟩ := Prod.ext_iff.mp (Except.ok.inj hkid)
      obtain ⟨rfl, h⟩ := Prod.ext_iff.mp h
      obtain ⟨rfl, rfl⟩ := Prod.ext_iff.mp h
      exact ⟨⟨uri', .rsa2048, hashingAlgo, none⟩,
        ⟨hsk, hshape, not_not.mp howner, hsa, List.mem_cons_self, hha, hnull⟩, rfl, hs, rfl, rfl, rfl⟩
    · rename_i k hstr
      obtain ⟨rfl, h⟩ := Prod.ext_iff.mp (Except.ok.inj hkid)
      obtain ⟨rfl, h⟩ := Prod.ext_iff.mp h
      obtain ⟨rfl, rfl⟩ := Prod.ext_iff.mp h
      exact ⟨⟨uri', .rsa2048, hashingAlgo, some k⟩,
        ⟨hsk, hshape, not_not.mp howner, hsa, List.mem_cons_self, hha, hstr⟩, rfl, hs, rfl, rfl, rfl⟩
    · cases hkid
  · rintro ⟨⟨uri, signingAlgo, hashingAlgo, kid⟩, h, rfl, hs, rfl, rfl, rfl⟩
    have hknown : ¬(¬signingAlgorithms.contains "rsa2048" = true ∨
        ¬hashingAlgorithms.contains hashingAlgo.name = true) := by
      cases hashingAlgo <;> decide
    simp only [readField, text_ok.mpr h.sk, text_ok.mpr h.sa, text_ok.mpr h.ha,
      text_ok.mpr hs, ok_bind, h.shaped, h.owner, h.kid, Bool.not_true, Bool.false_eq_true,
      if_false, ne_eq, not_true_eq_false]
    cases hashingAlgo <;> cases kid <;> rfl

/-! The keys of a record, and the one a signature is verified with. -/

/-- A key as the C daemon holds it. -/
def ApskKey.of (k : ApskSigningKey) : ApskKey := ⟨k.kid, k.alg.name, k.pub⟩

theorem mem_signingAlgorithms {t : String} (h : t ∈ signingAlgorithms) :
    ∃ a : SigningAlgoType, t = a.name := by
  simp only [signingAlgorithms, List.mem_cons, List.not_mem_nil, or_false] at h
  rcases h with rfl | rfl | rfl | rfl | rfl
  · exact ⟨.ecc_secp256r1, rfl⟩
  · exact ⟨.rsa2048, rfl⟩
  · exact ⟨.rsa4096, rfl⟩
  · exact ⟨.ed25519, rfl⟩
  · exact ⟨.mldsa65, rfl⟩

/-- The C loop keeps just the entries the Dart daemon takes up and then offers. -/
theorem apskKey?_eq (entry : Json) :
    apskKey? entry = ((advertisementKey? entry).filter Sdk.offered).map ApskKey.of := by
  unfold apskKey? advertisementKey?
  cases entry.obj? with
  | none => rfl
  | some fields =>
    simp only [Option.bind_eq_bind, Option.bind_some]
    cases (Json.field fields "kid").str? with
    | none => rfl
    | some kid =>
    cases (Json.field fields "use").str? with
    | none => rfl
    | some use =>
    cases (Json.field fields "alg").str? with
    | none => rfl
    | some alg =>
    cases (Json.field fields "pub").str? with
    | none => rfl
    | some pub =>
      simp only [Option.bind_some]
      by_cases hmem : alg ∈ signingAlgorithms
      · obtain ⟨a, rfl⟩ := mem_signingAlgorithms hmem
        simp only [signingAlgo_byName.mpr rfl, Option.bind_some]
        by_cases huse : use = "sign"
        · generalize hact : ((Json.field fields "status").isNull ||
            (Json.field fields "status").str? == some "active") = active
          cases a <;> cases active <;>
            simp [huse, signingAlgorithms, SigningAlgoType.name, Option.filter, Sdk.offered,
              ApskKey.of, escrSigningAlgorithms]
        · simp [huse]
      · have hno : SigningAlgoType.byName? alg = none := by
          by_contra hsome
          obtain ⟨a, ha⟩ := Option.ne_none_iff_exists'.mp hsome
          rw [signingAlgo_byName.mp ha] at hmem
          exact hmem (by cases a <;> decide)
        simp [hno, hmem]

theorem filterMap_apskKey? (entries : List Json) : entries.filterMap apskKey? =
    ((entries.filterMap advertisementKey?).filter Sdk.offered).map ApskKey.of := by
  induction entries with
  | nil => rfl
  | cons entry rest ih =>
    rw [List.filterMap_cons, List.filterMap_cons, apskKey?_eq, ih]
    cases advertisementKey? entry with
    | none => rfl
    | some k =>
      by_cases hk : Sdk.offered k = true
      · simp [Option.filter, hk]
      · simp [Option.filter, hk]

theorem entries_apskKey? (fields : List (String × Json)) : (entries fields).filterMap apskKey? =
    ((advertisementKeys fields).filter Sdk.offered).map ApskKey.of := by
  unfold entries advertisementKeys
  cases Json.field fields "keys" with
  | arr items => exact filterMap_apskKey? items
  | _ => rfl

section
variable {sdk : Sdk} {c : Atchops} (hl : LibrariesAgree sdk c)
include hl

/-- Both read the same keys out of a record they trim alike, or both refuse it. -/
theorem activeApskKeys_agree (uri : String) {apsk : String} (htrim : stripped apsk = trim apsk) :
    (∃ keys, sdk.activeApskKeys uri apsk = .ok keys ∧
        c.activeApskKeys uri apsk = .ok (keys.map ApskKey.of) ∧
        keys ≠ [] ∧ ∀ k ∈ keys, k.alg ∈ escrSigningAlgorithms) ∨
      ((∃ m, sdk.activeApskKeys uri apsk = .error (.apskSignature m)) ∧
        ∃ why, c.activeApskKeys uri apsk = .error why) := by
  unfold Sdk.activeApskKeys Sdk.advertised Atchops.activeApskKeys
  rw [htrim]
  by_cases hbrace : (trim apsk).toList.head? = some '{'
  · simp only [hbrace, if_true, ne_eq, not_true_eq_false, if_false, hl.parse]
    cases hjson : sdk.jsonDecode (trim apsk) with
    | error message => exact Or.inr ⟨⟨_, rfl⟩, _, rfl⟩
    | ok j =>
      cases j with
      | obj fields =>
        simp only [hl.advertisement, ok_bind, Except.toOption, entries_apskKey?,
          List.map_eq_nil_iff]
        by_cases hnil : (advertisementKeys fields).filter Sdk.offered = []
        · rw [if_pos hnil, if_pos hnil]
          exact Or.inr ⟨⟨_, rfl⟩, _, rfl⟩
        · rw [if_neg hnil, if_neg hnil]
          refine Or.inl ⟨_, rfl, rfl, hnil, fun k hk => ?_⟩
          exact (Sdk.offered_iff.mp (List.mem_filter.mp hk).2).2
      | _ => exact Or.inr ⟨⟨_, rfl⟩, _, rfl⟩
  · simp only [hbrace, if_false, ne_eq, not_false_eq_true, if_true, hl.kid, Sdk.forPublicKey]
    cases sdk.publicKeyKidOfBase64 (trim apsk) with
    | error message => exact Or.inr ⟨⟨_, rfl⟩, _, rfl⟩
    | ok kid =>
      refine Or.inl ⟨_, rfl, rfl, List.cons_ne_nil _ _, ?_⟩
      intro k hk
      rw [List.mem_singleton.mp (List.mem_of_mem_filter hk)]
      exact List.mem_cons_self

/-- Among keys under RSA and ML-DSA, ML-DSA is required whenever one is there. -/
theorem strongestOf_eq {first : ApskSigningKey} {rest : List ApskSigningKey}
    (hkeys : ∀ k ∈ first :: rest, k.alg ∈ escrSigningAlgorithms) :
    sdk.strongestOf first.alg (rest.map (·.alg)) =
      if ∃ k ∈ first :: rest, k.alg = .mldsa65 then .mldsa65 else .rsa2048 := by
  have hmem : sdk.strongestOf first.alg (rest.map (·.alg)) ∈ (first :: rest).map (·.alg) :=
    Sdk.strongestOf_mem first.alg (rest.map (·.alg))
  obtain ⟨k, hk, halg⟩ := List.mem_map.mp hmem
  have hcase : k.alg = .rsa2048 ∨ k.alg = .mldsa65 := by
    simpa [escrSigningAlgorithms] using hkeys k hk
  split
  · rename_i hml
    obtain ⟨m, hm, hmalg⟩ := hml
    have hle : sdk.rank m.alg ≤ sdk.rank (sdk.strongestOf first.alg (rest.map (·.alg))) :=
      Sdk.rank_le_strongestOf first.alg (rest.map (·.alg)) m.alg (List.mem_map_of_mem hm)
    rcases hcase with hk' | hk'
    · rw [← halg, hk', hmalg] at hle
      exact absurd hl.rank (Nat.not_lt.mpr hle)
    · rw [← halg, hk']
  · rename_i hno
    rcases hcase with hk' | hk'
    · rw [← halg, hk']
    · exact absurd ⟨k, hk, hk'⟩ hno

/-- Both take the same key for an RSA signature, or both refuse it. -/
theorem keyFor_agree (uri : String) (kid : Option String) {keys : List ApskSigningKey}
    (hne : keys ≠ []) (hkeys : ∀ k ∈ keys, k.alg ∈ escrSigningAlgorithms) :
    (∃ key, sdk.keyFor uri keys .rsa2048 kid = .ok key ∧
        selectKey uri (keys.map ApskKey.of) kid = .ok (ApskKey.of key)) ∨
      ((∃ m, sdk.keyFor uri keys .rsa2048 kid = .error (.apskSignature m)) ∧
        ∃ why, selectKey uri (keys.map ApskKey.of) kid = .error why) := by
  obtain ⟨first, rest, rfl⟩ := List.exists_cons_of_ne_nil hne
  have hany : ((first :: rest).map ApskKey.of).any (·.alg == "mldsa65") = true ↔
      ∃ k ∈ first :: rest, k.alg = .mldsa65 := by
    have hname : ∀ a : SigningAlgoType, a.name = "mldsa65" ↔ a = .mldsa65 := by
      intro a
      cases a <;> decide
    simp only [List.any_map, List.any_eq_true, Function.comp, ApskKey.of, beq_iff_eq, hname]
  simp only [Sdk.keyFor, strongestOf_eq hl hkeys, selectKey, hany]
  by_cases hml : ∃ k ∈ first :: rest, k.alg = .mldsa65
  · simp only [hml, if_true]
    exact Or.inr ⟨⟨_, rfl⟩, _, rfl⟩
  · -- Without ML-DSA every key is RSA's, so no daemon's filter drops any.
    have hrsa : ∀ k ∈ first :: rest, k.alg = .rsa2048 := by
      intro k hk
      have hcase : k.alg = .rsa2048 ∨ k.alg = .mldsa65 := by
        simpa [escrSigningAlgorithms] using hkeys k hk
      exact hcase.resolve_right fun hk' => hml ⟨k, hk, hk'⟩
    have hd : (first :: rest).filter (·.alg == .rsa2048) = first :: rest :=
      List.filter_eq_self.mpr fun k hk => by simp [hrsa k hk]
    have hc : ((first :: rest).map ApskKey.of).filter (·.alg != "mldsa65") =
        (first :: rest).map ApskKey.of := by
      refine List.filter_eq_self.mpr fun k hk => ?_
      obtain ⟨k', hk', rfl⟩ := List.mem_map.mp hk
      simp [ApskKey.of, hrsa k' hk', SigningAlgoType.name]
    simp only [hml, if_false, ne_eq, not_true_eq_false, hd, hc, List.length_map]
    cases kid with
    | none =>
      cases rest with
      | nil => exact Or.inl ⟨first, rfl, rfl⟩
      | cons second rest =>
        rw [if_pos ⟨rfl, by simp⟩]
        exact Or.inr ⟨⟨_, rfl⟩, _, rfl⟩
    | some i =>
      simp only [reduceCtorEq, false_and, if_false, Sdk.selectKey, Option.isNone_some,
        Bool.false_or, List.find?_map]
      have hp : ((fun k : ApskKey => some i == some k.kidText) ∘ ApskKey.of) = (·.kid == i) := by
        funext k
        rw [Bool.eq_iff_iff]
        simp only [Function.comp, ApskKey.of, beq_iff_eq, Option.some.injEq]
        exact eq_comm
      rw [hp]
      cases (first :: rest).find? (·.kid == i) with
      | none => exact Or.inr ⟨⟨_, rfl⟩, _, rfl⟩
      | some key => exact Or.inl ⟨key, rfl, rfl⟩

/-- A signature under `rsa2048` and `kid` is verified with `key`, out of the record's value. -/
def Reaches (sdk : Sdk) (canonical apsk : String) (named : Named) (key : ApskSigningKey) : Prop :=
  (∃ keys, sdk.activeApskKeys canonical apsk = .ok keys ∧
    sdk.keyFor canonical keys .rsa2048 named.kid = .ok key) ∧
      (named.hashingAlgo = .sha256 ∨ named.hashingAlgo = .sha512)

/-- The signature is made with a key that has not the 2048 bits its algorithm names. -/
def OtherSize (c : Atchops) (key : ApskSigningKey) (h : HashingAlgoType) (signed signature : String) : Prop :=
  ∃ publicKey raw, c.populatePublicKey key.pub = some publicKey ∧ c.base64Decode signature = some raw ∧
    publicKey.bits ≠ 2048 ∧ c.signs publicKey h signed raw = true

omit hl in
theorem verifyRsa_none {key : ApskSigningKey} {h : HashingAlgoType} {signed signature : String} :
    c.verifyRsa (ApskKey.of key) signed signature h = none ↔
      ∃ publicKey raw, c.populatePublicKey key.pub = some publicKey ∧ c.base64Decode signature = some raw ∧
        c.signs publicKey h signed raw = true := by
  have hpub : (ApskKey.of key).pub = key.pub := rfl
  rw [Atchops.verifyRsa, hpub]
  cases c.populatePublicKey key.pub with
  | none =>
    refine iff_of_false (Option.some_ne_none _) ?_
    rintro ⟨_, _, hkey, _⟩
    cases hkey
  | some publicKey =>
    cases c.base64Decode signature with
    | none =>
      refine iff_of_false (Option.some_ne_none _) ?_
      rintro ⟨_, _, _, hraw, _⟩
      cases hraw
    | some raw =>
      simp only [Option.some.injEq, exists_and_left, exists_eq_left', Atchops.signs, Bool.and_eq_true, beq_iff_eq]
      split
      · rename_i hnot
        refine iff_of_false (Option.some_ne_none _) fun hsigns => ?_
        exact hnot.elim (fun hlength => hlength hsigns.1) fun hfails => hfails hsigns.2
      · rename_i hnot
        rw [not_or, not_not, not_not] at hnot
        exact iff_of_true rfl hnot

/-- Dart verifies a signature where C does and the key is of 2048 bits. -/
theorem rsaVerifyString_ok {key : ApskSigningKey} {h : HashingAlgoType} (hhash : h = .sha256 ∨ h = .sha512)
    (signed signature : String) :
    ∃ b, sdk.rsaVerifyString signed signature key.pub h = .ok b ∧ (b = true ↔
      ∃ publicKey raw, c.populatePublicKey key.pub = some publicKey ∧ c.base64Decode signature = some raw ∧
        publicKey.bits = 2048 ∧ c.signs publicKey h signed raw = true) := by
  have htakes : ¬(!sdk.rsa2048Hashing h) = true := by
    rw [(hl.hashing h).mpr hhash]
    exact Bool.false_ne_true
  rw [Sdk.rsaVerifyString, if_neg htakes, ← hl.base64Decode, ← hl.base64Decode]
  cases c.base64Decode signature with
  | none =>
    refine ⟨false, rfl, iff_of_false Bool.false_ne_true ?_⟩
    rintro ⟨_, _, _, hraw, _⟩
    cases hraw
  | some raw =>
    cases hpub : c.base64Decode key.pub with
    | none =>
      refine ⟨false, rfl, iff_of_false Bool.false_ne_true ?_⟩
      rintro ⟨publicKey, _, hkey, _⟩
      have hdecodes := hl.populate _ _ hkey
      rw [hpub] at hdecodes
      cases hdecodes
    | some publicKeyBytes =>
      refine ⟨_, hl.verifyBytes _ _ h signed raw hhash ((hl.base64Decode _).symm.trans hpub), ?_⟩
      cases c.populatePublicKey key.pub with
      | none =>
        refine iff_of_false Bool.false_ne_true ?_
        rintro ⟨_, _, hkey, _⟩
        cases hkey
      | some publicKey =>
        simp only [Option.any_some, Bool.and_eq_true, beq_iff_eq, Option.some.injEq, exists_and_left,
          exists_eq_left']

/-- The two part on a signature where it is of a key of another size. -/
theorem rsaVerifyString_agree (key : ApskSigningKey) {h : HashingAlgoType} (hhash : h = .sha256 ∨ h = .sha512)
    (signed signature : String) :
    ∃ b, sdk.rsaVerifyString signed signature key.pub h = .ok b ∧
      ((b = true ↔ c.verifyRsa (ApskKey.of key) signed signature h = none) ↔ ¬OtherSize c key h signed signature) := by
  obtain ⟨b, hb, hverified⟩ := rsaVerifyString_ok hl hhash signed signature
  refine ⟨b, hb, ?_⟩
  rw [hverified, verifyRsa_none]
  constructor
  · rintro hsame ⟨publicKey, raw, hkey, hraw, hbits, hsigns⟩
    obtain ⟨other, -, hother, -, hsize, -⟩ := hsame.mpr ⟨publicKey, raw, hkey, hraw, hsigns⟩
    obtain rfl := Option.some.inj (hother.symm.trans hkey)
    exact hbits hsize
  · intro hnone
    constructor
    · rintro ⟨publicKey, raw, hkey, hraw, -, hsigns⟩
      exact ⟨publicKey, raw, hkey, hraw, hsigns⟩
    · rintro ⟨publicKey, raw, hkey, hraw, hsigns⟩
      refine ⟨publicKey, raw, hkey, hraw, ?_, hsigns⟩
      by_contra hbits
      exact hnone ⟨publicKey, raw, hkey, hraw, hbits, hsigns⟩

/-- The Dart verdict on a record that was found and a signature that is a text. -/
def dartRecord (sdk : Sdk) (canonical apsk signed signature : String) (named : Named) :
    Except Failure (Option String) := do
  sdk.verifyApskSignature canonical apsk signed signature .rsa2048 named.hashingAlgo named.kid
  return some canonical

/-- With the record found, only a payload that is missing parts the verdicts, or a key of another size, and
only once a key and a hash to verify it with are settled. -/
theorem record_agree (canonical signature : String) (named : Named) (payload : Option Json)
    {apsk : String} (htrim : stripped apsk = trim apsk) :
    (c.verifyRecord canonical apsk named.hashingAlgo.name signature named.kid payload).verdict =
        dartVerdict (dartRecord sdk canonical apsk (sdk.jsonEncode (payload.getD .null)) signature
          named) ↔
      ∀ key, Reaches sdk canonical apsk named key →
        ∃ p, payload = some p ∧ ¬OtherSize c key named.hashingAlgo (c.printUnformatted p) signature := by
  rcases activeApskKeys_agree hl canonical htrim with ⟨keys, hd, hc, hne, hkeys⟩ | ⟨⟨m, hd⟩, why, hc⟩
  swap
  · simp only [Atchops.verifyRecord, hc, error_bind, dartRecord, Sdk.verifyApskSignature, hd]
    refine iff_of_true rfl fun key hreach => ?_
    obtain ⟨⟨keys, hk, -⟩, -⟩ := hreach
    rw [hd] at hk
    cases hk
  rcases keyFor_agree hl canonical named.kid hne hkeys with ⟨key, hdk, hck⟩ | ⟨⟨m, hdk⟩, why, hck⟩
  swap
  · simp only [Atchops.verifyRecord, hc, ok_bind, hck, dartRecord, Sdk.verifyApskSignature, hd,
      hdk, error_bind]
    refine iff_of_true rfl fun key hreach => ?_
    obtain ⟨⟨keys', hk, hkey⟩, -⟩ := hreach
    obtain rfl := Except.ok.inj (hk.symm.trans hd)
    rw [hdk] at hkey
    cases hkey
  simp only [Atchops.verifyRecord, hc, ok_bind, hck, dartRecord, Sdk.verifyApskSignature, hd, hdk,
    Sdk.checkSignature, Sdk.signatureVerifies]
  by_cases hhash : named.hashingAlgo = .sha256 ∨ named.hashingAlgo = .sha512
  · have hreach : Reaches sdk canonical apsk named key := ⟨⟨keys, hd, hdk⟩, hhash⟩
    have honly : ∀ other, Reaches sdk canonical apsk named other → other = key := by
      rintro other ⟨⟨keys', hk, hkey⟩, -⟩
      obtain rfl := Except.ok.inj (hk.symm.trans hd)
      exact Except.ok.inj (hkey.symm.trans hdk)
    have hsome : hashing? named.hashingAlgo.name = some named.hashingAlgo := by
      rcases hhash with h | h <;> rw [h] <;> rfl
    obtain ⟨b, hb, hagree⟩ := rsaVerifyString_agree hl key hhash (sdk.jsonEncode (payload.getD .null)) signature
    simp only [hb]
    cases payload with
    | none =>
      simp only [hsome]
      refine iff_of_false ?_ fun h => ?_
      · cases b with
        | true =>
          show Verdict.unchecked ≠ .verified canonical
          exact Verdict.noConfusion
        | false =>
          show Verdict.unchecked ≠ .refused
          exact Verdict.noConfusion
      · obtain ⟨p, hp, -⟩ := h key hreach
        cases hp
    | some p =>
      rw [Option.getD_some] at hagree
      have hmeets : (∀ other, Reaches sdk canonical apsk named other → ∃ q, some p = some q ∧
          ¬OtherSize c other named.hashingAlgo (c.printUnformatted q) signature) ↔
            ¬OtherSize c key named.hashingAlgo (sdk.jsonEncode p) signature := by
        rw [← hl.print]
        constructor
        · intro h
          obtain ⟨q, hq, hsize⟩ := h key hreach
          obtain rfl := Option.some.inj hq
          exact hsize
        · intro hsize other hother
          rw [honly other hother]
          exact ⟨p, rfl, hsize⟩
      rw [hmeets, ← hagree]
      simp only [hsome, hl.print]
      cases hc : c.verifyRsa (ApskKey.of key) (sdk.jsonEncode p) signature named.hashingAlgo with
      | none =>
        cases b with
        | true => exact iff_of_true rfl (iff_of_true rfl rfl)
        | false =>
          refine iff_of_false ?_ fun h => Bool.false_ne_true (h.mpr rfl)
          show Verdict.verified canonical ≠ .refused
          exact Verdict.noConfusion
      | some why =>
        cases b with
        | true =>
          refine iff_of_false ?_ fun h => Option.some_ne_none why (h.mp rfl)
          show Verdict.refused ≠ .verified canonical
          exact Verdict.noConfusion
        | false => exact iff_of_true rfl (iff_of_false Bool.false_ne_true (Option.some_ne_none why))
  · have hnone : hashing? named.hashingAlgo.name = none := by
      cases hh : named.hashingAlgo <;> simp [hh] at hhash <;> rfl
    rw [not_or] at hhash
    have hrefuses : sdk.rsaVerifyString (sdk.jsonEncode (payload.getD .null)) signature key.pub named.hashingAlgo =
        .ok false := by
      have htakes : sdk.rsa2048Hashing named.hashingAlgo = false :=
        Bool.eq_false_iff.mpr fun h => (not_or.mpr hhash) ((hl.hashing _).mp h)
      rw [Sdk.rsaVerifyString, htakes]
      rfl
    simp only [hnone, hrefuses]
    refine iff_of_true rfl fun _ hreach => ?_
    exact absurd hreach.2 (not_or.mpr hhash)

omit hl in
/-- A uri of the shape, lowered alike, has one canonical form. -/
theorem canonical_agree {uri : String} (hshape : signingKeyUriShape uri = true)
    (hlower : sdk.toLowerCase uri = lowerAscii uri) :
    sdk.canonicalSigningKeyUri uri = canonicalUri uri := by
  have hpub : "public:".toList.map Char.toLower = "public:".toList := by decide
  have hdrop : dropPrefix "public:".toList (uri.toList.map Char.toLower) =
      (dropPrefix "public:".toList uri.toList).map Char.toLower := by
    cases hs : stripPrefix? "public:".toList uri.toList with
    | some r =>
      have hmap : stripPrefix? "public:".toList (uri.toList.map Char.toLower) =
          some (r.map Char.toLower) := by
        rw [stripPrefix?_eq_some, stripPrefix?_eq_some.mp hs, List.map_append, hpub]
      rw [dropPrefix, dropPrefix, hs, hmap]
      rfl
    | none =>
      -- The uri then starts with `_apsk.`, in lower case too.
      have hu : dropPrefix "public:".toList uri.toList = uri.toList := by rw [dropPrefix, hs]; rfl
      unfold signingKeyUriShape keyUriShape at hshape
      rw [hu] at hshape ⊢
      split at hshape
      · cases hshape
      · rename_i rest hrest
        rw [stripPrefix?_eq_some.mp hrest]
        rfl
  refine String.toList_inj.mp ?_
  simp only [Sdk.canonicalSigningKeyUri, canonicalUri, lowerAscii, hlower, String.toList_append,
    String.toList_ofList, List.map_append, hpub, hdrop]

/-- The two daemons read the texts alike: whether the key is the requester's,
where its record is, and what the record holds. -/
structure ReadAlike (sdk : Sdk) (lookup : String → PublicLookupResult) (requester : String)
    (field : List (String × Json)) : Prop where
  named : ∀ named, WellNamed isSigningKeyUri lowerAscii requester field named ↔
    WellNamed signingKeyUriShape sdk.toLowerCase requester field named
  canonical : ∀ named, WellNamed signingKeyUriShape sdk.toLowerCase requester field named →
    sdk.canonicalSigningKeyUri named.uri = canonicalUri named.uri
  value : ∀ named apsk, WellNamed signingKeyUriShape sdk.toLowerCase requester field named →
    lookup (canonicalUri named.uri) = .found apsk → stripped apsk = trim apsk

/-- What parts the daemons otherwise: a signature that is no text while the
record is not found, and, once there is a key to verify it with, a payload that is not there or a signature that
is made with a key of another size. -/
def Meets (sdk : Sdk) (c : Atchops) (lookup : String → PublicLookupResult) (requester : String)
    (envelope field : List (String × Json)) : Prop :=
  ∀ named, WellNamed signingKeyUriShape sdk.toLowerCase requester field named →
    ((∃ s, Json.field field "s" = .str s) ∨ ∃ apsk, lookup (canonicalUri named.uri) = .found apsk) ∧
      ∀ s apsk key, Json.field field "s" = .str s → lookup (canonicalUri named.uri) = .found apsk →
        Reaches sdk (canonicalUri named.uri) apsk named key → ∃ payload, envelope.lookup "payload" = some payload ∧
          ¬OtherSize c key named.hashingAlgo (c.printUnformatted payload) s

omit hl in
/-- Texts that both lower and trim alike, and whose atSign has no white space
beyond ASCII's, are read alike. -/
theorem readAlike_of_lower {lookup : String → PublicLookupResult} {requester : String}
    {field : List (String × Json)} (hrequester : sdk.toLowerCase requester = lowerAscii requester)
    (huri : ∀ uri, Json.field field "sk" = .str uri →
      isSigningKeyUri uri = signingKeyUriShape uri ∧ sdk.toLowerCase uri = lowerAscii uri ∧
        sdk.toLowerCase (String.ofList (fromLast '@' uri.toList)) =
          lowerAscii (String.ofList (fromLast '@' uri.toList)))
    (hvalue : ∀ uri apsk, lookup uri = .found apsk → stripped apsk = trim apsk) :
    ReadAlike sdk lookup requester field := by
  refine ⟨fun named => ⟨fun h => ?_, fun h => ?_⟩, fun named h => ?_, fun named apsk _ hf =>
    hvalue _ apsk hf⟩
  · obtain ⟨hshape, -, howner⟩ := huri _ h.sk
    exact ⟨h.sk, hshape ▸ h.shaped, (howner.trans h.owner).trans hrequester.symm, h.sa, h.supported,
      h.ha, h.kid⟩
  · obtain ⟨hshape, -, howner⟩ := huri _ h.sk
    exact ⟨h.sk, hshape.trans h.shaped, (howner.symm.trans h.owner).trans hrequester, h.sa,
      h.supported, h.ha, h.kid⟩
  · exact canonical_agree h.shaped (huri _ h.sk).2.1

/-- The C check and the Dart check of one request give one verdict. -/
def Agrees (sdk : Sdk) (c : Atchops) (lookup : String → PublicLookupResult) (requester : String)
    (envelope : List (String × Json)) : Prop :=
  (c.verifyEnrollmentSignature lookup requester envelope).verdict =
    dartVerdict (sdk.verifyEnrollmentSignature (dartLookup lookup) requester envelope)

/-- With the signature a text and the record found, they agree where it comes to the key. -/
theorem agrees_of_found {lookup : String → PublicLookupResult} {requester s apsk : String}
    {envelope field : List (String × Json)} {named : Named}
    (hfield : Json.field envelope enrollmentSignatureField = .obj field)
    (ha : ReadAlike sdk lookup requester field)
    (hn : WellNamed signingKeyUriShape sdk.toLowerCase requester field named)
    (hrsa : named.signingAlgo = .rsa2048) (hs : Json.field field "s" = .str s)
    (hlook : lookup (canonicalUri named.uri) = .found apsk) :
    Agrees sdk c lookup requester envelope ↔ ∀ key, Reaches sdk (canonicalUri named.uri) apsk named key →
      ∃ p, envelope.lookup "payload" = some p ∧ ¬OtherSize c key named.hashingAlgo (c.printUnformatted p) s := by
  have hread : readField requester field = .ok (named.uri, named.hashingAlgo.name, s, named.kid) :=
    readField_ok.mpr ⟨named, (ha.named named).mpr hn, hrsa, hs, rfl, rfl, rfl⟩
  unfold Agrees Atchops.verifyEnrollmentSignature Sdk.verifyEnrollmentSignature
  simp only [hfield, dart_readField_ok.mpr hn, ok_bind, ha.canonical named hn, hread, dartLookup, hlook,
    dart_text_ok.mpr hs, hrsa]
  exact record_agree hl (canonicalUri named.uri) s named (envelope.lookup "payload") (ha.value named apsk hn hlook)

/-- Where both read the texts alike, they agree on a request not signed with
ML-DSA just when nothing parts them. -/
theorem verifyEnrollmentSignature_agree (lookup : String → PublicLookupResult)
    (requester : String) (envelope : List (String × Json))
    (hmldsa : ∀ field, Json.field envelope enrollmentSignatureField = .obj field →
      Json.field field "sa" ≠ .str "mldsa65")
    (halike : ∀ field, Json.field envelope enrollmentSignatureField = .obj field →
      ReadAlike sdk lookup requester field) :
    Agrees sdk c lookup requester envelope ↔
      ∀ field, Json.field envelope enrollmentSignatureField = .obj field →
        Meets sdk c lookup requester envelope field := by
  have hunfolded : Agrees sdk c lookup requester envelope ↔
      (c.verifyEnrollmentSignature lookup requester envelope).verdict =
        dartVerdict (sdk.verifyEnrollmentSignature (dartLookup lookup) requester envelope) := Iff.rfl
  cases hfield : Json.field envelope enrollmentSignatureField with
  | obj field =>
    have ha := halike field hfield
    have hsa := hmldsa field hfield
    simp only [Json.obj.injEq, forall_eq']
    rw [Atchops.verifyEnrollmentSignature, Sdk.verifyEnrollmentSignature] at hunfolded
    simp only [hfield] at hunfolded
    by_cases hnamed : ∃ named, WellNamed signingKeyUriShape sdk.toLowerCase requester field named
    swap
    · -- Both refuse before the lookup.
      have hd : ∃ e, sdk.readField requester field = .error e ∧ dartVerdict (.error e) = .refused := by
        cases hread : sdk.readField requester field with
        | ok named => exact absurd ⟨named, dart_readField_ok.mp hread⟩ hnamed
        | error e => exact ⟨e, rfl, dart_readField_error hread⟩
      have hc : ∃ why, readField requester field = .error why := by
        cases hread : readField requester field with
        | ok r =>
          obtain ⟨uri, h, s, kid⟩ := r
          obtain ⟨named, hn, -⟩ := readField_ok.mp hread
          exact absurd ⟨named, (ha.named named).mp hn⟩ hnamed
        | error why => exact ⟨why, rfl⟩
      obtain ⟨e, he, hrefused⟩ := hd
      obtain ⟨why, hwhy⟩ := hc
      rw [hunfolded]
      simp only [he, hwhy, error_bind]
      exact iff_of_true hrefused.symm fun named h => absurd ⟨named, h⟩ hnamed
    obtain ⟨named, hn⟩ := hnamed
    have hrsa : named.signingAlgo = .rsa2048 := by
      have hsup : named.signingAlgo = .rsa2048 ∨ named.signingAlgo = .mldsa65 := by
        simpa [escrSigningAlgorithms] using hn.supported
      refine hsup.resolve_right fun hm => hsa ?_
      rw [hn.sa, hm]
      rfl
    have hcan := ha.canonical named hn
    have huniq : ∀ named', WellNamed signingKeyUriShape sdk.toLowerCase requester field named' →
        named' = named := fun named' h' =>
      Except.ok.inj ((dart_readField_ok.mpr h').symm.trans (dart_readField_ok.mpr hn))
    have hmeets : Meets sdk c lookup requester envelope field ↔
        ((∃ s, Json.field field "s" = .str s) ∨
            ∃ apsk, lookup (canonicalUri named.uri) = .found apsk) ∧
          ∀ s apsk key, Json.field field "s" = .str s → lookup (canonicalUri named.uri) = .found apsk →
            Reaches sdk (canonicalUri named.uri) apsk named key →
              ∃ payload, envelope.lookup "payload" = some payload ∧
                ¬OtherSize c key named.hashingAlgo (c.printUnformatted payload) s :=
      ⟨fun h => h named hn, fun h named' h' => huniq named' h' ▸ h⟩
    rw [hmeets]
    by_cases hs : ∃ s, Json.field field "s" = .str s
    · obtain ⟨s, hs⟩ := hs
      have hread : readField requester field =
          .ok (named.uri, named.hashingAlgo.name, s, named.kid) :=
        readField_ok.mpr ⟨named, (ha.named named).mpr hn, hrsa, hs, rfl, rfl, rfl⟩
      simp only [dart_readField_ok.mpr hn, ok_bind, hcan, hread, dartLookup] at hunfolded
      cases hlook : lookup (canonicalUri named.uri) with
      | found apsk =>
        rw [agrees_of_found hl hfield ha hn hrsa hs hlook]
        refine ⟨fun h => ⟨Or.inl ⟨s, hs⟩, fun s' apsk' key hs' heq hreach => ?_⟩, fun h key hreach =>
          h.2 s apsk key hs rfl hreach⟩
        cases heq
        obtain rfl : s = s' := Json.str.inj (hs.symm.trans hs')
        exact h key hreach
      | notFound =>
        simp only [hlook] at hunfolded
        exact iff_of_true (hunfolded.mpr rfl) ⟨Or.inl ⟨s, hs⟩, fun _ _ _ _ h => (nomatch h)⟩
      | notServed =>
        simp only [hlook] at hunfolded
        exact iff_of_true (hunfolded.mpr rfl) ⟨Or.inl ⟨s, hs⟩, fun _ _ _ _ h => (nomatch h)⟩
      | failed =>
        simp only [hlook] at hunfolded
        exact iff_of_true (hunfolded.mpr rfl) ⟨Or.inl ⟨s, hs⟩, fun _ _ _ _ h => (nomatch h)⟩
    · have hread : ∃ why, readField requester field = .error why := by
        cases hread : readField requester field with
        | ok r =>
          obtain ⟨uri, h, s, kid⟩ := r
          obtain ⟨named', -, -, hs', -⟩ := readField_ok.mp hread
          exact absurd ⟨s, hs'⟩ hs
        | error why => exact ⟨why, rfl⟩
      obtain ⟨why, hwhy⟩ := hread
      rw [hunfolded]
      simp only [dart_readField_ok.mpr hn, ok_bind, hcan, hwhy, dartLookup]
      cases hlook : lookup (canonicalUri named.uri) with
      | found apsk =>
        have htext : ∃ e, Signing.text field "s" = .error e ∧ dartVerdict (.error e) = .refused := by
          cases htext : Signing.text field "s" with
          | ok s => exact absurd ⟨s, dart_text_ok.mp htext⟩ hs
          | error e => exact ⟨e, rfl, dart_text_error htext⟩
        obtain ⟨e, he, hrefused⟩ := htext
        simp only [ok_bind, he, error_bind]
        exact iff_of_true hrefused.symm
          ⟨Or.inr ⟨apsk, rfl⟩, fun s _ _ hs' => absurd ⟨s, hs'⟩ hs⟩
      | notFound =>
        refine iff_of_false ?_ fun h => h.1.elim hs fun ⟨_, h⟩ => (nomatch h)
        exact (Verdict.noConfusion : Verdict.refused ≠ .unchecked)
      | notServed =>
        refine iff_of_false ?_ fun h => h.1.elim hs fun ⟨_, h⟩ => (nomatch h)
        exact (Verdict.noConfusion : Verdict.refused ≠ .unchecked)
      | failed =>
        refine iff_of_false ?_ fun h => h.1.elim hs fun ⟨_, h⟩ => (nomatch h)
        exact (Verdict.noConfusion : Verdict.refused ≠ .unchecked)
  | _ =>
    rw [hunfolded, Atchops.verifyEnrollmentSignature, Sdk.verifyEnrollmentSignature]
    simp only [hfield]
    exact iff_of_true rfl fun field h => (nomatch h)

end

/-! Libraries that agree, and requests that part the daemons. -/

/-- A key is its modulus, which it makes for a signature of everything. -/
def agreeingAtchops : Atchops where
  parse := Json.read
  printUnformatted := Json.compactEncode
  base64Decode s := Base64.decode (s.toList.map fun c => UInt8.ofNat c.toNat)
  sha256 bytes := some ((bytes ++ List.replicate 32 0).take 32)
  populatePublicKey pub :=
    (Base64.decode (pub.toList.map fun c => UInt8.ofNat c.toNat)).map fun n => ⟨n, [1, 0, 1]⟩
  rsaVerify key _ _ signature := signature == key.n

def agreeingSdk : Sdk where
  jsonDecode s := (Json.read s).elim (.error "Unexpected character") .ok
  jsonEncode := Json.compactEncode
  base64Decode := agreeingAtchops.base64Decode
  apskSigningKeys fields := .ok (advertisementKeys fields)
  publicKeyKidOfBase64 pub := (agreeingAtchops.kidOf pub).elim (.error "Invalid character") .ok
  rank := sampleSdk.rank
  mlDsaVerify _ _ _ := .ok false
  rsa2048Hashing h := h == .sha256 || h == .sha512
  verifyBytes h data signature publicKey :=
    let key : RsaPublicKey := ⟨publicKey, [1, 0, 1]⟩
    .ok (key.bits == 2048 && agreeingAtchops.signs key h data signature)
  toLowerCase := lowerAscii

theorem agreeing_librariesAgree : LibrariesAgree agreeingSdk agreeingAtchops where
  parse s := by
    change Json.read s = Except.toOption ((Json.read s).elim (.error "Unexpected character") .ok)
    cases Json.read s <;> rfl
  print _ := rfl
  base64Decode _ := rfl
  kid pub := by
    change agreeingAtchops.kidOf pub =
      Except.toOption ((agreeingAtchops.kidOf pub).elim (.error "Invalid character") .ok)
    cases agreeingAtchops.kidOf pub <;> rfl
  populate pub key hkey := by
    obtain ⟨n, hn, -⟩ := Option.map_eq_some_iff.mp hkey
    exact Option.isSome_iff_exists.mpr ⟨n, hn⟩
  hashing h := by
    cases h <;> decide
  verifyBytes pub publicKey h signed signature _ hpub := by
    have hkey : agreeingAtchops.populatePublicKey pub = some ⟨publicKey, [1, 0, 1]⟩ :=
      Option.map_eq_some_iff.mpr ⟨publicKey, hpub, rfl⟩
    rw [hkey]
    rfl
  advertisement _ := rfl
  rank := by decide

/-- The base64 of a key with a modulus of `n` bytes, and of its signatures. -/
def keyText (n : ℕ) : String :=
  String.ofList ((Base64.encode (128 :: List.replicate (n - 1) 1)).map fun b => Char.ofNat b.toNat)

theorem base64Decode_keyText (n : ℕ) :
    agreeingAtchops.base64Decode (keyText n) = some (128 :: List.replicate (n - 1) 1) := by
  change Base64.decode ((keyText n).toList.map fun c => UInt8.ofNat c.toNat) = _
  rw [keyText, String.toList_ofList, bytes_of_chars, Base64.decode_encode]

/-- Nothing is trimmed off a key, which is no advertisement. -/
theorem trim_keyText (n : ℕ) : stripped (keyText n) = keyText n ∧ trim (keyText n) = keyText n ∧
    (keyText n).toList.head? ≠ some '{' := by
  have hplain : ∀ c ∈ (keyText n).toList, [' ', '\t', '\r', '\n'].contains c = false ∧
      (isWhitespace c || c.toNat == 0x85) = false ∧ c ≠ '{' := by
    have hall : ∀ m : Fin 128, Base64.isChar (UInt8.ofNat m) = true →
        [' ', '\t', '\r', '\n'].contains (Char.ofNat m) = false ∧
          (isWhitespace (Char.ofNat m) || (Char.ofNat m).toNat == 0x85) = false ∧ Char.ofNat m ≠ '{' := by
      decide +kernel
    intro c hc
    rw [keyText, String.toList_ofList] at hc
    obtain ⟨b, hb, rfl⟩ := List.mem_map.mp hc
    have hchar := Base64.isChar_of_mem_encode hb
    have hlt : b.toNat < 128 := by
      have hcases := Base64.isChar_cases hchar
      omega
    exact hall ⟨b.toNat, hlt⟩ (by rw [UInt8.ofNat_toNat]; exact hchar)
  refine ⟨?_, ?_, fun hbrace => (hplain _ (List.mem_of_mem_head? hbrace)).2.2 rfl⟩
  · rw [stripped, trimBy_eq_self fun c hc => (hplain c hc).1, String.ofList_toList]
  · rw [trim, trimBy_eq_self fun c hc => (hplain c hc).2.1, String.ofList_toList]

/-- The record of a bare key has that key. -/
theorem reaches_keyText (canonical : String) (n : ℕ) (named : Named) (hkid : named.kid = none)
    (hhash : named.hashingAlgo = .sha256) : ∃ key, Reaches agreeingSdk canonical (keyText n) named key ∧
      key.pub = keyText n ∧ ∀ other, Reaches agreeingSdk canonical (keyText n) named other → other = key := by
  obtain ⟨-, htrim, hbrace⟩ := trim_keyText n
  obtain ⟨kid, hkidOf⟩ : ∃ kid, agreeingSdk.publicKeyKidOfBase64 (keyText n) = .ok kid := by
    change ∃ kid, (agreeingAtchops.kidOf (keyText n)).elim (.error "Invalid character") Except.ok = .ok kid
    rw [Atchops.kidOf, base64Decode_keyText]
    exact ⟨_, rfl⟩
  have hactive : agreeingSdk.activeApskKeys canonical (keyText n) = .ok [⟨kid, .rsa2048, keyText n, true⟩] := by
    rw [Sdk.activeApskKeys, Sdk.advertised, htrim, if_neg hbrace, Sdk.forPublicKey, hkidOf]
    rfl
  have hkey : agreeingSdk.keyFor canonical [⟨kid, .rsa2048, keyText n, true⟩] .rsa2048 none =
      .ok ⟨kid, .rsa2048, keyText n, true⟩ := rfl
  refine ⟨⟨kid, .rsa2048, keyText n, true⟩, ⟨⟨_, hactive, hkid ▸ hkey⟩, Or.inl hhash⟩, rfl, ?_⟩
  rintro other ⟨⟨keys, hkeys, hother⟩, -⟩
  obtain rfl := Except.ok.inj (hkeys.symm.trans hactive)
  rw [hkid] at hother
  exact Except.ok.inj (hother.symm.trans hkey)

theorem bits_keyText : (RsaPublicKey.mk (128 :: List.replicate 255 1) [1, 0, 1]).bits = 2048 ∧
    (RsaPublicKey.mk (128 :: List.replicate 127 1) [1, 0, 1]).bits = 1024 := by
  decide +kernel

theorem populatePublicKey_keyText (n : ℕ) :
    agreeingAtchops.populatePublicKey (keyText n) = some ⟨128 :: List.replicate (n - 1) 1, [1, 0, 1]⟩ :=
  congrArg (Option.map fun n : List UInt8 => RsaPublicKey.mk n [1, 0, 1]) (base64Decode_keyText n)

/-- A request of `@alice`, with the members of its enrollment signature. -/
def requestSigned (payload more : List (String × Json)) : List (String × Json) :=
  payload ++ [(enrollmentSignatureField, .obj ([("sk", .str "public:_apsk.1.a.__e@alice"),
    ("sa", .str "rsa2048"), ("ha", .str "sha256")] ++ more))]

def payloadMember : List (String × Json) := [("payload", .obj [("sessionId", .str "1")])]

theorem readAlike_requestSigned (n : ℕ) (more : List (String × Json)) :
    ReadAlike agreeingSdk (fun _ => .found (keyText n)) "@alice"
      ([("sk", .str "public:_apsk.1.a.__e@alice"), ("sa", .str "rsa2048"),
        ("ha", .str "sha256")] ++ more) := by
  refine readAlike_of_lower rfl (fun uri huri => ?_) fun uri apsk hf => ?_
  · obtain rfl : "public:_apsk.1.a.__e@alice" = uri := Json.str.inj huri
    exact ⟨by decide, rfl, rfl⟩
  · obtain rfl : keyText n = apsk := PublicLookupResult.found.inj hf
    obtain ⟨hstripped, htrim, -⟩ := trim_keyText n
    exact hstripped.trans htrim.symm

/-- The enrollment signature of the sample requests. -/
def sampleNamed : Named := ⟨"public:_apsk.1.a.__e@alice", .rsa2048, .sha256, none⟩

theorem wellNamed_sample (s : String) :
    WellNamed signingKeyUriShape agreeingSdk.toLowerCase "@alice" ([("sk", .str "public:_apsk.1.a.__e@alice"),
      ("sa", .str "rsa2048"), ("ha", .str "sha256")] ++ [("s", .str s)]) sampleNamed :=
  ⟨rfl, by decide +kernel, by decide +kernel, rfl, List.mem_cons_self, rfl, rfl⟩

theorem verifyEnrollmentSignature_agree_found :
    Agrees agreeingSdk agreeingAtchops (fun _ => .found (keyText 256)) "@alice"
        (requestSigned payloadMember [("s", .str (keyText 256))]) := by
  refine (verifyEnrollmentSignature_agree agreeing_librariesAgree _ _ _ ?_ ?_).mpr ?_
  · intro field hf h
    obtain rfl := Json.obj.inj hf
    exact absurd (Json.str.inj h) (by decide)
  · intro field hf
    obtain rfl := Json.obj.inj hf
    exact readAlike_requestSigned 256 _
  · intro field hf named hnamed
    obtain rfl := Json.obj.inj hf
    have hkid : named.kid = none := by
      have hnull := hnamed.kid
      cases hk : named.kid with
      | none => rfl
      | some kid =>
        rw [hk] at hnull
        cases hnull
    have hhash : named.hashingAlgo = .sha256 := by
      have hha := Json.str.inj hnamed.ha
      exact Option.some.inj ((hashingAlgo_byName.mpr hha).symm.trans (by decide))
    refine ⟨Or.inl ⟨_, rfl⟩, ?_⟩
    intro s apsk other hs hfound hreach
    obtain rfl := PublicLookupResult.found.inj hfound
    obtain ⟨key, -, hpub, honly⟩ := reaches_keyText (canonicalUri named.uri) 256 named hkid hhash
    refine ⟨_, rfl, ?_⟩
    rintro ⟨publicKey, raw, hkey, -, hbits, -⟩
    rw [honly other hreach, hpub, populatePublicKey_keyText] at hkey
    rw [← Option.some.inj hkey] at hbits
    exact hbits bits_keyText.1

/-- Without a signature and without the record, C refuses and Dart leaves the
request unchecked; with the record but no payload it is C that leaves it so; and C verifies with a key of 1024 bits,
which Dart refuses. -/
theorem verifyEnrollmentSignature_part : LibrariesAgree agreeingSdk agreeingAtchops ∧
    ¬Agrees agreeingSdk agreeingAtchops (fun _ => .notFound) "@alice" (requestSigned payloadMember []) ∧
      ¬Agrees agreeingSdk agreeingAtchops (fun _ => .found (keyText 256)) "@alice"
        (requestSigned [] [("s", .str (keyText 256))]) ∧
      ¬Agrees agreeingSdk agreeingAtchops (fun _ => .found (keyText 128)) "@alice"
        (requestSigned payloadMember [("s", .str (keyText 128))]) := by
  refine ⟨agreeing_librariesAgree, ?_, ?_, ?_⟩
  · exact (Verdict.noConfusion : Verdict.refused ≠ .unchecked)
  · intro hagrees
    obtain ⟨key, hreach, -⟩ := reaches_keyText (canonicalUri sampleNamed.uri) 256 sampleNamed rfl rfl
    obtain ⟨p, hp, -⟩ := (agrees_of_found agreeing_librariesAgree rfl (readAlike_requestSigned 256 _) (wellNamed_sample _)
      rfl rfl rfl).mp hagrees key hreach
    cases hp
  · intro hagrees
    obtain ⟨key, hreach, hpub, -⟩ := reaches_keyText (canonicalUri sampleNamed.uri) 128 sampleNamed rfl rfl
    obtain ⟨p, hp, hsize⟩ := (agrees_of_found agreeing_librariesAgree rfl (readAlike_requestSigned 128 _)
      (wellNamed_sample _) rfl rfl rfl).mp hagrees key hreach
    apply hsize
    refine ⟨_, _, hpub ▸ populatePublicKey_keyText 128, base64Decode_keyText 128, ?_, ?_⟩
    · rw [bits_keyText.2]
      decide
    · rw [Atchops.signs, Bool.and_eq_true]
      exact ⟨by decide +kernel, beq_self_eq_true _⟩

end NoPorts.CDaemon
