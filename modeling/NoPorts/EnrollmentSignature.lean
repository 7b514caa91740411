import NoPorts.Lib.Json
import NoPorts.Lib.Except
import NoPorts.Lib.Text

/-! Signatures by enrollment keys: which key of an `_apsk` record a signature
is verified with, and the enrollment signature of a request. -/
namespace NoPorts.Signing
open Lib

/-! `SigningAlgoType` and `HashingAlgoType`, by the names they go by on the wire. -/

inductive SigningAlgoType where
  | ecc_secp256r1 | rsa2048 | rsa4096 | ed25519 | mldsa65
  deriving DecidableEq, Repr

def SigningAlgoType.name : SigningAlgoType → String
  | ecc_secp256r1 => "ecc_secp256r1"
  | rsa2048 => "rsa2048"
  | rsa4096 => "rsa4096"
  | ed25519 => "ed25519"
  | mldsa65 => "mldsa65"

def SigningAlgoType.values : List SigningAlgoType :=
  [.ecc_secp256r1, .rsa2048, .rsa4096, .ed25519, .mldsa65]

def SigningAlgoType.byName? (name : String) : Option SigningAlgoType :=
  values.find? (·.name == name)

inductive HashingAlgoType where
  | sha256 | sha512 | md5 | argon2id
  deriving DecidableEq, Repr

def HashingAlgoType.name : HashingAlgoType → String
  | sha256 => "sha256"
  | sha512 => "sha512"
  | md5 => "md5"
  | argon2id => "argon2id"

def HashingAlgoType.values : List HashingAlgoType := [.sha256, .sha512, .md5, .argon2id]

def HashingAlgoType.byName? (name : String) : Option HashingAlgoType :=
  values.find? (·.name == name)

def escrSigningAlgorithms : List SigningAlgoType := [.rsa2048, .mldsa65]

/-- What the verification of a signature throws. -/
inductive Failure where
  | apskSignature (message : String)
  | format (message : String)
  | atKeyNotFound (message : String)
  | other (message : String)
  deriving DecidableEq, Repr

structure ApskSigningKey where
  kid : String
  alg : SigningAlgoType
  pub : String
  offeredForNewOperations : Bool
  deriving DecidableEq, Repr

/-- The packages and the runtime the verification calls: JSON both ways, base64, at_auth's
reading of an advertisement and its key ids, at_chops's order of the algorithms
and its verifications, and Unicode lower case. -/
structure Sdk where
  jsonDecode : String → Except String Json
  jsonEncode : Json → String
  base64Decode : String → Option (List UInt8)
  apskSigningKeys : List (String × Json) → Except Failure (List ApskSigningKey)
  publicKeyKidOfBase64 : String → Except String String
  rank : SigningAlgoType → ℕ
  mlDsaVerify : (signed signature publicKey : String) → Except Failure Bool
  /-- Whether `RsaSignatureAlgo.rsa2048` takes the hashing algorithm. -/
  rsa2048Hashing : HashingAlgoType → Bool
  /-- `verifyBytes` of a `RsaSignatureAlgo.rsa2048`, over the text's UTF-8. -/
  verifyBytes : HashingAlgoType → (data : String) → (signature publicKey : List UInt8) → Except Failure Bool
  toLowerCase : String → String

/-- The characters `\s` matches. -/
def isWhitespace (c : Char) : Bool :=
  let n := c.toNat
  (9 ≤ n && n ≤ 13) || n == 32 || n == 0xA0 || n == 0x1680 || (0x2000 ≤ n && n ≤ 0x200A) ||
    n == 0x2028 || n == 0x2029 || n == 0x202F || n == 0x205F || n == 0x3000 || n == 0xFEFF

/-- `String.trim`, which takes U+0085 for white space too. -/
def trim (s : String) : String :=
  String.ofList (trimBy (fun c => isWhitespace c || c.toNat == 0x85) s.toList)

def isIdChar (c : Char) : Bool := c.isAlphanum || c == '_' || c == '-'

/-- `[public:]_apsk.<enrollmentId>.a.__e@<atSign>`, with nothing `space` holds
of, and no `@` or `:`, in the atSign. -/
def keyUriShape (space : Char → Bool) (uri : String) : Bool :=
  match stripPrefix? "_apsk.".toList (dropPrefix "public:".toList uri.toList) with
  | none => false
  | some rest =>
    rest.takeWhile isIdChar != [] &&
      match stripPrefix? ".a.__e@".toList (rest.dropWhile isIdChar) with
      | none => false
      | some atSign => atSign != [] && atSign.all fun c => c != '@' && c != ':' && !space c

/-- `signingKeyUriShape.hasMatch` -/
def signingKeyUriShape (uri : String) : Bool := keyUriShape isWhitespace uri

/-- The field of a request's envelope that holds its enrollment signature. -/
def enrollmentSignatureField : String := "enrollmentSignature"

/-- An entry of the `keys` of an advertisement, when it is a signing key under a
known algorithm. -/
def advertisementKey? (entry : Json) : Option ApskSigningKey := do
  let fields ← entry.obj?
  let kid ← (Json.field fields "kid").str?
  let use ← (Json.field fields "use").str?
  let alg ← (Json.field fields "alg").str?
  let pub ← (Json.field fields "pub").str?
  let alg ← SigningAlgoType.byName? alg
  let status := Json.field fields "status"
  if use = "sign" then
    return ⟨kid, alg, pub, status.isNull || status.str? == some "active"⟩
  else none

/-- The advertisement format at_auth defines. -/
def advertisementKeys (fields : List (String × Json)) : List ApskSigningKey :=
  match Json.field fields "keys" with
  | .arr entries => entries.filterMap advertisementKey?
  | _ => []

/-- What an enrollment signature says of itself, before its record is looked up. -/
structure Named where
  uri : String
  signingAlgo : SigningAlgoType
  hashingAlgo : HashingAlgoType
  kid : Option String
  deriving DecidableEq, Repr

/-- The closure `text` of `verifyEnrollmentSignature`. -/
def text (field : List (String × Json)) (name : String) : Except Failure String :=
  match Json.field field name with
  | .str s => return s
  | _ => throw (.apskSignature (enrollmentSignatureField ++ " has no string \"" ++ name ++ "\""))

namespace Sdk
variable (sdk : Sdk)

def canonicalSigningKeyUri (uri : String) : String :=
  "public:" ++ String.ofList (dropPrefix "public:".toList (sdk.toLowerCase uri).toList)

/-- A bare RSA key, as `ApskSigningKey.forPublicKey` makes it. -/
def forPublicKey (pub : String) : Except String ApskSigningKey := do
  return { kid := ← sdk.publicKeyKidOfBase64 pub, alg := .rsa2048, pub := pub,
           offeredForNewOperations := true }

/-- Every key the record advertises, whatever its status and algorithm. -/
def advertised (uri apsk : String) : Except Failure (List ApskSigningKey) :=
  let value := trim apsk
  if value.toList.head? = some '{' then
    match sdk.jsonDecode value with
    | .error message =>
      throw (.apskSignature (uri ++ " holds an advertisement that is not JSON: " ++ message))
    | .ok (.obj fields) => sdk.apskSigningKeys fields
    | .ok _ => throw (.apskSignature (uri ++ " holds an advertisement that is not a JSON object"))
  else
    match sdk.forPublicKey value with
    | .error message =>
      throw (.apskSignature (uri ++ " holds a key that is not base64: " ++ message))
    | .ok key => return [key]

def offered (k : ApskSigningKey) : Bool :=
  k.offeredForNewOperations && escrSigningAlgorithms.contains k.alg

def activeApskKeys (uri apsk : String) : Except Failure (List ApskSigningKey) := do
  let keys := (← sdk.advertised uri apsk).filter offered
  if keys = [] then throw (.apskSignature (uri ++ " advertises no key NoPorts can verify"))
  else return keys

/-- `SigningAlgoType.strongestOf`, of algorithms that are at least one. -/
def strongestOf (alg : SigningAlgoType) : List SigningAlgoType → SigningAlgoType
  | [] => alg
  | b :: rest => if sdk.rank alg < sdk.rank b then strongestOf b rest else strongestOf alg rest

/-- The key of `candidates` a signature is to be verified with. -/
def selectKey (uri : String) (required : SigningAlgoType) (candidates : List ApskSigningKey)
    (kid : Option String) : Except Failure ApskSigningKey :=
  match kid with
  | none =>
    match candidates with
    | [key] => return key
    | _ => throw (.apskSignature ("The signature names no key, and " ++ uri ++ " advertises " ++
        toString candidates.length ++ " " ++ required.name ++ " keys"))
  | some kid =>
    match candidates.find? (·.kid == kid) with
    | some key => return key
    | none => throw (.apskSignature ("The signature names key " ++ kid ++ ", which " ++ uri ++
        " does not advertise"))

def rsaVerifyString (data signature publicKey : String) (hashing : HashingAlgoType) : Except Failure Bool :=
  if !sdk.rsa2048Hashing hashing then return false
  else
    match sdk.base64Decode signature, sdk.base64Decode publicKey with
    | some signatureBytes, some publicKeyBytes => sdk.verifyBytes hashing data signatureBytes publicKeyBytes
    | _, _ => return false

/-- Whether `signature` verifies over `signed` with the public key `pub`. -/
def signatureVerifies (required : SigningAlgoType) (pub signed signature : String)
    (hashingAlgo : HashingAlgoType) : Except Failure Bool :=
  match required with
  | .mldsa65 => sdk.mlDsaVerify signed signature pub
  | _ => sdk.rsaVerifyString signed signature pub hashingAlgo

/-- The key of those offered that a signature under `signingAlgo` and `kid` is to
be verified with. -/
def keyFor (uri : String) (keys : List ApskSigningKey) (signingAlgo : SigningAlgoType)
    (kid : Option String) : Except Failure ApskSigningKey :=
  match keys with
  | [] => throw (.other "Null check operator used on a null value")
  | first :: rest =>
    let required := sdk.strongestOf first.alg (rest.map (·.alg))
    if signingAlgo ≠ required then
      throw (.apskSignature ("Signed with " ++ signingAlgo.name ++ ", but " ++ uri ++
        " advertises " ++ required.name ++ ", the strongest algorithm it offers"))
    else selectKey uri required (keys.filter (·.alg == required)) kid

/-- From the key to the verdict; `signingAlgo` is the algorithm required by now. -/
def checkSignature (key : ApskSigningKey) (signed signature : String)
    (signingAlgo : SigningAlgoType) (hashingAlgo : HashingAlgoType) : Except Failure Unit :=
  match sdk.signatureVerifies signingAlgo key.pub signed signature hashingAlgo with
  | .error (.format message) => throw (.apskSignature ("The signature is not base64: " ++ message))
  | .error e => throw e
  | .ok verified =>
    if verified then return () else throw (.apskSignature "Signatures did not match.")

def verifyApskSignature (uri apsk signed signature : String) (signingAlgo : SigningAlgoType)
    (hashingAlgo : HashingAlgoType) (kid : Option String) : Except Failure Unit := do
  let key ← sdk.keyFor uri (← sdk.activeApskKeys uri apsk) signingAlgo kid
  sdk.checkSignature key signed signature signingAlgo hashingAlgo

/-- The checks of `verifyEnrollmentSignature` up to the lookup. -/
def readField (requester : String) (field : List (String × Json)) : Except Failure Named := do
  let uri ← text field "sk"
  if !signingKeyUriShape uri then
    throw (.apskSignature ("Signing key (" ++ uri ++
      ") is not of the form public:_apsk.<enrollmentId>.a.__e@<atSign>"))
  else
    let signer := sdk.toLowerCase (String.ofList (fromLast '@' uri.toList))
    if signer ≠ sdk.toLowerCase requester then
      throw (.apskSignature ("Signing key " ++ uri ++ " belongs to " ++ signer ++
        ", not the requester " ++ requester))
    else
      let unknown := Failure.apskSignature
        (enrollmentSignatureField ++ " names an algorithm NoPorts does not know")
      let sa ← text field "sa"
      match SigningAlgoType.byName? sa with
      | none => throw unknown
      | some signingAlgo =>
        let ha ← text field "ha"
        match HashingAlgoType.byName? ha with
        | none => throw unknown
        | some hashingAlgo =>
          if !escrSigningAlgorithms.contains signingAlgo then
            throw (.apskSignature ("Unsupported signing algorithm " ++ signingAlgo.name))
          else
            match Json.field field "kid" with
            | .null => return ⟨uri, signingAlgo, hashingAlgo, none⟩
            | .str kid => return ⟨uri, signingAlgo, hashingAlgo, some kid⟩
            | _ => throw (.apskSignature
                (enrollmentSignatureField ++ " has a \"kid\" that is not a string"))

/-- `lookup` is the daemon's lookup of a public record, `none` when there is none. -/
def verifyEnrollmentSignature (lookup : String → Except Failure (Option String))
    (requester : String) (envelope : List (String × Json)) : Except Failure (Option String) :=
  match Json.field envelope enrollmentSignatureField with
  | .null => return none
  | .obj field => do
    let named ← sdk.readField requester field
    let canonical := sdk.canonicalSigningKeyUri named.uri
    match ← lookup canonical with
    | none => throw (.atKeyNotFound (canonical ++ " does not exist"))
    | some apsk =>
      let signature ← text field "s"
      sdk.verifyApskSignature canonical apsk (sdk.jsonEncode (Json.field envelope "payload"))
        signature named.signingAlgo named.hashingAlgo named.kid
      return some canonical
  | _ => throw (.apskSignature (enrollmentSignatureField ++ " is not an object"))

/-! Which key an accepted signature is verified with. -/
variable {sdk} {uri apsk signed signature : String} {hashingAlgo : HashingAlgoType}
  {signingAlgo required : SigningAlgoType} {kid : Option String}

theorem strongestOf_mem (alg : SigningAlgoType) (rest : List SigningAlgoType) :
    sdk.strongestOf alg rest ∈ alg :: rest := by
  induction rest generalizing alg with
  | nil => exact List.mem_singleton.mpr rfl
  | cons b rest ih =>
    by_cases h : sdk.rank alg < sdk.rank b
    · rw [strongestOf, if_pos h]
      exact List.mem_cons_of_mem alg (ih b)
    · rw [strongestOf, if_neg h]
      rcases List.mem_cons.mp (ih alg) with he | hm
      · rw [he]
        exact List.mem_cons_self
      · exact List.mem_cons_of_mem alg (List.mem_cons_of_mem b hm)

theorem rank_le_strongestOf (alg : SigningAlgoType) (rest : List SigningAlgoType) :
    ∀ a ∈ alg :: rest, sdk.rank a ≤ sdk.rank (sdk.strongestOf alg rest) := by
  induction rest generalizing alg with
  | nil =>
    intro a ha
    rw [List.mem_singleton.mp ha, strongestOf]
  | cons b rest ih =>
    intro a ha
    by_cases h : sdk.rank alg < sdk.rank b
    · rw [strongestOf, if_pos h]
      rcases List.mem_cons.mp ha with rfl | ha
      · exact h.le.trans (ih b b List.mem_cons_self)
      · exact ih b a ha
    · rw [strongestOf, if_neg h]
      have hb : sdk.rank b ≤ sdk.rank (sdk.strongestOf alg rest) :=
        (Nat.le_of_not_lt h).trans (ih alg alg List.mem_cons_self)
      rcases List.mem_cons.mp ha with rfl | ha
      · exact ih a a List.mem_cons_self
      · rcases List.mem_cons.mp ha with rfl | ha
        · exact hb
        · exact ih alg a (List.mem_cons_of_mem alg ha)

/-- The one key a signature may be verified with: named by `kid`, or alone. -/
theorem selectKey_ok {candidates : List ApskSigningKey} {key : ApskSigningKey}
    (h : selectKey uri required candidates kid = .ok key) :
    key ∈ candidates ∧ (∀ i, kid = some i → key.kid = i) ∧ (kid = none → candidates = [key]) := by
  cases kid with
  | none =>
    simp only [selectKey] at h
    split at h
    · rename_i only
      obtain rfl := Except.ok.inj h
      exact ⟨List.mem_singleton.mpr rfl, fun _ hi => (nomatch hi), fun _ => rfl⟩
    · cases h
  | some i =>
    simp only [selectKey] at h
    split at h
    · rename_i found hfound
      obtain rfl := Except.ok.inj h
      refine ⟨List.mem_of_find?_eq_some hfound, fun j hj => ?_, fun hn => nomatch hn⟩
      have hk : found.kid = i := by simpa using List.find?_some hfound
      rw [hk, Option.some.inj hj]
    · cases h

/-- `k` is active in the record, no weaker than any active key there under an
algorithm NoPorts verifies, and the key `kid` names, or alone under its
algorithm when there is no `kid`. -/
structure Entitled (sdk : Sdk) (uri apsk : String) (kid : Option String) (k : ApskSigningKey)
    (keys : List ApskSigningKey) : Prop where
  read : sdk.advertised uri apsk = .ok keys
  mem : k ∈ keys
  active : k.offeredForNewOperations = true
  verifiable : k.alg ∈ escrSigningAlgorithms
  strongest : ∀ k' ∈ keys, k'.offeredForNewOperations = true → k'.alg ∈ escrSigningAlgorithms →
    sdk.rank k'.alg ≤ sdk.rank k.alg
  named : ∀ i, kid = some i → k.kid = i
  alone : kid = none → keys.filter (fun k' => offered k' && k'.alg == k.alg) = [k]

theorem offered_iff {k : ApskSigningKey} : offered k = true ↔
    k.offeredForNewOperations = true ∧ k.alg ∈ escrSigningAlgorithms := by
  simp only [offered, Bool.and_eq_true, List.contains_iff_mem]

theorem activeApskKeys_ok {active : List ApskSigningKey}
    (h : sdk.activeApskKeys uri apsk = .ok active) :
    ∃ keys, sdk.advertised uri apsk = .ok keys ∧ active = keys.filter offered := by
  obtain ⟨keys, hkeys, h⟩ := bind_eq_ok.mp h
  obtain ⟨-, h⟩ := throwIf_ok.mp h
  exact ⟨keys, hkeys, (Except.ok.inj h).symm⟩

/-- The key taken is of the algorithm signed with, which no key offered exceeds. -/
theorem keyFor_ok {keys : List ApskSigningKey} {key : ApskSigningKey}
    (h : sdk.keyFor uri keys signingAlgo kid = .ok key) :
    key ∈ keys ∧ key.alg = signingAlgo ∧ (∀ k ∈ keys, sdk.rank k.alg ≤ sdk.rank signingAlgo) ∧
      (∀ i, kid = some i → key.kid = i) ∧
        (kid = none → keys.filter (·.alg == signingAlgo) = [key]) := by
  cases keys with
  | nil => cases h
  | cons first rest =>
    obtain ⟨halg, h⟩ := throwIf_ok.mp h
    have halg : signingAlgo = sdk.strongestOf first.alg (rest.map (·.alg)) := not_not.mp halg
    rw [← halg] at h
    obtain ⟨hmem, hnamed, halone⟩ := selectKey_ok h
    obtain ⟨hin, hkey⟩ := List.mem_filter.mp hmem
    refine ⟨hin, by simpa using hkey, fun k hk => ?_, hnamed, halone⟩
    rw [halg]
    exact rank_le_strongestOf first.alg (rest.map (·.alg)) k.alg (List.mem_map_of_mem hk)

theorem checkSignature_ok {key : ApskSigningKey}
    (h : sdk.checkSignature key signed signature signingAlgo hashingAlgo = .ok ()) :
    sdk.signatureVerifies signingAlgo key.pub signed signature hashingAlgo = .ok true := by
  unfold checkSignature at h
  split at h
  · cases h
  · cases h
  · rename_i verified hv
    cases verified with
    | false => cases h
    | true => exact hv

/-- An accepted signature verified with a key the record entitles to it. -/
theorem verifyApskSignature_ok
    (h : sdk.verifyApskSignature uri apsk signed signature signingAlgo hashingAlgo kid = .ok ()) :
    ∃ k keys, sdk.Entitled uri apsk kid k keys ∧ k.alg = signingAlgo ∧
      sdk.signatureVerifies signingAlgo k.pub signed signature hashingAlgo = .ok true := by
  obtain ⟨active, hactive, h⟩ := bind_eq_ok.mp h
  obtain ⟨key, hkey, hcheck⟩ := bind_eq_ok.mp h
  obtain ⟨keys, hkeys, rfl⟩ := activeApskKeys_ok hactive
  obtain ⟨hin, halg, hstrong, hnamed, halone⟩ := keyFor_ok hkey
  obtain ⟨hinKeys, hoffered⟩ := List.mem_filter.mp hin
  obtain ⟨hact, hver⟩ := offered_iff.mp hoffered
  refine ⟨key, keys, ⟨hkeys, hinKeys, hact, hver, fun k' hk' ha hv => ?_, hnamed, fun hn => ?_⟩,
    halg, checkSignature_ok hcheck⟩
  · rw [halg]
    exact hstrong k' (List.mem_filter.mpr ⟨hk', offered_iff.mpr ⟨ha, hv⟩⟩)
  · rw [← halone hn, List.filter_filter, halg]
    exact List.filter_congr fun x _ => Bool.and_comm _ _

/-- No downgrade: nothing weaker than what the record offers is accepted, and
RSA never beside an active ML-DSA key. -/
theorem verifyApskSignature_no_downgrade (hrank : sdk.rank .rsa2048 < sdk.rank .mldsa65)
    (h : sdk.verifyApskSignature uri apsk signed signature signingAlgo hashingAlgo kid = .ok ()) :
    ∃ k keys, sdk.Entitled uri apsk kid k keys ∧ k.alg = signingAlgo ∧
      sdk.signatureVerifies signingAlgo k.pub signed signature hashingAlgo = .ok true ∧
      (signingAlgo = .rsa2048 →
        ∀ k' ∈ keys, k'.offeredForNewOperations = true → k'.alg ≠ .mldsa65) := by
  obtain ⟨k, keys, hk, halg, hv⟩ := verifyApskSignature_ok h
  refine ⟨k, keys, hk, halg, hv, fun hrsa k' hk' hact hml => ?_⟩
  have hle := hk.strongest k' hk' hact (by rw [hml]; decide)
  rw [hml, halg, hrsa] at hle
  exact absurd hrank (Nat.not_lt.mpr hle)

end Sdk

/-- An advertisement of an active RSA-4096 and an active RSA-2048 key. -/
def twoRsaKeys : String :=
  "\x7b\"keys\":[" ++
    "\x7b\"kid\":\"k4\",\"use\":\"sign\",\"alg\":\"rsa4096\",\"pub\":\"cDQ=\"\x7d," ++
    "\x7b\"kid\":\"k2\",\"use\":\"sign\",\"alg\":\"rsa2048\",\"pub\":\"cDI=\"\x7d]\x7d"

def twoRsaKeysDecoded : Json :=
  let key (kid alg pub : String) : Json :=
    .obj [("kid", .str kid), ("use", .str "sign"), ("alg", .str alg), ("pub", .str pub)]
  .obj [("keys", .arr [key "k4" "rsa4096" "cDQ=", key "k2" "rsa2048" "cDI="])]

/-- A runtime that meets that one advertisement only, and takes `c2ln` for the
signature of everything. -/
def sampleSdk : Sdk where
  jsonDecode _ := .ok twoRsaKeysDecoded
  jsonEncode _ := "null"
  base64Decode s := if s = "c2ln" then some [115, 105, 103] else if s = "cDI=" then some [112, 50] else none
  apskSigningKeys fields := .ok (advertisementKeys fields)
  publicKeyKidOfBase64 pub := .ok pub
  rank
    | .rsa2048 => 0
    | .ecc_secp256r1 => 1
    | .rsa4096 => 2
    | .ed25519 => 3
    | .mldsa65 => 4
  mlDsaVerify _ signature _ := .ok (signature == "c2ln")
  rsa2048Hashing h := h == .sha256 || h == .sha512
  verifyBytes _ _ signature _ := .ok (signature == [115, 105, 103])
  toLowerCase := lowerAscii

theorem verifyApskSignature_no_downgrade_bare : ∃ k keys,
    sampleSdk.Entitled "public:_apsk.1.a.__e@alice" "cDI=" none k keys ∧ k.alg = .rsa2048 ∧
      sampleSdk.signatureVerifies .rsa2048 k.pub "p" "c2ln" .sha256 = .ok true ∧
      (SigningAlgoType.rsa2048 = .rsa2048 →
        ∀ k' ∈ keys, k'.offeredForNewOperations = true → k'.alg ≠ .mldsa65) :=
  Sdk.verifyApskSignature_no_downgrade (by decide)
    (by rfl : sampleSdk.verifyApskSignature "public:_apsk.1.a.__e@alice" "cDI=" "p" "c2ln" .rsa2048
      .sha256 none = .ok ())

set_option maxRecDepth 4000 in
theorem advertised_twoRsaKeys (uri : String) : sampleSdk.advertised uri twoRsaKeys =
    .ok [⟨"k4", .rsa4096, "cDQ=", true⟩, ⟨"k2", .rsa2048, "cDI=", true⟩] := rfl

/-- The strongest algorithm any active key offers may be one NoPorts does not
verify; a signature under a weaker one is then accepted. -/
theorem verifyApskSignature_beside_rsa4096 :
    sampleSdk.verifyApskSignature "public:_apsk.1.a.__e@alice" twoRsaKeys "p" "c2ln" .rsa2048
        .sha256 none = .ok () ∧
      ∃ keys, sampleSdk.advertised "public:_apsk.1.a.__e@alice" twoRsaKeys = .ok keys ∧
        ∃ k ∈ keys, k.offeredForNewOperations = true ∧
          sampleSdk.rank .rsa2048 < sampleSdk.rank k.alg := by
  refine ⟨?_, _, advertised_twoRsaKeys _, ⟨"k4", .rsa4096, "cDQ=", true⟩, ?_, rfl, by decide⟩
  · rw [Sdk.verifyApskSignature, Sdk.activeApskKeys, advertised_twoRsaKeys]
    rfl
  · exact List.mem_cons_self

end NoPorts.Signing
