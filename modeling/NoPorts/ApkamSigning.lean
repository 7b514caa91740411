import Mathlib.Data.List.Forall2
import NoPorts.RelayAuthenticator
import NoPorts.Lib.Base64
import NoPorts.Lib.JsonText

/-! The key an enrollment signs with, and its signature over a request: the daemon verifies the one with the key
that the other's record has it take. -/
namespace NoPorts.Signing
open Lib
open RelayAuthenticator (EscrSdk)

/-- A signing key of an enrollment. -/
structure SigningKey where
  algorithm : SigningAlgoType
  publicKey : String
  privateKey : String
  deriving DecidableEq, Repr

/-- What an enrollment answers of its keys, and how the publishing of its record ends. -/
structure ApkamSigning where
  enrollmentId : String
  publicSigningKeyUri : String
  heldSigningKeys : List SigningKey
  authenticationSigningKey : Option SigningKey
  signingKeys : List SigningKey
  publishPublicSigningKey : Except String Unit

namespace ApkamSigning
variable (signer : ApkamSigning) (sdk : EscrSdk)

/-! ### relay_authenticators.dart -/

def escrSigningKeyPair : Except String SigningKey :=
  if signer.heldSigningKeys = [] ∧ signer.authenticationSigningKey = none then
    throw ("Enrollment " ++ signer.enrollmentId ++
      " holds no APKAM keypair to sign relay authentication with")
  else
    match signer.signingKeys.find? fun k => escrSigningAlgorithms.contains k.algorithm with
    | none => throw ("Enrollment " ++ signer.enrollmentId ++
        " holds no key to sign relay authentication with")
    | some key =>
      if key.algorithm = .rsa2048 then
        -- a key that signs nothing at all is found out here
        match sdk.rsaSignString "" key.privateKey with
        | .ok _ => return key
        | .error message => throw ("Enrollment " ++ signer.enrollmentId ++
            " signs with a key relay authentication cannot sign with: " ++ message)
      else return key

/-! ### enrollment_signature.dart -/

/-- What the signature is, with its key. -/
def signedBy (key : SigningKey) (payload : List (String × Json)) : Except String (List (String × Json)) := do
  let kid ← sdk.publicKeyKidOfBase64 key.publicKey
  let s ← sdk.signWithApskKey (sdk.jsonEncode (.obj payload)) key.algorithm key.privateKey
  return [("sk", .str signer.publicSigningKeyUri), ("kid", .str kid), ("sa", .str key.algorithm.name),
    ("ha", .str HashingAlgoType.sha256.name), ("s", .str s)]

/-- None where the enrollment has no key for it, or its record cannot be published. -/
def enrollmentSignatureOf (payload : List (String × Json)) :
    Except String (Option (List (String × Json))) :=
  match signer.escrSigningKeyPair sdk with
  | .error _ => return none
  | .ok key =>
    match signer.publishPublicSigningKey with
    | .error _ => return none
    | .ok () => some <$> signer.signedBy sdk key payload

/-- The envelope of `signAndWrapRequest`; `sign` is the client's own signature, which `signAndWrap` makes. -/
def signAndWrapRequest (sign : String → Except String String) (payload : List (String × Json)) :
    Except String (List (String × Json)) := do
  let signature ← sign (sdk.jsonEncode (.obj payload))
  let envelope := [("payload", .obj payload), ("signature", .str signature),
    ("hashingAlgo", .str HashingAlgoType.sha256.name), ("signingAlgo", .str SigningAlgoType.rsa2048.name)]
  match ← signer.enrollmentSignatureOf sdk payload with
  | none => return envelope
  | some field => return envelope ++ [(enrollmentSignatureField, .obj field)]

/-- Whether requests carry the enrollment's signature. -/
def signs : Bool := (signer.escrSigningKeyPair sdk).isOk && signer.publishPublicSigningKey.isOk

end ApkamSigning

/-! ### The record -/

/-- An entry of a record stands for a key of the enrollment. -/
structure Stands (sdk : EscrSdk) (key : SigningKey) (entry : ApskSigningKey) : Prop where
  alg : entry.alg = key.algorithm
  pub : entry.pub = key.publicKey
  kid : sdk.publicKeyKidOfBase64 key.publicKey = .ok entry.kid
  active : entry.offeredForNewOperations = true

/-- The record advertises the keys the enrollment signs with, strongest algorithm first. -/
structure Advertises (verifier : Sdk) (sdk : EscrSdk) (uri apsk : String) (keys : List SigningKey) : Prop where
  entries : ∃ entries, verifier.advertised uri apsk = .ok entries ∧ List.Forall₂ (Stands sdk) keys entries
  strongestFirst : keys.Pairwise fun k l => verifier.rank l.algorithm ≤ verifier.rank k.algorithm

/-- The pair of a key: what the one signs, the other verifies. -/
def Paired (verifier : Sdk) (sdk : EscrSdk) (key : SigningKey) : Prop :=
  ∀ signed signature, sdk.signWithApskKey signed key.algorithm key.privateKey = .ok signature →
    verifier.signatureVerifies key.algorithm key.publicKey signed signature .sha256 = .ok true

section record
variable {verifier : Sdk} {sdk : EscrSdk} {signer : ApkamSigning} {uri apsk : String} {key : SigningKey}

theorem strongestOf_first {alg : SigningAlgoType} {rest : List SigningAlgoType}
    (h : ∀ b ∈ rest, verifier.rank b ≤ verifier.rank alg) : verifier.strongestOf alg rest = alg := by
  induction rest with
  | nil => rfl
  | cons b rest ih =>
    have hb : ¬verifier.rank alg < verifier.rank b := Nat.not_lt.mpr (h b List.mem_cons_self)
    rw [Sdk.strongestOf, if_neg hb]
    exact ih fun c hc => h c (List.mem_cons_of_mem b hc)

/-- The first key that relay authentication can sign with stands first among those the record offers. -/
theorem first_offered {keys : List SigningKey} {entries : List ApskSigningKey}
    (hentries : List.Forall₂ (Stands sdk) keys entries)
    (hsorted : keys.Pairwise fun k l => verifier.rank l.algorithm ≤ verifier.rank k.algorithm)
    (hfind : keys.find? (fun k => escrSigningAlgorithms.contains k.algorithm) = some key) :
    ∃ entry rest, entries.filter Sdk.offered = entry :: rest ∧ Stands sdk key entry ∧
      ∀ other ∈ rest, verifier.rank other.alg ≤ verifier.rank key.algorithm := by
  induction hentries with
  | nil => cases hfind
  | @cons k entry keys entries hstands hentries ih =>
    obtain ⟨hweaker, hsorted⟩ := List.pairwise_cons.mp hsorted
    have hoffered : Sdk.offered entry = escrSigningAlgorithms.contains k.algorithm := by
      rw [Sdk.offered, hstands.active, hstands.alg, Bool.true_and]
    cases hescr : escrSigningAlgorithms.contains k.algorithm with
    | true =>
      rw [List.find?_cons, hescr] at hfind
      obtain rfl := Option.some.inj hfind
      refine ⟨entry, entries.filter Sdk.offered, ?_, hstands, ?_⟩
      · rw [List.filter_cons, hoffered, hescr, if_pos rfl]
      · intro other hother
        -- every entry of the rest stands for a key of the rest
        have hkey : ∀ e ∈ entries, ∃ l ∈ keys, e.alg = l.algorithm := by
          intro e he
          obtain ⟨n, hn, rfl⟩ := List.getElem_of_mem he
          have hlt : n < keys.length := by
            rw [hentries.length_eq]
            exact hn
          exact ⟨keys[n], List.getElem_mem hlt, (hentries.get hlt hn).alg⟩
        obtain ⟨l, hl, halg⟩ := hkey other (List.mem_filter.mp hother).1
        rw [halg]
        exact hweaker l hl
    | false =>
      rw [List.find?_cons, hescr] at hfind
      obtain ⟨first, rest, hfilter, hfirst, hrest⟩ := ih hsorted hfind
      refine ⟨first, rest, ?_, hfirst, hrest⟩
      rw [List.filter_cons, hoffered, hescr, if_neg Bool.false_ne_true]
      exact hfilter

/-- A signature under the key, and by its id, is verified with it. -/
theorem verifyApskSignature_advertised (hrecord : Advertises verifier sdk uri apsk signer.signingKeys)
    (hfind : signer.signingKeys.find? (fun k => escrSigningAlgorithms.contains k.algorithm) = some key)
    (hpaired : Paired verifier sdk key) {kid signed signature : String}
    (hkid : sdk.publicKeyKidOfBase64 key.publicKey = .ok kid)
    (hsigned : sdk.signWithApskKey signed key.algorithm key.privateKey = .ok signature) :
    verifier.verifyApskSignature uri apsk signed signature key.algorithm .sha256 (some kid) = .ok () := by
  obtain ⟨entries, hadvertised, hentries⟩ := hrecord.entries
  obtain ⟨entry, rest, hfilter, hstands, hweaker⟩ := first_offered hentries hrecord.strongestFirst hfind
  have hactive : verifier.activeApskKeys uri apsk = .ok (entry :: rest) := by
    rw [Sdk.activeApskKeys, hadvertised]
    change (if entries.filter Sdk.offered = [] then _ else _) = _
    rw [hfilter, if_neg (List.cons_ne_nil _ _)]
    rfl
  have hstrongest : verifier.strongestOf entry.alg (rest.map (·.alg)) = key.algorithm := by
    rw [hstands.alg]
    apply strongestOf_first
    intro b hb
    obtain ⟨other, hother, rfl⟩ := List.mem_map.mp hb
    exact hweaker other hother
  have hsame : entry.kid = kid := Except.ok.inj (hstands.kid.symm.trans hkid)
  have hselect : verifier.keyFor uri (entry :: rest) key.algorithm (some kid) = .ok entry := by
    have halg : (entry.alg == key.algorithm) = true := beq_iff_eq.mpr hstands.alg
    have hfirst : (entry.kid == kid) = true := beq_iff_eq.mpr hsame
    rw [Sdk.keyFor, hstrongest, if_neg (not_not.mpr rfl), List.filter_cons, halg, if_pos rfl, Sdk.selectKey,
      List.find?_cons, hfirst]
    rfl
  rw [Sdk.verifyApskSignature, hactive, ok_bind, hselect, ok_bind, Sdk.checkSignature, hstands.pub,
    hpaired signed signature hsigned]
  rfl

theorem find_of_escrSigningKeyPair (h : signer.escrSigningKeyPair sdk = .ok key) :
    signer.signingKeys.find? (fun k => escrSigningAlgorithms.contains k.algorithm) = some key := by
  obtain ⟨-, h⟩ := throwIf_ok.mp h
  cases hfind : signer.signingKeys.find? fun k => escrSigningAlgorithms.contains k.algorithm with
  | none =>
    rw [hfind] at h
    cases h
  | some found =>
    rw [hfind] at h
    dsimp only at h
    split at h
    · cases hsign : sdk.rsaSignString "" found.privateKey with
      | ok signature =>
        rw [hsign] at h
        exact congrArg some (Except.ok.inj h)
      | error message =>
        rw [hsign] at h
        cases h
    · exact congrArg some (Except.ok.inj h)

/-! ### The signature of a request -/

theorem byName?_signing (algorithm : SigningAlgoType) : SigningAlgoType.byName? algorithm.name = some algorithm := by
  cases algorithm <;> decide

/-- An owner of `uri` and the daemon spell it as the same record. -/
structure Names (verifier : Sdk) (uri requester : String) : Prop where
  shape : signingKeyUriShape uri = true
  owner : verifier.toLowerCase (String.ofList (fromLast '@' uri.toList)) = verifier.toLowerCase requester

/-- What the signature says of itself is what it was made with. -/
theorem readField_signedBy {requester : String} {payload field : List (String × Json)}
    (hnames : Names verifier signer.publicSigningKeyUri requester)
    (hescr : escrSigningAlgorithms.contains key.algorithm = true)
    (hfield : signer.signedBy sdk key payload = .ok field) :
    ∃ kid s, sdk.publicKeyKidOfBase64 key.publicKey = .ok kid ∧
      sdk.signWithApskKey (sdk.jsonEncode (.obj payload)) key.algorithm key.privateKey = .ok s ∧
      verifier.readField requester field =
        .ok ⟨signer.publicSigningKeyUri, key.algorithm, .sha256, some kid⟩ ∧ text field "s" = .ok s := by
  obtain ⟨kid, hkid, hfield⟩ := bind_eq_ok.mp hfield
  obtain ⟨s, hs, hfield⟩ := bind_eq_ok.mp hfield
  obtain rfl := Except.ok.inj hfield
  refine ⟨kid, s, hkid, hs, ?_, rfl⟩
  have hsk : text [("sk", .str signer.publicSigningKeyUri), ("kid", .str kid),
      ("sa", .str key.algorithm.name), ("ha", .str HashingAlgoType.sha256.name), ("s", .str s)] "sk" =
        .ok signer.publicSigningKeyUri := rfl
  have hsa : text [("sk", .str signer.publicSigningKeyUri), ("kid", .str kid),
      ("sa", .str key.algorithm.name), ("ha", .str HashingAlgoType.sha256.name), ("s", .str s)] "sa" =
        .ok key.algorithm.name := rfl
  have hha : text [("sk", .str signer.publicSigningKeyUri), ("kid", .str kid),
      ("sa", .str key.algorithm.name), ("ha", .str HashingAlgoType.sha256.name), ("s", .str s)] "ha" =
        .ok HashingAlgoType.sha256.name := rfl
  have hsha : HashingAlgoType.byName? HashingAlgoType.sha256.name = some .sha256 := by decide
  rw [Sdk.readField, hsk, ok_bind, hnames.shape, Bool.not_true, if_neg Bool.false_ne_true, if_neg (not_not.mpr hnames.owner), hsa, ok_bind, byName?_signing]
  dsimp only
  rw [hha, ok_bind, hsha]
  dsimp only
  rw [hescr]
  rfl

/-- The daemon finds a request of the enrollment's to be signed, by the record, exactly where it is. -/
theorem verifyEnrollmentSignature_signAndWrapRequest {requester : String}
    {lookup : String → Except Failure (Option String)} {sign : String → Except String String}
    {payload envelope : List (String × Json)}
    (hencode : verifier.jsonEncode = sdk.jsonEncode)
    (hnames : Names verifier signer.publicSigningKeyUri requester)
    (hlookup : signer.signs sdk = true → ∃ apsk,
      lookup (verifier.canonicalSigningKeyUri signer.publicSigningKeyUri) = .ok (some apsk) ∧
      Advertises verifier sdk (verifier.canonicalSigningKeyUri signer.publicSigningKeyUri) apsk
        signer.signingKeys)
    (hpaired : ∀ key ∈ signer.signingKeys, Paired verifier sdk key)
    (hwrapped : signer.signAndWrapRequest sdk sign payload = .ok envelope) :
    verifier.verifyEnrollmentSignature lookup requester envelope =
      .ok (if signer.signs sdk then some (verifier.canonicalSigningKeyUri signer.publicSigningKeyUri)
        else none) := by
  obtain ⟨signature, -, hwrapped⟩ := bind_eq_ok.mp hwrapped
  obtain ⟨field?, hsignature, hwrapped⟩ := bind_eq_ok.mp hwrapped
  have hunsigned : signer.signs sdk = false → signer.enrollmentSignatureOf sdk payload = .ok none := by
    intro hnot
    rw [ApkamSigning.signs] at hnot
    rw [ApkamSigning.enrollmentSignatureOf]
    cases hpair : signer.escrSigningKeyPair sdk with
    | error message => rfl
    | ok key =>
      cases hpublish : signer.publishPublicSigningKey with
      | error message => rfl
      | ok u =>
        rw [hpair, hpublish] at hnot
        cases hnot
  cases hsigns : signer.signs sdk with
  | false =>
    rw [hunsigned hsigns] at hsignature
    obtain rfl := Except.ok.inj hsignature
    obtain rfl := Except.ok.inj hwrapped
    rfl
  | true =>
    obtain ⟨apsk, hfound, hrecord⟩ := hlookup hsigns
    rw [ApkamSigning.signs] at hsigns
    rw [ApkamSigning.enrollmentSignatureOf] at hsignature
    cases hpair : signer.escrSigningKeyPair sdk with
    | error message =>
      rw [hpair] at hsigns
      cases hsigns
    | ok key =>
      cases hpublish : signer.publishPublicSigningKey with
      | error message =>
        rw [hpair, hpublish] at hsigns
        cases hsigns
      | ok u =>
        rw [hpair, hpublish] at hsignature
        obtain ⟨field, hfield, hsome⟩ := map_eq_ok.mp hsignature
        rw [← hsome] at hwrapped
        obtain rfl := Except.ok.inj hwrapped
        have hfind := find_of_escrSigningKeyPair hpair
        have hescr : escrSigningAlgorithms.contains key.algorithm = true := by
          apply List.find?_some (p := fun k : SigningKey => escrSigningAlgorithms.contains k.algorithm)
          exact hfind
        obtain ⟨kid, s, hkid, hs, hread, htext⟩ := readField_signedBy hnames hescr hfield
        have hverified := verifyApskSignature_advertised hrecord hfind
          (hpaired key (List.mem_of_find?_eq_some hfind)) hkid hs
        -- the signature was made over the payload as the daemon writes it again
        rw [← hencode] at hverified
        apply bind_eq_ok.mpr
        refine ⟨_, hread, bind_eq_ok.mpr ⟨_, hfound, bind_eq_ok.mpr ⟨s, htext, ?_⟩⟩⟩
        exact bind_eq_ok.mpr ⟨(), hverified, rfl⟩

end record

/-! A key's private half is its public one, and its signature is the text with it. -/

def sampleSigner : ApkamSigning where
  enrollmentId := "1"
  publicSigningKeyUri := "public:_apsk.1.a.__e@alice"
  heldSigningKeys := [⟨.mldsa65, "cHFw", "cHFw"⟩, ⟨.rsa2048, "cnNh", "cnNh"⟩]
  authenticationSigningKey := some ⟨.rsa2048, "cnNh", "cnNh"⟩
  signingKeys := [⟨.mldsa65, "cHFw", "cHFw"⟩, ⟨.rsa2048, "cnNh", "cnNh"⟩]
  publishPublicSigningKey := .ok ()

/-- A byte for each character. -/
def bytes (s : String) : List UInt8 := s.toList.map fun c => UInt8.ofNat c.toNat

def sampleSignature (data : String) (key : List UInt8) : List UInt8 := bytes data ++ 47 :: key

def sampleSign (data privateKey : String) : Except String String :=
  match Base64.decode (bytes privateKey) with
  | none => .error "Invalid character"
  | some key => .ok (String.ofList ((Base64.encode (sampleSignature data key)).map fun b => Char.ofNat b.toNat))

def sampleSignerSdk : EscrSdk where
  jsonEncode := Json.compactEncode
  base64Encode text := .ok (String.ofList ((Base64.encode (bytes text)).map fun b => Char.ofNat b.toNat))
  base64EncodeBytes data := String.ofList ((Base64.encode data).map fun b => Char.ofNat b.toNat)
  mlDsaSign := sampleSign
  rsaSignString := sampleSign
  publicKeyKidOfBase64 := .ok
  aesEncryptString plaintext _ _ := .ok plaintext

/-- The record of the two keys. -/
def sampleRecord : Json :=
  let key (alg pub : String) : Json :=
    .obj [("kid", .str pub), ("use", .str "sign"), ("alg", .str alg), ("pub", .str pub)]
  .obj [("keys", .arr [key "mldsa65" "cHFw", key "rsa2048" "cnNh"])]

def sampleVerifier : Sdk where
  jsonDecode s := if s = Json.compactEncode sampleRecord then .ok sampleRecord else .error "Unexpected character"
  jsonEncode := Json.compactEncode
  base64Decode s := Base64.decode (bytes s)
  apskSigningKeys fields := .ok (advertisementKeys fields)
  publicKeyKidOfBase64 := .ok
  rank alg := if alg = .mldsa65 then 2 else if alg = .rsa2048 then 1 else 0
  mlDsaVerify signed signature publicKey := .ok
    (match Base64.decode (bytes signature), Base64.decode (bytes publicKey) with
    | some signature, some key => signature == sampleSignature signed key
    | _, _ => false)
  rsa2048Hashing h := h == .sha256 || h == .sha512
  verifyBytes _ data signature publicKey := .ok (signature == sampleSignature data publicKey)
  toLowerCase := lowerAscii

theorem sample_paired {key : SigningKey} (hsame : key.privateKey = key.publicKey)
    (halg : key.algorithm ∈ escrSigningAlgorithms) : Paired sampleVerifier sampleSignerSdk key := by
  intro signed signature hsigned
  have hsign : sampleSign signed key.privateKey = .ok signature := by
    rcases List.mem_cons.mp halg with hrsa | hmldsa
    · rw [hrsa] at hsigned
      exact hsigned
    · rw [List.mem_singleton.mp hmldsa] at hsigned
      exact hsigned
  unfold sampleSign at hsign
  split at hsign
  · cases hsign
  · rename_i raw hraw
    rw [hsame] at hraw
    have hback : Base64.decode (bytes signature) = some (sampleSignature signed raw) := by
      rw [← Except.ok.inj hsign, bytes, String.toList_ofList, bytes_of_chars, Base64.decode_encode]
    rcases List.mem_cons.mp halg with hrsa | hmldsa
    · rw [hrsa]
      have hsignature : sampleVerifier.base64Decode signature = some (sampleSignature signed raw) := hback
      have hkey : sampleVerifier.base64Decode key.publicKey = some raw := hraw
      have htakes : ¬(!sampleVerifier.rsa2048Hashing .sha256) = true := Bool.false_ne_true
      change sampleVerifier.rsaVerifyString signed signature key.publicKey .sha256 = .ok true
      rw [Sdk.rsaVerifyString, if_neg htakes, hsignature, hkey]
      exact congrArg Except.ok (beq_self_eq_true _)
    · rw [List.mem_singleton.mp hmldsa]
      change sampleVerifier.mlDsaVerify signed signature key.publicKey = .ok true
      simp only [sampleVerifier, hback, hraw, beq_self_eq_true]

theorem verifyEnrollmentSignature_signAndWrapRequest_sample : ∃ envelope,
    sampleSigner.signAndWrapRequest sampleSignerSdk .ok [("nonce", .str "n")] = .ok envelope ∧
    sampleVerifier.verifyEnrollmentSignature (fun _ => .ok (some (Json.compactEncode sampleRecord))) "@Alice"
      envelope = .ok (some (sampleVerifier.canonicalSigningKeyUri "public:_apsk.1.a.__e@alice")) := by
  have hpaired : ∀ key ∈ sampleSigner.signingKeys, Paired sampleVerifier sampleSignerSdk key := by
    intro key hkey
    rcases List.mem_cons.mp hkey with rfl | hkey
    · exact sample_paired rfl (by decide)
    · obtain rfl := List.mem_singleton.mp hkey
      exact sample_paired rfl (by decide)
  have hnames : Names sampleVerifier sampleSigner.publicSigningKeyUri "@Alice" :=
    ⟨by decide +kernel, by decide +kernel⟩
  have hadvertised : sampleVerifier.advertised
      (sampleVerifier.canonicalSigningKeyUri sampleSigner.publicSigningKeyUri) (Json.compactEncode sampleRecord) =
        .ok [⟨"cHFw", .mldsa65, "cHFw", true⟩, ⟨"cnNh", .rsa2048, "cnNh", true⟩] := by
    have htrim : trim (Json.compactEncode sampleRecord) = Json.compactEncode sampleRecord := by decide +kernel
    have hbrace : (Json.compactEncode sampleRecord).toList.head? = some '{' := by decide +kernel
    have hdecode : sampleVerifier.jsonDecode (Json.compactEncode sampleRecord) = .ok sampleRecord := by
      simp only [sampleVerifier, if_true]
    rw [Sdk.advertised, htrim, if_pos hbrace, hdecode]
    decide +kernel
  have hrecord : Advertises sampleVerifier sampleSignerSdk
      (sampleVerifier.canonicalSigningKeyUri sampleSigner.publicSigningKeyUri) (Json.compactEncode sampleRecord)
      sampleSigner.signingKeys := by
    refine ⟨⟨_, hadvertised, ?_⟩, by decide⟩
    exact .cons ⟨rfl, rfl, rfl, rfl⟩ (.cons ⟨rfl, rfl, rfl, rfl⟩ .nil)
  obtain ⟨envelope, hwrapped⟩ : ∃ envelope,
      sampleSigner.signAndWrapRequest sampleSignerSdk .ok [("nonce", .str "n")] = .ok envelope := by
    have hok : (sampleSigner.signAndWrapRequest sampleSignerSdk .ok [("nonce", .str "n")]).isOk = true := by
      decide +kernel
    cases hresult : sampleSigner.signAndWrapRequest sampleSignerSdk .ok [("nonce", .str "n")] with
    | ok envelope => exact ⟨envelope, rfl⟩
    | error message =>
      rw [hresult] at hok
      cases hok
  exact ⟨envelope, hwrapped,
    verifyEnrollmentSignature_signAndWrapRequest rfl hnames (fun _ => ⟨_, rfl, hrecord⟩) hpaired hwrapped⟩

end NoPorts.Signing
