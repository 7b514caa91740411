import NoPorts.EnrollmentSignature

/-! The enrollment signature of a request as the C daemon checks it, and when
that agrees with the Dart daemon. -/
namespace NoPorts.CDaemon
open Lib Signing

inductive EnrollmentSignatureResult where
  | absent
  /-- With the canonical uri of the signing key. -/
  | verified (signingKey : String)
  | refused (why : String)
  | unchecked (why : String)
  deriving DecidableEq, Repr

inductive PublicLookupResult where
  | found (value : String)
  | notFound
  | notServed
  | failed
  deriving DecidableEq, Repr

structure RsaPublicKey where
  n : List UInt8
  e : List UInt8
  deriving DecidableEq, Repr

/-- The libraries the C daemon calls: cJSON, and atchops's base64, SHA-256 and RSA. -/
structure Atchops where
  parse : String → Option Json
  printUnformatted : Json → String
  base64Decode : String → Option (List UInt8)
  sha256 : List UInt8 → Option (List UInt8)
  populatePublicKey : String → Option RsaPublicKey
  rsaVerify : RsaPublicKey → HashingAlgoType → String → List UInt8 → Bool

def signingAlgorithms : List String := ["ecc_secp256r1", "rsa2048", "rsa4096", "ed25519", "mldsa65"]

def hashingAlgorithms : List String := ["sha256", "sha512", "md5", "argon2id"]

/-- The characters of `" \t\r\n\f\v"`. -/
def isAsciiSpace (c : Char) : Bool := [' ', '\t', '\r', '\n', '\x0c', '\x0b'].contains c

def isSigningKeyUri (uri : String) : Bool := keyUriShape isAsciiSpace uri

/-- The white space JSON allows, which a record's value is stripped of. -/
def stripped (value : String) : String :=
  String.ofList (trimBy (fun c => [' ', '\t', '\r', '\n'].contains c) value.toList)

def hexDigit (n : ℕ) : Char := if n < 10 then Char.ofNat (48 + n) else Char.ofNat (87 + n)

/-- `%02x` -/
def hex (b : UInt8) : List Char := [hexDigit (b.toNat / 16), hexDigit (b.toNat % 16)]

structure ApskKey where
  kidText : String
  alg : String
  pub : String
  deriving DecidableEq, Repr

/-- One turn of the loop over an advertisement's entries. -/
def apskKey? (entry : Json) : Option ApskKey := do
  let fields ← entry.obj?
  let kid ← (Json.field fields "kid").str?
  let use ← (Json.field fields "use").str?
  let alg ← (Json.field fields "alg").str?
  let pub ← (Json.field fields "pub").str?
  if use ≠ "sign" ∨ ¬signingAlgorithms.contains alg then none
  else
    let status := Json.field fields "status"
    let active := status.isNull || status.str? == some "active"
    if ¬active ∨ (alg ≠ "rsa2048" ∧ alg ≠ "mldsa65") then none
    else some ⟨kid, alg, pub⟩

/-- The entries of an advertisement, none when `keys` is not an array. -/
def entries (fields : List (String × Json)) : List Json :=
  match Json.field fields "keys" with
  | .arr entries => entries
  | _ => []

/-- The modulus length in bytes. -/
def rsaModulusBytes (key : RsaPublicKey) : ℕ := (key.n.dropWhile (· == 0)).length

/-- The length of the modulus in bits, which nothing here looks at. -/
def RsaPublicKey.bits (key : RsaPublicKey) : ℕ :=
  let modulus := key.n.foldl (fun n b => n * 256 + b.toNat) 0
  if modulus = 0 then 0 else modulus.log2 + 1

/-- A member of the field that must be a text. -/
def text (field : List (String × Json)) (name : String) : Except String String :=
  match Json.field field name with
  | .str s => return s
  | _ => throw (enrollmentSignatureField ++ " has no string \"" ++ name ++ "\"")

/-- The checks before the lookup: the uri, the hashing algorithm, the signature
and the `kid`. -/
def readField (requester : String) (field : List (String × Json)) :
    Except String (String × String × String × Option String) := do
  let uri ← text field "sk"
  let sa ← text field "sa"
  let ha ← text field "ha"
  let signature ← text field "s"
  if !isSigningKeyUri uri then
    throw ("Signing key (" ++ uri ++
      ") is not of the form public:_apsk.<enrollmentId>.a.__e@<atSign>")
  else
    let signer := lowerAscii (String.ofList (fromLast '@' uri.toList))
    if signer ≠ lowerAscii requester then
      throw ("Signing key " ++ uri ++ " belongs to " ++ signer ++ ", not the requester " ++
        requester)
    else if ¬signingAlgorithms.contains sa ∨ ¬hashingAlgorithms.contains ha then
      throw (enrollmentSignatureField ++ " names an algorithm NoPorts does not know")
    else if sa = "mldsa65" then
      throw "Unsupported signing algorithm mldsa65: this daemon can't verify ML-DSA signatures"
    else if sa ≠ "rsa2048" then throw ("Unsupported signing algorithm " ++ sa)
    else
      match Json.field field "kid" with
      | .null => return (uri, ha, signature, none)
      | .str kid => return (uri, ha, signature, some kid)
      | _ => throw (enrollmentSignatureField ++ " has a \"kid\" that is not a string")

def canonicalUri (uri : String) : String :=
  lowerAscii ("public:" ++ String.ofList (dropPrefix "public:".toList uri.toList))

/-- The key an `rsa2048` signature is to be verified with, or why there is none. -/
def selectKey (canonical : String) (keys : List ApskKey) (kid : Option String) :
    Except String ApskKey :=
  let candidates := keys.filter (·.alg != "mldsa65")
  let key := candidates.find? fun k => kid.isNone || kid == some k.kidText
  if keys.any (·.alg == "mldsa65") then
    throw ("Signed with rsa2048, but " ++ canonical ++
      " advertises mldsa65, the strongest algorithm it offers")
  else if kid = none ∧ candidates.length ≠ 1 then
    throw ("The signature names no key, and " ++ canonical ++ " advertises " ++
      toString candidates.length ++ " rsa2048 keys")
  else
    match key with
    | none => throw ("The signature names key " ++ kid.getD "(null)" ++ ", which " ++ canonical ++
        " does not advertise")
    | some key => return key

/-- The hashing algorithm by name, of those that are supported. -/
def hashing? (ha : String) : Option HashingAlgoType :=
  if ha = "sha256" then some .sha256 else if ha = "sha512" then some .sha512 else none

namespace Atchops
variable (c : Atchops)

def kidOf (pub : String) : Option String := do
  let raw ← c.base64Decode pub
  let hash ← c.sha256 raw
  return String.ofList ((hash.take 8).flatMap hex)

/-- The keys the record offers, or why it is refused. -/
def activeApskKeys (uri apsk : String) : Except String (List ApskKey) :=
  let value := stripped apsk
  if value.toList.head? ≠ some '{' then
    match c.kidOf value with
    | none => throw (uri ++ " holds a key that is not base64")
    | some kid => return [⟨kid, "rsa2048", value⟩]
  else
    match c.parse value with
    | none => throw (uri ++ " holds an advertisement that is not JSON")
    | some (.obj fields) =>
      let keys := (entries fields).filterMap apskKey?
      if keys = [] then throw (uri ++ " advertises no key NoPorts can verify") else return keys
    | some _ => throw (uri ++ " holds an advertisement that is not a JSON object")

/-- `none` when the signature verifies, else why it is refused. -/
def verifyRsa (key : ApskKey) (signedText signature : String) (hashing : HashingAlgoType) :
    Option String :=
  match c.populatePublicKey key.pub with
  | none => some ("Key " ++ key.kidText ++ " is not an RSA public key")
  | some publicKey =>
    match c.base64Decode signature with
    | none => some "The signature is not base64"
    | some raw =>
      if raw.length ≠ rsaModulusBytes publicKey ∨
          ¬c.rsaVerify publicKey hashing signedText raw then
        some "Signatures did not match."
      else none

/-- The verification with the record's value. -/
def verifyRecord (canonical apsk ha signature : String) (kid : Option String)
    (payload : Option Json) : EnrollmentSignatureResult :=
  match (do selectKey canonical (← c.activeApskKeys canonical apsk) kid) with
  | .error why => .refused why
  | .ok key =>
    match hashing? ha with
    | none => .refused ("Unsupported hashing algorithm " ++ ha)
    | some hashing =>
      match payload with
      | none => .unchecked "the payload could not be serialized"
      | some payload =>
        match c.verifyRsa key (c.printUnformatted payload) signature hashing with
        | some why => .refused why
        | none => .verified canonical

def verifyEnrollmentSignature (lookup : String → PublicLookupResult) (requester : String)
    (envelope : List (String × Json)) : EnrollmentSignatureResult :=
  match Json.field envelope enrollmentSignatureField with
  | .null => .absent
  | .obj field =>
    match readField requester field with
    | .error why => .refused why
    | .ok (uri, ha, signature, kid) =>
      let canonical := canonicalUri uri
      match lookup canonical with
      | .found apsk => c.verifyRecord canonical apsk ha signature kid (envelope.lookup "payload")
      | .notFound => .unchecked (canonical ++ " does not exist")
      | _ => .unchecked (canonical ++ " could not be looked up")
  | _ => .refused (enrollmentSignatureField ++ " is not an object")

end Atchops
end NoPorts.CDaemon
