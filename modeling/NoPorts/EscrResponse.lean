import NoPorts.ConnectMessageC
import NoPorts.Lib.Base64

/-! The ESCR response the C daemon's srv answers a relay's challenge with. -/
namespace NoPorts.CSrv
open Lib

structure RsaPrivateKey where
  n : List UInt8
  e : List UInt8
  d : List UInt8
  p : List UInt8
  q : List UInt8
  deriving DecidableEq, Repr

/-- What the building of a response calls besides. An encoding fails that needs more than the
bytes there are for it. -/
structure EscrHost extends MbedHost where
  base64_encode : ℕ → List UInt8 → Option (List UInt8)
  rsa_sign : RsaPrivateKey → List UInt8 → Option (List UInt8)
  mbedtls_aes_setkey_enc : List UInt8 → Bool

/-- Why there is no response. -/
inductive EscrRefusal where
  | needsEscaping
  | tooLong
  | notRsa2048
  | failed
  deriving DecidableEq, Repr

def ESCR_MAX_LINE : ℕ := 4096

def ESCR_RSA_SIG_BYTES : ℕ := 256

def json_safe (s : List UInt8) : Bool := s.all fun p => !(p < 32 || 126 < p || p == 34 || p == 92)

/-- The bytes of a literal. -/
def literal (s : String) : List UInt8 := s.toList.map fun c => UInt8.ofNat c.toNat

/-- `snprintf`: what stands in the buffer, and what is returned. -/
def snprintf (size : ℕ) (text : List UInt8) : List UInt8 × ℤ :=
  (text.take (size - 1), if text.length ≤ 0x7fffffff then text.length else -1)

/-- `snprintf` into a buffer of `ESCR_MAX_LINE`, with the check of what it returns. -/
def printed (text : List UInt8) : Except EscrRefusal (List UInt8) :=
  let (buffer, n) := snprintf ESCR_MAX_LINE text
  if n < 0 ∨ (ESCR_MAX_LINE : ℤ) ≤ n then throw .tooLong else return buffer

/-- The number of bytes of the modulus without those zero at its front. -/
def modulusBytes (signing_key : RsaPrivateKey) : ℕ := (signing_key.n.dropWhile (· == 0)).length

/-! The texts `snprintf` is given. -/

def payloadText (session_id challenge : List UInt8) (is_side_a : Bool) : List UInt8 :=
  literal "\x7b\"sid\":\"" ++ session_id ++ literal "\",\"c\":\"" ++ challenge ++
    literal "\",\"side\":\"" ++ literal (if is_side_a then "a" else "b") ++ literal "\"\x7d"

def envelopeText (p_json sig_b64 signing_key_uri : List UInt8) : List UInt8 :=
  literal "\x7b\"p\":" ++ p_json ++ literal ",\"s\":\"" ++ sig_b64 ++
    literal "\",\"ha\":\"sha256\",\"sa\":\"rsa2048\",\"sk\":\"" ++ signing_key_uri ++ literal "\"\x7d"

def outerText (iv_b64 enc_b64 : List UInt8) : List UInt8 :=
  literal "\x7b\"iv\":\"" ++ iv_b64 ++ literal "\",\"e\":\"" ++ enc_b64 ++ literal "\"\x7d"

variable (host : EscrHost)

/-- Room is kept for the terminator. -/
def base64_encode_str (dstsize : ℕ) (src : List UInt8) : Option (List UInt8) :=
  if dstsize = 0 then none else host.base64_encode (dstsize - 1) src

def orElse {α : Type} (refusal : EscrRefusal) : Option α → Except EscrRefusal α
  | some a => return a
  | none => throw refusal

/-- The buffer `padded`. -/
def padded (env64 : List UInt8) : List UInt8 :=
  let pad := 16 - env64.length % 16
  env64 ++ List.replicate pad (UInt8.ofNat pad)

/-- `srv_escr_build_response`, of strings without their terminators. -/
def srv_escr_build_response (session_id challenge aes_key_base64 signing_key_uri : List UInt8)
    (signing_key : RsaPrivateKey) (is_side_a : Bool) (iv : Vector UInt8 16) :
    Except EscrRefusal (List UInt8) := do
  if !json_safe session_id || !json_safe challenge || !json_safe signing_key_uri then
    throw .needsEscaping
  else
    let p_json ← printed (payloadText session_id challenge is_side_a)
    if modulusBytes signing_key ≠ ESCR_RSA_SIG_BYTES then throw .notRsa2048
    else
      let sig ← orElse .failed (host.rsa_sign signing_key p_json)
      let sig_b64 ← orElse .failed (base64_encode_str host 512 sig)
      let env_json ← printed (envelopeText p_json sig_b64 signing_key_uri)
      let env64 ← orElse .tooLong (base64_encode_str host ESCR_MAX_LINE env_json)
      let aes_key ← orElse .failed (host.base64_decode 32 aes_key_base64)
      if aes_key.length ≠ 32 then throw .failed
      else if !host.mbedtls_aes_setkey_enc aes_key then throw .failed
      else
        let encrypted := (host.mbedtls_aes_crypt_ctr ⟨aes_key, iv.toList, 0, List.replicate 16 0⟩
          (padded env64)).1
        let iv_b64 ← orElse .failed (base64_encode_str host 32 iv.toList)
        let enc_b64 ← orElse .tooLong (base64_encode_str host ESCR_MAX_LINE encrypted)
        let outer_json ← printed (outerText iv_b64 enc_b64)
        let auth_payload64 ← orElse .tooLong (base64_encode_str host ESCR_MAX_LINE outer_json)
        let out_line := session_id ++ colon :: auth_payload64
        if ESCR_MAX_LINE - 1 < out_line.length then throw .tooLong else return out_line

end NoPorts.CSrv
