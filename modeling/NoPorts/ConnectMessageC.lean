import NoPorts.CSrvControl
import NoPorts.Lib.StreamCipher

/-! The connect message, as the C daemon and the Arduino daemon read it. -/
namespace NoPorts
open Lib

/-- A key schedule, and where mbedtls is in its keystream. -/
structure AesCtr where
  ctx : List UInt8
  nonce_counter : List UInt8
  nc_off : ℕ
  stream_block : List UInt8
  deriving DecidableEq, Repr

/-- What the C daemon and the Arduino daemon call. A decoding fails that needs more than the
bytes there are for it. -/
structure MbedHost where
  base64_decode : ℕ → List UInt8 → Option (List UInt8)
  mbedtls_aes_crypt_ctr : Transducer AesCtr UInt8

namespace CSrv
variable (host : MbedHost)

/-- "connect" -/
def connect : List UInt8 := [99, 111, 110, 110, 101, 99, 116]

/-- "no" -/
def no : List UInt8 := [110, 111]

/-- "encrypt" -/
def encrypt : List UInt8 := [101, 110, 99, 114, 121, 112, 116]

/-- `create_transformer`; none when it returns an error. -/
def create_transformer (aes_key_base64 aes_iv_base64 : List UInt8) : Option AesCtr := do
  let aes_key ← host.base64_decode 32 aes_key_base64
  guard (aes_key.length = 32)
  let nonce_counter ← host.base64_decode 16 aes_iv_base64
  guard (nonce_counter.length = 16)
  return ⟨aes_key, nonce_counter, 0, List.replicate 16 0⟩

structure Transformers where
  encrypter : AesCtr
  decrypter : AesCtr

def create_encrypter_and_decrypter (key_c2d iv_c2d : List UInt8) (d2c : Option (List UInt8 × List UInt8)) :
    Option Transformers := do
  let decrypter ← create_transformer host key_c2d iv_c2d
  let encrypter ←
    match d2c with
    | some (key_d2c, iv_d2c) => create_transformer host key_d2c iv_d2c
    | none => create_transformer host key_c2d iv_c2d
  return ⟨encrypter, decrypter⟩

/-- What the control loop makes of the request at `request`: nothing, or a connection that is
encrypted or not. -/
def connectRequest (mem : List UInt8) (request : ℕ) : Option (Option Transformers) :=
  match parse_control_message mem request with
  | (none, _) => none
  | (some message, mem) =>
    if cstring mem message.message_type = connect then
      let key_c2d := cstring mem message.new_session_aes_key_c2d_string
      let iv_c2d := cstring mem message.new_session_aes_iv_c2d_string
      if key_c2d = no ∧ iv_c2d = encrypt then some none
      else
        -- a request whose keys cannot be read is skipped
        (create_encrypter_and_decrypter host key_c2d iv_c2d
          (message.d2c.map fun d2c => (cstring mem d2c.1, cstring mem d2c.2))).map some
    else none

end CSrv

namespace Arduino
open CSrv (newline colon)
variable (host : MbedHost)

/-- The size of `ctrl_msg`, and of `parse_buf`. -/
def ctrlMsgSize : ℕ := 384

/-- One byte of the control channel, decrypted: a message it ends, and `ctrl_msg` after it. -/
def controlByte (ctrl_msg : List UInt8) (decoded : UInt8) : Option (List UInt8) × List UInt8 :=
  if decoded = newline then (some ctrl_msg, [])
  else if ctrl_msg.length < ctrlMsgSize - 1 then (none, ctrl_msg ++ [decoded])
  else (none, ctrl_msg)

/-- The messages in `bytes`, and `ctrl_msg` after them. -/
def controlBytes (ctrl_msg : List UInt8) : List UInt8 → List (List UInt8) × List UInt8
  | [] => ([], ctrl_msg)
  | decoded :: bytes =>
    let next := controlByte ctrl_msg decoded
    let rest := controlBytes next.2 bytes
    (next.1.toList ++ rest.1, rest.2)

def _init_aes_ctr_state (key_b64 iv_b64 : List UInt8) : Option AesCtr := do
  let aes_key ← host.base64_decode 32 key_b64
  guard (aes_key.length = 32)
  let iv ← host.base64_decode 16 iv_b64
  guard (iv.length = 16)
  return ⟨aes_key, iv, 0, List.replicate 16 0⟩

def _create_enc_dec (key_c2d_b64 iv_c2d_b64 : List UInt8) (d2c : Option (List UInt8 × List UInt8)) :
    Option CSrv.Transformers := do
  let dec_out ← _init_aes_ctr_state host key_c2d_b64 iv_c2d_b64
  let enc_out ←
    match d2c with
    | some (key_d2c_b64, iv_d2c_b64) => _init_aes_ctr_state host key_d2c_b64 iv_d2c_b64
    | none => _init_aes_ctr_state host key_c2d_b64 iv_c2d_b64
  return ⟨enc_out, dec_out⟩

/-- `parse_buf`, cut at its colons into four fields at most. -/
def cutFields (nfields : ℕ) (field : List UInt8) : List UInt8 → List (List UInt8)
  | [] => [field]
  | c :: rest =>
    if nfields < 4 then
      if c = colon then field :: cutFields (nfields + 1) [] rest
      else cutFields nfields (field ++ [c]) rest
    else [field ++ c :: rest]

def fields (data_start : List UInt8) : List (List UInt8) :=
  cutFields 1 [] (data_start.take (ctrlMsgSize - 1))

/-- `_handle_connect_msg`, of a message that starts with "connect:": none when it is rejected,
else a connection that is encrypted or not. -/
def _handle_connect_msg (msg : List UInt8) : Option (Option CSrv.Transformers) :=
  let data_start := (msg.takeWhile (· != 0)).drop 8
  if data_start = CSrv.no ++ colon :: CSrv.encrypt ∨ data_start = [] then some none
  else
    match fields data_start with
    | [key, iv, key_d2c, iv_d2c] => (_create_enc_dec host key iv (some (key_d2c, iv_d2c))).map some
    | key :: iv :: _ => (_create_enc_dec host key iv none).map some
    | _ => none

end Arduino

end NoPorts
