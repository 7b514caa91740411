import NoPorts.Lib.Base64
import NoPorts.Lib.StreamCipher
import NoPorts.SrvControl

/-! The connect message: the Dart client that writes it, and the Dart daemon that reads it. -/
namespace NoPorts.Connect
open Lib

/-- `codeUnits`, as `Uint8List.fromList` takes them. -/
def codeUnits (s : String) : List UInt8 := s.toList.map fun c => UInt8.ofNat c.toNat

/-- `String.fromCharCodes`. -/
def fromCharCodes (bytes : List UInt8) : String := String.ofList (bytes.map fun b => Char.ofNat b.toNat)

def base64Encode (bytes : List UInt8) : String := fromCharCodes (Base64.encode bytes)

/-- `base64Decode`; none when it throws. -/
def base64Decode (text : String) : Option (List UInt8) :=
  if text.toList.all (·.toNat < 128) then Base64.decodeAny (codeUnits text) else none

/-- `message.split(":")`. -/
def split (message : String) : List String := (message.toList.splitOn ':').map String.ofList

/-- A key and an IV as `generateAes256Key` and `generateIvBase64` draw them. -/
structure SessionKey where
  key : List UInt8
  iv : List UInt8
  key_length : key.length = 32
  iv_length : iv.length = 16

namespace SessionKey
variable (k : SessionKey)

def keyText : String := base64Encode k.key

def ivText : String := base64Encode k.iv

end SessionKey

/-- What a Dart host has for AES-CTR: libcrypto's cipher, if it has libcrypto, and Dart's own. -/
structure DartHost (σ : Type) where
  base64Decode : String → Option (List UInt8)
  aesCtrStreamCipher : List UInt8 → List UInt8 → Option σ
  dartAesCtr : List UInt8 → List UInt8 → σ
  update : Transducer σ UInt8

/-- Its ciphers are AES-CTR, with the keystream `aes`, on a new stream. -/
structure DartHost.IsAesCtr {σ : Type} (host : DartHost σ)
    (aes : List UInt8 → List UInt8 → Keystream UInt8) : Prop where
  base64Decode : ∀ bytes, host.base64Decode (base64Encode bytes) = some bytes
  libcrypto : ∀ k : SessionKey, ∀ s, host.aesCtrStreamCipher k.key k.iv = some s →
    host.update.Follows s (aes k.key k.iv)
  pureDart : ∀ k : SessionKey, host.update.Follows (host.dartAesCtr k.key k.iv) (aes k.key k.iv)

/-- What transforms the bytes read from the local socket, and those read from the relay. -/
structure Sides (σ : Type) where
  sideA : Option σ
  sideB : Option σ

namespace DartHost
variable {σ : Type} (host : DartHost σ)

/-- `setAesCtrTransformer`; none when it throws. -/
def setAesCtrTransformer (aesKeyBase64 ivBase64 : String) : Option σ := do
  let aesKey ← host.base64Decode aesKeyBase64
  let iv ← host.base64Decode ivBase64
  guard (aesKey.length = 16 ∨ aesKey.length = 24 ∨ aesKey.length = 32)
  guard (iv.length = 16)
  return (host.aesCtrStreamCipher aesKey iv).getD (host.dartAesCtr aesKey iv)

/-- The client, once a local socket has been joined to the relay: its sides, and what it adds
to the control channel. -/
def beforeJoining (twinKeys : Bool) (c2d d2c : SessionKey) : Option (Sides σ × List UInt8) := do
  let d2c := if twinKeys then d2c else c2d
  let sideA ← host.setAesCtrTransformer c2d.keyText c2d.ivText
  let sideB ← host.setAesCtrTransformer d2c.keyText d2c.ivText
  let message :=
    if twinKeys then
      "connect:" ++ c2d.keyText ++ ":" ++ c2d.ivText ++ ":" ++ d2c.keyText ++ ":" ++ d2c.ivText ++ "\n"
    else "connect:" ++ c2d.keyText ++ ":" ++ c2d.ivText ++ "\n"
  return (⟨some sideA, some sideB⟩, codeUnits message)

end DartHost

/-- The arguments of `_handleMultiConnectRequest`. -/
structure ConnectRequest where
  aesC2D : Option String
  ivC2D : Option String
  aesD2C : Option String
  ivD2C : Option String
  deriving DecidableEq, Repr

/-- What `_handleControlMessage` makes of a message. -/
inductive ControlAction where
  | connect (request : ConnectRequest)
  | malformed
  | rangeError
  | heartbeat
  | unknown
  deriving DecidableEq, Repr

def handleControlMessage (message : String) : ControlAction :=
  let message := Signing.trim message
  let args := split message
  if args.head? = some "connect" then
    if message ≠ "connect:no:encrypt" then
      match args with
      | [_, aesC2D, ivC2D] => .connect ⟨some aesC2D, some ivC2D, none, none⟩
      -- two keys, of which the second has no IV
      | [_, _, _, _] => .rangeError
      | _ :: aesC2D :: ivC2D :: aesD2C :: ivD2C :: _ =>
        .connect ⟨some aesC2D, some ivC2D, some aesD2C, some ivD2C⟩
      | _ => .malformed
    else .connect ⟨none, none, none, none⟩
  else if args.head? = some "heartbeat" then .heartbeat
  else .unknown

/-- The sides `_handleMultiConnectRequest` joins; none when a transformer cannot be had. -/
def DartHost.handleMultiConnectRequest {σ : Type} (host : DartHost σ) (request : ConnectRequest) :
    Option (Sides σ) :=
  match request.aesC2D, request.ivC2D with
  | some aesC2D, some ivC2D => do
    let sideB ← host.setAesCtrTransformer aesC2D ivC2D
    let sideA ←
      match request.aesD2C with
      | none => host.setAesCtrTransformer aesC2D ivC2D
      | some aesD2C => do host.setAesCtrTransformer aesD2C (← request.ivD2C)
    return ⟨some sideA, some sideB⟩
  | _, _ => some ⟨none, none⟩

end NoPorts.Connect
