import NoPorts.Lib.Base64
import NoPorts.Lib.Except
import NoPorts.Lib.JsonUnits

/-! The envelope that an event is logged in, in which the code units of its text are taken for bytes. -/
namespace NoPorts.EventEnvelope
open Lib JsonUnits

inductive CompressionScheme where
  | none
  | zlib
  deriving DecidableEq, Repr

inductive EncodingScheme where
  | base64
  | base2e15
  deriving DecidableEq, Repr

inductive Thrown where
  | argument (message : String)
  | unimplemented (message : Text)
  | format
  | cast
  deriving DecidableEq, Repr

def CompressionScheme.name : CompressionScheme → Text
  | none => units "none"
  | zlib => units "zlib"

def EncodingScheme.name : EncodingScheme → Text
  | base64 => units "base64"
  | base2e15 => units "base2e15"

/-- `CompressionScheme.values.byName` -/
def CompressionScheme.byName? (name : Text) : Option CompressionScheme :=
  if name = CompressionScheme.none.name then some none
  else if name = CompressionScheme.zlib.name then some zlib
  else Option.none

/-- `EncodingScheme.values.byName` -/
def EncodingScheme.byName? (name : Text) : Option EncodingScheme :=
  if name = EncodingScheme.base64.name then some base64
  else if name = EncodingScheme.base2e15.name then some base2e15
  else none

/-! ### Codecs -/

/-- Those of the packages below. -/
structure Codecs where
  /-- `ZLibEncoder.encodeBytes` -/
  zlibEncode : List ℕ → List ℕ
  /-- `ZLibDecoder.decodeBytes` -/
  zlibDecode : List ℕ → Except Thrown (List ℕ)
  /-- `Base2e15.encode` -/
  base2e15Encode : List ℕ → Text
  /-- `Base2e15.decode` -/
  base2e15Decode : Text → Except Thrown (List ℕ)

/-- What is documented of them: they are codecs of bytes, and a number is taken for its last byte. -/
structure Codecs.Documented (c : Codecs) : Prop where
  zlib : ∀ numbers, c.zlibDecode (c.zlibEncode numbers) = .ok (numbers.map (· % 256))
  zlibBytes : ∀ numbers, ∀ b ∈ c.zlibEncode numbers, b < 256
  base2e15 : ∀ numbers, c.base2e15Decode (c.base2e15Encode numbers) = .ok (numbers.map (· % 256))

/-- `base64Encode`, of bytes alone. -/
def base64Encode (numbers : List ℕ) : Except Thrown Text :=
  if numbers.all (· < 256) then .ok ((Base64.encode (numbers.map UInt8.ofNat)).map UInt8.toUInt16)
  else .error (.argument "Not a byte")

def base64Decode (t : Text) : Except Thrown (List ℕ) :=
  if t.all (·.toNat < 256) then
    match Base64.decodeAny (t.map UInt16.toUInt8) with
    | some bytes => .ok (bytes.map UInt8.toNat)
    | none => .error .format
  else .error .format

/-- `codeUnits` -/
def codeUnits (t : Text) : List ℕ := t.map UInt16.toNat

/-- The units of one character. -/
def charUnits (code : ℕ) : Text :=
  if code < 65536 then [UInt16.ofNat code]
  else [UInt16.ofNat (55296 + (code - 65536) / 1024), UInt16.ofNat (56320 + (code - 65536) % 1024)]

/-- `String.fromCharCodes` -/
def fromCharCodes (codes : List ℕ) : Text := codes.flatMap charUnits

/-! ### event_mixins.dart -/

structure AtEventEnvelope where
  payload : Text
  compressionScheme : CompressionScheme
  encodingScheme : EncodingScheme
  deriving DecidableEq, Repr

namespace AtEventEnvelope
variable (c : Codecs)

def atEventPayload (envelope : AtEventEnvelope) : Except Thrown (List (Text × Value)) :=
  match JsonUnits.read envelope.payload with
  | some (.obj members) => .ok members
  | some _ => .error .cast
  | none => .error .format

def compressed (envelope : AtEventEnvelope) : List ℕ :=
  match envelope.compressionScheme with
  | .zlib => c.zlibEncode (codeUnits envelope.payload)
  | .none => codeUnits envelope.payload

def encodedCompressed (envelope : AtEventEnvelope) : Except Thrown Text :=
  match envelope.encodingScheme with
  | .base2e15 => .ok (c.base2e15Encode (envelope.compressed c))
  | .base64 => base64Encode (envelope.compressed c)

def decode (encodedCompressedPayload encodingSchemeName : Text) : Except Thrown (List ℕ) :=
  match EncodingScheme.byName? encodingSchemeName with
  | none => .error (.unimplemented (units "Cannot decode - unknown encodingScheme \"" ++ encodingSchemeName ++ units "\""))
  | some .base2e15 => c.base2e15Decode encodedCompressedPayload
  | some .base64 => base64Decode encodedCompressedPayload

def decompress (compressedPayload : List ℕ) (compressionSchemeName : Text) : Except Thrown Text :=
  match CompressionScheme.byName? compressionSchemeName with
  | none => .error (.unimplemented (units "Unknown compressionScheme \"" ++ compressionSchemeName ++ units "\""))
  | some .zlib => fromCharCodes <$> c.zlibDecode compressedPayload
  | some .none => .ok (fromCharCodes compressedPayload)

def toJson (envelope : AtEventEnvelope) : Except Thrown (List (Text × Value)) := do
  return [(units "cs", .str envelope.compressionScheme.name), (units "es", .str envelope.encodingScheme.name),
    (units "ecp", .str (← envelope.encodedCompressed c))]

def stringFromJson (json : List (Text × Value)) (k : String) : Except Thrown Text :=
  match json.lookup (units k) with
  | some (.str s) => .ok s
  | _ => .error (.argument ("Invalid event payload value for " ++ k))

/-- `values.byName(name)`, which throws of another name. -/
def byName {α : Type} (scheme? : Option α) : Except Thrown α :=
  match scheme? with
  | some scheme => .ok scheme
  | none => .error (.argument "No enum value with that name")

def fromJson (json : List (Text × Value)) : Except Thrown AtEventEnvelope := do
  let compressionSchemeName ← stringFromJson json "cs"
  let encodingSchemeName ← stringFromJson json "es"
  let encodedCompressedPayload ← stringFromJson json "ecp"
  return {
    payload := ← decompress c (← decode c encodedCompressedPayload encodingSchemeName) compressionSchemeName
    compressionScheme := ← byName (CompressionScheme.byName? compressionSchemeName)
    encodingScheme := ← byName (EncodingScheme.byName? encodingSchemeName) }

end AtEventEnvelope

/-- An event: a JSON map. -/
structure Event where
  members : List (Text × Value)
  distinct : Distinct (.obj members)

namespace Event
variable (c : Codecs) (cs : CompressionScheme) (es : EncodingScheme) (event : Event)

/-- The envelope that `logEvent` makes. -/
def envelope : AtEventEnvelope := ⟨write (.obj event.members), cs, es⟩

/-- The event comes back from the log format. -/
def Survives : Prop :=
  ∃ json received, (event.envelope cs es).toJson c = .ok json ∧ AtEventEnvelope.fromJson c json = .ok received ∧
    received.payload = (event.envelope cs es).payload ∧ received.atEventPayload = .ok event.members

/-- But for surrogates without a pair, which are written as escapes, the strings' units are bytes. -/
def Latin : Prop := meets (·.toNat < 256) (.obj event.members) = true

end Event

/-! ### Bytes -/

/-- What is left of a text whose units were taken for bytes. -/
def narrowed (t : Text) : Text := fromCharCodes ((codeUnits t).map (· % 256))

theorem narrowed_cons (u : UInt16) (t : Text) : narrowed (u :: t) = UInt16.ofNat (u.toNat % 256) :: narrowed t := by
  have hsmall : u.toNat % 256 < 65536 := by omega
  change charUnits (u.toNat % 256) ++ narrowed t = _
  rw [charUnits, if_pos hsmall]
  rfl

theorem narrowed_eq_iff (t : Text) : narrowed t = t ↔ t.all (·.toNat < 256) = true := by
  induction t with
  | nil => exact iff_of_true rfl rfl
  | cons u t ih =>
    rw [narrowed_cons, List.cons.injEq, ih, List.all_cons, Bool.and_eq_true, decide_eq_true_eq]
    refine and_congr_left fun _ => ?_
    rw [← UInt16.toNat_inj, UInt16.toNat_ofNat_of_lt' (by simp only [UInt16.size]; omega)]
    constructor
    · intro h
      omega
    · intro h
      exact Nat.mod_eq_of_lt h

theorem map_mod_of_bytes {numbers : List ℕ} (h : ∀ b ∈ numbers, b < 256) : numbers.map (· % 256) = numbers := by
  conv_rhs => rw [← List.map_id numbers]
  exact List.map_congr_left fun b hb => Nat.mod_eq_of_lt (h b hb)

theorem base64Decode_encode {numbers : List ℕ} {t : Text} (h : base64Encode numbers = .ok t) :
    base64Decode t = .ok numbers ∧ ∀ b ∈ numbers, b < 256 := by
  rw [base64Encode] at h
  split at h
  · rename_i hall
    have hbytes : ∀ b ∈ numbers, b < 256 := fun b hb => of_decide_eq_true (List.all_eq_true.mp hall b hb)
    refine ⟨?_, hbytes⟩
    obtain rfl := Except.ok.inj h
    have hunits : ((Base64.encode (numbers.map UInt8.ofNat)).map UInt8.toUInt16).all (·.toNat < 256) = true := by
      simpa using fun u _ => UInt8.toNat_lt u
    have hbytewise : UInt16.toUInt8 ∘ UInt8.toUInt16 = id := funext UInt8.toUInt8_toUInt16
    have hback : (numbers.map UInt8.ofNat).map UInt8.toNat = numbers := by
      rw [List.map_map]
      exact (List.map_congr_left fun b _ => UInt8.toNat_ofNat').trans (map_mod_of_bytes hbytes)
    rw [base64Decode, if_pos hunits, List.map_map, hbytewise, List.map_id, Base64.decodeAny_encode]
    exact congrArg Except.ok hback
  · cases h

theorem base64Encode_of_bytes {numbers : List ℕ} (h : ∀ b ∈ numbers, b < 256) : ∃ t, base64Encode numbers = .ok t :=
  ⟨_, if_pos (List.all_eq_true.mpr fun b hb => decide_eq_true (h b hb))⟩

/-! ### The envelope -/

variable {c : Codecs} (hc : c.Documented) {cs : CompressionScheme} {es : EncodingScheme} {event : Event}

theorem byName?_compression (cs : CompressionScheme) : CompressionScheme.byName? cs.name = some cs := by
  cases cs with
  | none => decide
  | zlib => decide

theorem byName?_encoding (es : EncodingScheme) : EncodingScheme.byName? es.name = some es := by
  cases es with
  | base64 => decide
  | base2e15 => decide

include hc

/-- Decoding undoes the encoding of bytes; a number that was encoded all the same is taken for its last byte. -/
theorem decode_encodedCompressed {envelope : AtEventEnvelope} {t : Text} (h : envelope.encodedCompressed c = .ok t) :
    AtEventEnvelope.decode c t envelope.encodingScheme.name = .ok ((envelope.compressed c).map (· % 256)) := by
  rw [AtEventEnvelope.decode, byName?_encoding]
  rw [AtEventEnvelope.encodedCompressed] at h
  cases hes : envelope.encodingScheme with
  | base2e15 =>
    rw [hes] at h
    obtain rfl := Except.ok.inj h
    exact hc.base2e15 _
  | base64 =>
    rw [hes] at h
    obtain ⟨hdecode, hbytes⟩ := base64Decode_encode h
    rw [map_mod_of_bytes hbytes]
    exact hdecode

theorem decompress_compressed (envelope : AtEventEnvelope) :
    AtEventEnvelope.decompress c ((envelope.compressed c).map (· % 256)) envelope.compressionScheme.name =
      .ok (narrowed envelope.payload) := by
  rw [AtEventEnvelope.decompress, byName?_compression, AtEventEnvelope.compressed]
  cases envelope.compressionScheme with
  | none => rfl
  | zlib =>
    dsimp only
    rw [map_mod_of_bytes (hc.zlibBytes _), hc.zlib]
    rfl

/-- What is read from an envelope is its payload, each unit taken for its last byte. -/
theorem fromJson_toJson {envelope : AtEventEnvelope} {json : List (Text × Value)} (h : envelope.toJson c = .ok json) :
    AtEventEnvelope.fromJson c json = .ok { envelope with payload := narrowed envelope.payload } := by
  obtain ⟨t, ht, h⟩ := bind_eq_ok.mp h
  obtain rfl := Except.ok.inj h
  change (do
    let payload ← AtEventEnvelope.decompress c
      (← AtEventEnvelope.decode c t envelope.encodingScheme.name) envelope.compressionScheme.name
    let compressionScheme ← AtEventEnvelope.byName (CompressionScheme.byName? envelope.compressionScheme.name)
    let encodingScheme ← AtEventEnvelope.byName (EncodingScheme.byName? envelope.encodingScheme.name)
    return (⟨payload, compressionScheme, encodingScheme⟩ : AtEventEnvelope)) = _
  rw [decode_encodedCompressed hc ht, ok_bind, decompress_compressed hc, byName?_compression, byName?_encoding]
  rfl

theorem exists_encodedCompressed {envelope : AtEventEnvelope} (h : envelope.payload.all (·.toNat < 256) = true) :
    ∃ t, envelope.encodedCompressed c = .ok t := by
  rw [AtEventEnvelope.encodedCompressed, AtEventEnvelope.compressed]
  cases envelope.encodingScheme with
  | base2e15 => exact ⟨_, rfl⟩
  | base64 =>
    apply base64Encode_of_bytes
    cases envelope.compressionScheme with
    | zlib => exact hc.zlibBytes _
    | none =>
      intro b hb
      obtain ⟨u, hu, rfl⟩ := List.mem_map.mp hb
      exact of_decide_eq_true (List.all_eq_true.mp h u hu)

theorem survives_iff : event.Survives c cs es ↔ event.Latin := by
  have hpayload : (event.envelope cs es).payload.all (·.toNat < 256) = meets (·.toNat < 256) (.obj event.members) :=
    all_write (fun u hu => decide_eq_true (Nat.lt_trans hu (by decide))) _
  rw [Event.Latin, ← hpayload, ← narrowed_eq_iff]
  constructor
  · rintro ⟨json, received, hjson, hreceived, hsame, -⟩
    rw [fromJson_toJson hc hjson] at hreceived
    obtain rfl := Except.ok.inj hreceived
    exact hsame
  · intro hnarrow
    obtain ⟨t, ht⟩ := exists_encodedCompressed hc ((narrowed_eq_iff _).mp hnarrow)
    have hjson : (event.envelope cs es).toJson c = .ok [(units "cs", .str cs.name), (units "es", .str es.name),
        (units "ecp", .str t)] := by
      rw [AtEventEnvelope.toJson, ht]
      rfl
    refine ⟨_, _, hjson, fromJson_toJson hc hjson, hnarrow, ?_⟩
    simp only [AtEventEnvelope.atEventPayload, hnarrow]
    rw [Event.envelope, read_write event.distinct]

omit hc

/-- Codecs that write each byte as it is. -/
def bytewise : Codecs :=
  { zlibEncode := fun numbers => numbers.map (· % 256), zlibDecode := .ok
    base2e15Encode := fun numbers => numbers.map fun n => UInt16.ofNat (n % 256)
    base2e15Decode := fun t => .ok (codeUnits t) }

theorem bytewise_documented : bytewise.Documented := by
  constructor
  · exact fun numbers => rfl
  · intro numbers b hb
    obtain ⟨n, -, rfl⟩ := List.mem_map.mp hb
    exact Nat.mod_lt n (by decide)
  · intro numbers
    apply congrArg Except.ok
    change (numbers.map fun n => UInt16.ofNat (n % 256)).map UInt16.toNat = _
    rw [List.map_map]
    apply List.map_congr_left
    intro n _
    exact UInt16.toNat_ofNat_of_lt' (by simp only [UInt16.size]; omega)

def denied : Event := ⟨[(units "host", .str (units "café")), (units "ok", .bool false)], by
  simp [Distinct, DistinctMembers, units, unit]⟩

theorem denied_survives : denied.Survives bytewise .none .base64 :=
  (survives_iff bytewise_documented).mpr rfl

/-- A host with a letter beyond Latin-1, U+0159. -/
def named : Event := ⟨[(units "host", .str (units "př"))], by simp [Distinct, DistinctMembers]⟩

theorem named_lost : ¬∃ cs es, named.Survives bytewise cs es := by
  rintro ⟨cs, es, json, received, hjson, hreceived, hsame, -⟩
  rw [fromJson_toJson bytewise_documented hjson] at hreceived
  obtain rfl := Except.ok.inj hreceived
  have hwide : (write (.obj named.members)).all (·.toNat < 256) = false := by decide
  exact absurd ((narrowed_eq_iff _).mp hsame) (Bool.eq_false_iff.mp hwide)

end NoPorts.EventEnvelope
