import Mathlib.Tactic.IntervalCases

/-! Percent-encoding: the bytes that are kept stand for themselves, each other one for its two digits. -/
namespace NoPorts.Lib

/-- A digit as `%X` prints it. -/
def upperHex (d : ℕ) : UInt8 := UInt8.ofNat (if d < 10 then 48 + d else 55 + d)

/-- The value of a digit, in upper or in lower case. -/
def hexValue (c : UInt8) : Option ℕ :=
  if 48 ≤ c ∧ c ≤ 57 then some (c.toNat - 48)
  else if 65 ≤ c ∧ c ≤ 70 then some (c.toNat - 55)
  else if 97 ≤ c ∧ c ≤ 102 then some (c.toNat - 87)
  else none

/-- A byte as `"%%%02X"` prints it. -/
def percentByte (c : UInt8) : List UInt8 := [37, upperHex (c.toNat / 16), upperHex (c.toNat % 16)]

def percentEncode (keep : UInt8 → Bool) (bytes : List UInt8) : List UInt8 :=
  bytes.flatMap fun c => if keep c then [c] else percentByte c

def percentDecode : List UInt8 → Option (List UInt8)
  | [] => some []
  | c :: text =>
    if c = 37 then
      match text with
      | high :: low :: text =>
        (hexValue high).bind fun high => (hexValue low).bind fun low =>
          (percentDecode text).map (UInt8.ofNat (16 * high + low) :: ·)
      | _ => none
    else (percentDecode text).map (c :: ·)

theorem hexValue_upperHex {d : ℕ} (h : d < 16) : hexValue (upperHex d) = some d := by
  interval_cases d <;> rfl

@[simp] theorem length_percentByte (c : UInt8) : (percentByte c).length = 3 := rfl

section
variable {keep : UInt8 → Bool}

theorem percentEncode_cons (c : UInt8) (bytes : List UInt8) : percentEncode keep (c :: bytes) =
    (if keep c then [c] else percentByte c) ++ percentEncode keep bytes := List.flatMap_cons

theorem length_percentEncode_le (bytes : List UInt8) : (percentEncode keep bytes).length ≤ 3 * bytes.length := by
  induction bytes with
  | nil => exact Nat.le_refl 0
  | cons c bytes ih =>
    rw [percentEncode_cons, List.length_append, List.length_cons]
    split
    · rw [List.length_singleton]
      omega
    · rw [length_percentByte]
      omega

/-- What a byte of the text is: one that is kept, the percent sign or a digit. -/
theorem mem_percentEncode {bytes : List UInt8} {b : UInt8} (h : b ∈ percentEncode keep bytes) :
    (b ∈ bytes ∧ keep b = true) ∨ b = 37 ∨ ∃ d, d < 16 ∧ b = upperHex d := by
  obtain ⟨c, hc, hb⟩ := List.mem_flatMap.mp h
  have hbyte := c.toNat_lt
  split at hb
  · rename_i hkeep
    obtain rfl := List.mem_singleton.mp hb
    exact Or.inl ⟨hc, hkeep⟩
  · right
    rw [percentByte, List.mem_cons, List.mem_cons, List.mem_singleton] at hb
    rcases hb with rfl | rfl | rfl
    · exact Or.inl rfl
    · exact Or.inr ⟨_, by omega, rfl⟩
    · exact Or.inr ⟨_, by omega, rfl⟩

/-- A byte that stands neither for itself nor in a digit pair is not in the text. -/
theorem notMem_percentEncode {b : UInt8} (hkeep : keep b = false) (hpercent : b ≠ 37)
    (hdigit : (List.range 16).all fun d => b ≠ upperHex d) (bytes : List UInt8) : b ∉ percentEncode keep bytes := by
  intro h
  rcases mem_percentEncode h with ⟨-, hkept⟩ | rfl | ⟨d, hd, hb⟩
  · rw [hkeep] at hkept
    cases hkept
  · exact hpercent rfl
  · have hne := List.all_eq_true.mp hdigit d (List.mem_range.mpr hd)
    exact of_decide_eq_true hne hb

theorem percentDecode_of_ne {c : UInt8} (h : c ≠ 37) (text : List UInt8) :
    percentDecode (c :: text) = (percentDecode text).map (c :: ·) := by
  rw [percentDecode.eq_def]
  exact if_neg h

theorem percentDecode_percentByte (c : UInt8) (text : List UInt8) :
    percentDecode (percentByte c ++ text) = (percentDecode text).map (c :: ·) := by
  have hbyte := c.toNat_lt
  have hvalue : UInt8.ofNat (16 * (c.toNat / 16) + c.toNat % 16) = c := by
    rw [Nat.div_add_mod]
    exact UInt8.ofNat_toNat
  have hsplit : percentByte c ++ text =
      37 :: upperHex (c.toNat / 16) :: upperHex (c.toNat % 16) :: text := rfl
  rw [hsplit, percentDecode, if_pos rfl, hexValue_upperHex (by omega), hexValue_upperHex (by omega)]
  simp only [Option.bind_some, hvalue]

/-- The text is decoded to the bytes, if the percent sign itself is not kept. -/
theorem percentDecode_percentEncode (hkeep : keep 37 = false) (bytes : List UInt8) :
    percentDecode (percentEncode keep bytes) = some bytes := by
  induction bytes with
  | nil => rfl
  | cons c bytes ih =>
    rw [percentEncode_cons]
    split
    · rename_i hc
      have hne : c ≠ 37 := by
        rintro rfl
        rw [hkeep] at hc
        cases hc
      rw [List.singleton_append, percentDecode_of_ne hne, ih]
      rfl
    · rw [percentDecode_percentByte, ih]
      rfl

end

end NoPorts.Lib
