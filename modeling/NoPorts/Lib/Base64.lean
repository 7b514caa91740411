import Mathlib.Data.List.Basic
import Mathlib.Data.Option.Basic

/-! Base64 in its standard alphabet, with padding. -/
namespace NoPorts.Lib.Base64

def pad : UInt8 := 61

/-- The character for six bits. -/
def char (n : ℕ) : UInt8 :=
  if n < 26 then UInt8.ofNat (65 + n)
  else if n < 52 then UInt8.ofNat (97 + (n - 26))
  else if n < 62 then UInt8.ofNat (48 + (n - 52))
  else if n = 62 then 43 else 47

def sextet (c : UInt8) : Option ℕ :=
  if 65 ≤ c.toNat ∧ c.toNat ≤ 90 then some (c.toNat - 65)
  else if 97 ≤ c.toNat ∧ c.toNat ≤ 122 then some (c.toNat - 97 + 26)
  else if 48 ≤ c.toNat ∧ c.toNat ≤ 57 then some (c.toNat - 48 + 52)
  else if c.toNat = 43 then some 62
  else if c.toNat = 47 then some 63
  else none

def encode : List UInt8 → List UInt8
  | [] => []
  | [a] => [char (a.toNat / 4), char (a.toNat % 4 * 16), pad, pad]
  | [a, b] => [char (a.toNat / 4), char (a.toNat % 4 * 16 + b.toNat / 16), char (b.toNat % 16 * 4), pad]
  | a :: b :: c :: rest =>
    char (a.toNat / 4) :: char (a.toNat % 4 * 16 + b.toNat / 16) ::
      char (b.toNat % 16 * 4 + c.toNat / 64) :: char (c.toNat % 64) :: encode rest

def decode : List UInt8 → Option (List UInt8)
  | [] => some []
  | w :: x :: y :: z :: rest => do
    let p ← sextet w
    let q ← sextet x
    if z = pad ∧ rest = [] then
      if y = pad then
        guard (q % 16 = 0)
        return [UInt8.ofNat (p * 4 + q / 16)]
      else
        let r ← sextet y
        guard (r % 4 = 0)
        return [UInt8.ofNat (p * 4 + q / 16), UInt8.ofNat (q % 16 * 16 + r / 4)]
    else
      let r ← sextet y
      let s ← sextet z
      let more ← decode rest
      return UInt8.ofNat (p * 4 + q / 16) :: UInt8.ofNat (q % 16 * 16 + r / 4) ::
        UInt8.ofNat (r % 4 * 64 + s) :: more
  | _ => none

/-- A text in the standard alphabet, of one that may be in that for URLs, with its padding escaped. -/
def ofUrl : List UInt8 → List UInt8
  | 37 :: 51 :: 68 :: rest => pad :: ofUrl rest
  | 37 :: 51 :: 100 :: rest => pad :: ofUrl rest
  | 45 :: rest => 43 :: ofUrl rest
  | 95 :: rest => 47 :: ofUrl rest
  | c :: rest => c :: ofUrl rest
  | [] => []

/-- `decode`, of both alphabets. -/
def decodeAny (text : List UInt8) : Option (List UInt8) := decode (ofUrl text)

theorem sextet_char {n : ℕ} (h : n < 64) : sextet (char n) = some n := by
  have hall : ∀ m : Fin 64, sextet (char m) = some m.val := by decide
  exact hall ⟨n, h⟩

/-- No six bits are written as the padding. -/
theorem char_ne_pad (n : ℕ) : char n ≠ pad := by
  by_cases h : n < 64
  · intro heq
    have hsome := sextet_char h
    rw [heq] at hsome
    cases hsome
  · have hlast : char n = 47 := by
      rw [char, if_neg (by omega), if_neg (by omega), if_neg (by omega), if_neg (by omega)]
    rw [hlast]
    decide

theorem ofNat_eq {n : ℕ} {b : UInt8} (h : n = b.toNat) : UInt8.ofNat n = b := by
  rw [h, UInt8.ofNat_toNat]

theorem decode_encode (bytes : List UInt8) : decode (encode bytes) = some bytes := by
  induction bytes using encode.induct with
  | case1 => rfl
  | case2 a =>
    have ha := a.toNat_lt
    have hzero : a.toNat % 4 * 16 % 16 = 0 := by omega
    have hfirst : UInt8.ofNat (a.toNat / 4 * 4 + a.toNat % 4 * 16 / 16) = a := ofNat_eq (by omega)
    simp only [encode, decode, sextet_char (show a.toNat / 4 < 64 by omega),
      sextet_char (show a.toNat % 4 * 16 < 64 by omega), hzero, hfirst, Option.bind_eq_bind,
      Option.bind_some, and_self, if_true, guard_true, Option.pure_def]
  | case3 a b =>
    have ha := a.toNat_lt
    have hb := b.toNat_lt
    have hzero : b.toNat % 16 * 4 % 4 = 0 := by omega
    have hfirst : UInt8.ofNat (a.toNat / 4 * 4 + (a.toNat % 4 * 16 + b.toNat / 16) / 16) = a :=
      ofNat_eq (by omega)
    have hsecond : UInt8.ofNat ((a.toNat % 4 * 16 + b.toNat / 16) % 16 * 16 + b.toNat % 16 * 4 / 4) = b :=
      ofNat_eq (by omega)
    simp only [encode, decode, sextet_char (show a.toNat / 4 < 64 by omega),
      sextet_char (show a.toNat % 4 * 16 + b.toNat / 16 < 64 by omega),
      sextet_char (show b.toNat % 16 * 4 < 64 by omega), char_ne_pad, hzero, hfirst, hsecond,
      Option.bind_eq_bind, Option.bind_some, and_self, if_true, if_false, guard_true, Option.pure_def]
  | case4 a b c rest ih =>
    have ha := a.toNat_lt
    have hb := b.toNat_lt
    have hc := c.toNat_lt
    have hfirst : UInt8.ofNat (a.toNat / 4 * 4 + (a.toNat % 4 * 16 + b.toNat / 16) / 16) = a :=
      ofNat_eq (by omega)
    have hsecond : UInt8.ofNat ((a.toNat % 4 * 16 + b.toNat / 16) % 16 * 16 +
        (b.toNat % 16 * 4 + c.toNat / 64) / 4) = b := ofNat_eq (by omega)
    have hthird : UInt8.ofNat ((b.toNat % 16 * 4 + c.toNat / 64) % 4 * 64 + c.toNat % 64) = c :=
      ofNat_eq (by omega)
    simp only [encode, decode, sextet_char (show a.toNat / 4 < 64 by omega),
      sextet_char (show a.toNat % 4 * 16 + b.toNat / 16 < 64 by omega),
      sextet_char (show b.toNat % 16 * 4 + c.toNat / 64 < 64 by omega),
      sextet_char (show c.toNat % 64 < 64 by omega), char_ne_pad, false_and, ih, hfirst, hsecond,
      hthird, Option.bind_eq_bind, Option.bind_some, if_false, Option.pure_def]

/-- A letter, a digit, or one of `+`, `/` and `=`. -/
def isChar (c : UInt8) : Bool :=
  (65 ≤ c && c ≤ 90) || (97 ≤ c && c ≤ 122) || (48 ≤ c && c ≤ 57) || c == 43 || c == 47 || c == pad

theorem isChar_cases {c : UInt8} (h : isChar c = true) : (65 ≤ c.toNat ∧ c.toNat ≤ 90) ∨
    (97 ≤ c.toNat ∧ c.toNat ≤ 122) ∨ (48 ≤ c.toNat ∧ c.toNat ≤ 57) ∨ c.toNat = 43 ∨ c.toNat = 47 ∨
      c.toNat = 61 := by
  simpa [isChar, pad, UInt8.le_iff_toNat_le, ← UInt8.toNat_inj, or_assoc] using h

theorem isChar_char (n : ℕ) : isChar (char n) = true := by
  by_cases h : n < 64
  · have hall : ∀ m : Fin 64, isChar (char m) = true := by decide
    exact hall ⟨n, h⟩
  · rw [char, if_neg (by omega), if_neg (by omega), if_neg (by omega), if_neg (by omega)]
    rfl

theorem isChar_of_mem_encode {bytes : List UInt8} {c : UInt8} (h : c ∈ encode bytes) : isChar c = true := by
  have hpad : isChar pad = true := rfl
  induction bytes using encode.induct with
  | case1 => cases h
  | case2 a =>
    simp only [encode, List.mem_cons, List.not_mem_nil, or_false] at h
    rcases h with rfl | rfl | rfl | rfl <;> first | exact isChar_char _ | exact hpad
  | case3 a b =>
    simp only [encode, List.mem_cons, List.not_mem_nil, or_false] at h
    rcases h with rfl | rfl | rfl | rfl <;> first | exact isChar_char _ | exact hpad
  | case4 a b c rest ih =>
    simp only [encode, List.mem_cons] at h
    rcases h with rfl | rfl | rfl | rfl | h
    · exact isChar_char _
    · exact isChar_char _
    · exact isChar_char _
    · exact isChar_char _
    · exact ih h

theorem ofUrl_eq_self {text : List UInt8} (h : ∀ c ∈ text, isChar c = true) : ofUrl text = text := by
  induction text with
  | nil => rfl
  | cons c rest ih =>
    obtain ⟨hc, hrest⟩ := List.forall_mem_cons.mp h
    have hcases := isChar_cases hc
    rw [ofUrl, ih hrest]
    · rintro x rfl
      simp at hcases
    · rintro x rfl
      simp at hcases
    · rintro rfl
      simp at hcases
    · rintro rfl
      simp at hcases

theorem decodeAny_encode (bytes : List UInt8) : decodeAny (encode bytes) = some bytes := by
  rw [decodeAny, ofUrl_eq_self fun c hc => isChar_of_mem_encode hc, decode_encode]

theorem length_encode (bytes : List UInt8) : (encode bytes).length = (bytes.length + 2) / 3 * 4 := by
  induction bytes using encode.induct with
  | case1 => rfl
  | case2 a => simp [encode]
  | case3 a b => simp [encode]
  | case4 a b c rest ih =>
    simp only [encode, List.length_cons, ih]
    omega

end NoPorts.Lib.Base64
