import Mathlib.Algebra.Order.Group.Nat
import NoPorts.Lib.CString

/-! A string that grows in a buffer of bytes. A function is none where it would read or write outside of the buffer. -/
namespace NoPorts.Lib.CAppend

/-- A string in memory, where an address has 56 bits at most. -/
structure CStr where
  bytes : List UInt8
  nul : 0 ∉ bytes
  inMemory : bytes.length < 2 ^ 56

/-- The greatest `int`. -/
def intMax : ℕ := 2147483647

def strlen (buf : List UInt8) : Option ℕ := if 0 ∈ buf then some (cstring buf 0).length else none

def strncat (buf src : List UInt8) (n : ℕ) : Option (List UInt8) :=
  (strlen buf).bind fun len => store buf len (src.take n ++ [0])

/-- `snprintf` of a text to `pos`, with room for `size` bytes. It fails if the text's length is no `int`, and leaves what
`scrap` says. -/
def snprintf (scrap : List UInt8 → List UInt8) (buf : List UInt8) (pos size : ℕ) (text : List UInt8) :
    Option (List UInt8) :=
  if size = 0 then some buf
  else if text.length ≤ intMax then store buf pos (text.take (size - 1) ++ [0])
  else store buf pos ((scrap text).take size)

/-- Where a string has such a byte last. -/
def strrchr (s : List UInt8) (c : UInt8) : Option ℕ :=
  if c ∈ s then some (s.length - 1 - s.reverse.idxOf c) else none

/-- The buffer begins with the string `text`. -/
structure Holds (buf text : List UInt8) : Prop where
  nul : 0 ∉ text
  held : text ++ [0] <+: buf

section
variable {buf text : List UInt8}

theorem store_prefix (h : text <+: buf) {data : List UInt8} (hroom : text.length + data.length ≤ buf.length) :
    ∃ buf', store buf text.length data = some buf' ∧ text ++ data <+: buf' ∧ buf'.length = buf.length := by
  obtain ⟨buf', hstore, hlen, htake⟩ := store_of_le hroom
  refine ⟨buf', hstore, ?_, hlen⟩
  rw [← List.prefix_iff_eq_take.mp h] at htake
  rw [← htake]
  exact List.take_prefix _ _

/-- What is printed behind a text, in a buffer with room for it. -/
theorem snprintf_append (scrap : List UInt8 → List UInt8) (h : text <+: buf) {data : List UInt8}
    (hint : data.length ≤ intMax) (hroom : text.length + data.length < buf.length) :
    ∃ buf', snprintf scrap buf text.length (buf.length - text.length) data = some buf' ∧
      text ++ data ++ [0] <+: buf' ∧ buf'.length = buf.length := by
  have hwhole : data.take (buf.length - text.length - 1) = data := List.take_of_length_le (by omega)
  have hstored : text.length + (data ++ [0]).length ≤ buf.length := by
    rw [List.length_append, List.length_singleton]
    omega
  obtain ⟨buf', hstore, hheld, hlen⟩ := store_prefix h hstored
  rw [← List.append_assoc] at hheld
  refine ⟨buf', ?_, hheld, hlen⟩
  rw [snprintf, if_neg (by omega), if_pos hint, hwhole, hstore]

namespace Holds

theorem front (h : Holds buf text) : text <+: buf := (List.prefix_append text [0]).trans h.held

theorem cstring (h : Holds buf text) : Lib.cstring buf 0 = text := by
  obtain ⟨rest, rfl⟩ := h.held
  have hstring : Lib.cstring ([] ++ text ++ 0 :: rest) ([] : List UInt8).length = text := cstring_append h.nul
  rw [List.append_assoc]
  exact hstring

theorem strlen (h : Holds buf text) : CAppend.strlen buf = some text.length := by
  have hmem : (0 : UInt8) ∈ buf := h.held.subset (List.mem_append_right _ (List.mem_singleton.mpr rfl))
  rw [CAppend.strlen, if_pos hmem, h.cstring]

/-- What is appended, if there is room for it. -/
theorem strncat (h : Holds buf text) {data : List UInt8} (hnul : 0 ∉ data) {n : ℕ} (hn : data.length ≤ n)
    (hroom : text.length + data.length < buf.length) :
    ∃ buf', CAppend.strncat buf data n = some buf' ∧ Holds buf' (text ++ data) ∧ buf'.length = buf.length := by
  have hstored : text.length + (data ++ [0]).length ≤ buf.length := by
    rw [List.length_append, List.length_singleton]
    omega
  obtain ⟨buf', hstore, hheld, hlen⟩ := store_prefix h.front hstored
  refine ⟨buf', ?_, ⟨?_, ?_⟩, hlen⟩
  · rw [CAppend.strncat, h.strlen, Option.bind_some, List.take_of_length_le hn, hstore]
  · rw [List.mem_append]
    exact not_or.mpr ⟨h.nul, hnul⟩
  · rw [List.append_assoc]
    exact hheld

end Holds

end

end NoPorts.Lib.CAppend
