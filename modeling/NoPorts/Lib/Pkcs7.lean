import Mathlib.Data.List.Basic

/-! PKCS#7 padding. -/
namespace NoPorts.Lib.Pkcs7

/-- How many bytes fill up a block, at least one. -/
def count (block : ℕ) (data : List UInt8) : ℕ := block - data.length % block

def pad (block : ℕ) (data : List UInt8) : List UInt8 :=
  data ++ List.replicate (count block data) (UInt8.ofNat (count block data))

/-- The data without its padding, none when that is not a padding. -/
def unpad (block : ℕ) (data : List UInt8) : Option (List UInt8) :=
  match data.getLast? with
  | none => none
  | some last =>
    let kept := data.length - last.toNat
    if 0 < last.toNat ∧ last.toNat ≤ block ∧ last.toNat ≤ data.length ∧
        data.drop kept = List.replicate last.toNat last then
      some (data.take kept)
    else none

theorem count_pos {block : ℕ} (hblock : 0 < block) (data : List UInt8) : 0 < count block data :=
  Nat.sub_pos_of_lt (Nat.mod_lt _ hblock)

theorem count_le (block : ℕ) (data : List UInt8) : count block data ≤ block := Nat.sub_le _ _

theorem unpad_pad {block : ℕ} (hblock : 0 < block) (hbyte : block < 256) (data : List UInt8) :
    unpad block (pad block data) = some data := by
  have hpos := count_pos hblock data
  have hle := count_le block data
  have hlast : (pad block data).getLast? = some (UInt8.ofNat (count block data)) := by
    obtain ⟨n, hn⟩ : ∃ n, count block data = n + 1 := ⟨count block data - 1, by omega⟩
    rw [pad, hn, List.replicate_succ', ← List.append_assoc, List.getLast?_concat]
  have hnat : (UInt8.ofNat (count block data)).toNat = count block data := by
    rw [UInt8.toNat_ofNat']
    omega
  have hlength : (pad block data).length = data.length + count block data := by
    rw [pad, List.length_append, List.length_replicate]
  have hkept : (pad block data).length - count block data = data.length := by omega
  rw [unpad, hlast]
  simp only [hnat, hkept]
  rw [if_pos, pad, List.take_left]
  refine ⟨hpos, hle, by omega, ?_⟩
  rw [pad, List.drop_left]

end NoPorts.Lib.Pkcs7
