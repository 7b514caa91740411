import NoPorts.Lib.Utf8

/-! `is_utf8_text`: which public records the C daemon takes as text. -/
namespace NoPorts.CDaemon
open Lib.Utf8

/-- The continuations expected after a lead byte, none where it is refused. -/
def extraBytes (c : UInt8) : Option ℕ :=
  if c = 0 then none
  else if c < 0x80 then some 0
  else if c &&& 0xE0 = 0xC0 then some 1
  else if c &&& 0xF0 = 0xE0 then some 2
  else if c &&& 0xF8 = 0xF0 then some 3
  else none

/-- The inner loop. A read beyond the bytes given is none. -/
def continuationsAt (s : List UInt8) (i extra : ℕ) : Option Bool :=
  (List.range' 1 extra).allM fun k => s[i + k]?.map fun b => b &&& 0xC0 == 0x80

/-- The outer loop from `i`. -/
def isUtf8TextFrom (s : List UInt8) (i : ℕ) : Option Bool :=
  if i < s.length then
    match s[i]? with
    | none => none
    | some c =>
      match extraBytes c with
      | none => some false
      | some extra =>
        if s.length - i - 1 < extra then some false
        else
          match continuationsAt s i extra with
          | none => none
          | some false => some false
          | some true => isUtf8TextFrom s (i + extra + 1)
  else some true
termination_by s.length - i

def isUtf8Text (s : List UInt8) : Option Bool := isUtf8TextFrom s 0

/-- What `utf8.decode` takes, without a NUL. -/
def IsUtf8Text (s : List UInt8) : Prop := WellFormed s ∧ 0 ∉ s

/-- What the code takes: sequences by their lead bytes alone. -/
def SplitsText (s : List UInt8) : Prop := (∃ ps, Splits s ps) ∧ 0 ∉ s

/-! ### What the masks select -/

theorem extraBytes_eq (c : UInt8) : extraBytes c = if c = 0 then none else extra c := by
  refine forall_uint8 (p := fun c => extraBytes c = if c = 0 then none else extra c) ?_ c
  decide +kernel

theorem mask_continuation (b : UInt8) : (b &&& 0xC0 == 0x80) = decide (IsContinuation b) := by
  refine forall_uint8 (p := fun b => (b &&& 0xC0 == 0x80) = decide (IsContinuation b)) ?_ b
  decide +kernel

theorem zero_not_continuation : ¬IsContinuation 0 := by decide

/-! ### The loops -/

/-- Inside the bytes given, the inner loop reads what follows the lead byte. -/
theorem continuationsAt_eq {s : List UInt8} {i n : ℕ} (h : i + n < s.length) :
    continuationsAt s i n = some (((s.drop (i + 1)).take n).all (IsContinuation ·)) := by
  have hgo (m k : ℕ) (hk : i + k + m ≤ s.length) :
      (List.range' k m).allM (fun k => s[i + k]?.map fun b => b &&& 0xC0 == 0x80) =
        some (((s.drop (i + k)).take m).all (IsContinuation ·)) := by
    induction m generalizing k with
    | zero => simp
    | succ m ih =>
      have hlt : i + k < s.length := by omega
      have hrest := ih (k + 1) (by omega)
      rw [List.range'_succ, List.allM, hrest, List.getElem?_eq_getElem hlt,
        List.drop_eq_getElem_cons hlt, List.take_succ_cons, List.all_cons, Option.map_some,
        mask_continuation, ← Nat.add_assoc]
      cases decide (IsContinuation s[i + k]) <;> rfl
  exact hgo n 1 (by omega)

/-- A text starts with a sequence that its first byte announces, and goes on as a text. -/
theorem splitsText_cons {c : UInt8} {rest : List UInt8} :
    SplitsText (c :: rest) ↔ ∃ n, extraBytes c = some n ∧ n ≤ rest.length ∧
      (∀ b ∈ rest.take n, IsContinuation b) ∧ SplitsText (rest.drop n) := by
  constructor
  · rintro ⟨⟨ps, hflat, hseq⟩, hnul⟩
    cases ps with
    | nil => cases hflat
    | cons p ps =>
      have hp := hseq p List.mem_cons_self
      cases p with
      | nil => exact hp.elim
      | cons d xs =>
        rw [List.flatten_cons, List.cons_append] at hflat
        obtain ⟨rfl, rfl⟩ := List.cons.inj hflat
        obtain ⟨hextra, hxs⟩ := hp
        have hd : d ≠ 0 := fun h => hnul (h ▸ List.mem_cons_self)
        refine ⟨xs.length, by rw [extraBytes_eq, if_neg hd, hextra], ?_, ?_, ⟨ps, ?_, ?_⟩, ?_⟩
        · rw [List.length_append]
          omega
        · rwa [List.take_left]
        · rw [List.drop_left]
        · exact fun q hq => hseq q (List.mem_cons_of_mem _ hq)
        · rw [List.drop_left]
          exact fun h => hnul (List.mem_cons_of_mem d (List.mem_append_right xs h))
  · rintro ⟨n, hextra, hn, htake, ⟨ps, hflat, hseq⟩, hnul⟩
    rw [extraBytes_eq] at hextra
    split at hextra
    · cases hextra
    · rename_i hc
      refine ⟨⟨(c :: rest.take n) :: ps, ?_, ?_⟩, ?_⟩
      · rw [List.flatten_cons, hflat, List.cons_append, List.take_append_drop]
      · intro q hq
        rcases List.mem_cons.mp hq with rfl | hq
        · exact ⟨by rw [hextra, List.length_take, Nat.min_eq_left hn], htake⟩
        · exact hseq q hq
      · rw [← List.take_append_drop n rest, List.mem_cons, List.mem_append]
        rintro (h | h | h)
        · exact hc h.symm
        · exact zero_not_continuation (htake 0 h)
        · exact hnul h

/-- The outer loop always answers, by whether the rest splits. -/
theorem isUtf8TextFrom_spec (s : List UInt8) (i : ℕ) (hi : i ≤ s.length) :
    ∃ b, isUtf8TextFrom s i = some b ∧ (b = true ↔ SplitsText (s.drop i)) := by
  induction h : s.length - i using Nat.strongRecOn generalizing i with
  | ind m ih =>
    unfold isUtf8TextFrom
    split
    · rename_i hlt
      simp only [List.getElem?_eq_getElem hlt]
      rw [List.drop_eq_getElem_cons hlt, splitsText_cons]
      cases hextra : extraBytes s[i] with
      | none => exact ⟨false, rfl, by simp⟩
      | some n =>
        simp only [Option.some.injEq]
        split
        · rename_i hshort
          refine ⟨false, rfl, by simp, ?_⟩
          rintro ⟨n', rfl, hn', -⟩
          rw [List.length_drop] at hn'
          omega
        · rename_i hroom
          rw [continuationsAt_eq (by omega)]
          by_cases hcont : ∀ b ∈ (s.drop (i + 1)).take n, IsContinuation b
          · rw [List.all_eq_true.mpr fun b hb => decide_eq_true (hcont b hb)]
            obtain ⟨b, hb, hspec⟩ := ih _ (by omega) (i + n + 1) (by omega) rfl
            refine ⟨b, hb, hspec.trans ⟨fun hsplit => ⟨n, rfl, ?_, hcont, ?_⟩, ?_⟩⟩
            · rw [List.length_drop]
              omega
            · rwa [List.drop_drop, Nat.add_right_comm]
            · rintro ⟨n', rfl, -, -, hsplit⟩
              rwa [List.drop_drop, Nat.add_right_comm] at hsplit
          · rw [List.all_eq_false.mpr (by simpa using hcont)]
            refine ⟨false, rfl, by simp, ?_⟩
            rintro ⟨n', rfl, -, hcont', -⟩
            exact absurd hcont' hcont
    · rename_i hge
      refine ⟨true, rfl, fun _ => ?_, fun _ => rfl⟩
      rw [List.drop_eq_nil_of_le (by omega)]
      exact ⟨⟨[], rfl, by simp⟩, List.not_mem_nil⟩

theorem isUtf8Text_spec (s : List UInt8) :
    ∃ b, isUtf8Text s = some b ∧ (b = true ↔ SplitsText s) :=
  isUtf8TextFrom_spec s 0 (Nat.zero_le _)

/-- Every byte read is one of those given, and the answer is that of `utf8.decode`. -/
structure Utf8Agrees (s : List UInt8) : Prop where
  inside : (isUtf8Text s).isSome
  exact : isUtf8Text s = some true ↔ IsUtf8Text s

/-- The answer is right unless the bytes split into sequences of which one spells no
character, or not in the fewest bytes. -/
theorem utf8Agrees_iff (s : List UInt8) :
    Utf8Agrees s ↔ ∀ ps, Splits s ps → 0 ∉ s → ∀ p ∈ ps, Spells p := by
  obtain ⟨b, hb, hspec⟩ := isUtf8Text_spec s
  have haccepts : isUtf8Text s = some true ↔ SplitsText s := by
    rw [hb, Option.some.injEq]
    exact hspec
  have htext : IsUtf8Text s → SplitsText s := by
    rintro ⟨hwf, hnul⟩
    obtain ⟨ps, hps, -⟩ := wellFormed_iff.mp hwf
    exact ⟨⟨ps, hps⟩, hnul⟩
  constructor
  · rintro ⟨-, hexact⟩ ps hps hnul
    obtain ⟨hwf, -⟩ := hexact.mp (haccepts.mpr ⟨⟨ps, hps⟩, hnul⟩)
    obtain ⟨qs, hqs, hspells⟩ := wellFormed_iff.mp hwf
    rwa [hps.unique hqs]
  · intro h
    refine ⟨by rw [hb]; rfl, haccepts.trans ⟨?_, htext⟩⟩
    rintro ⟨⟨ps, hps⟩, hnul⟩
    exact ⟨wellFormed_iff.mpr ⟨ps, hps, h ps hps hnul⟩, hnul⟩

/-- A slash in two bytes: its lead byte and continuation are in order. -/
theorem overlong_taken :
    isUtf8Text [0xC0, 0xAF] = some true ∧ ¬Utf8Agrees [0xC0, 0xAF] := by
  have hsplit : Splits [0xC0, 0xAF] [[0xC0, 0xAF]] :=
    ⟨rfl, by simp only [List.mem_singleton, forall_eq, IsSequence]; decide⟩
  have htaken : isUtf8Text [0xC0, 0xAF] = some true := by
    obtain ⟨b, hb, hspec⟩ := isUtf8Text_spec [0xC0, 0xAF]
    rw [hb, hspec.mpr ⟨⟨_, hsplit⟩, by decide⟩]
  refine ⟨htaken, fun h => ?_⟩
  obtain ⟨hwf, -⟩ := h.exact.mp htaken
  obtain ⟨ps, hps, hspells⟩ := wellFormed_iff.mp hwf
  have hleast := (hspells [0xC0, 0xAF] (hps.unique hsplit ▸ List.mem_singleton_self _)).1
  exact absurd hleast (by decide)

end NoPorts.CDaemon
