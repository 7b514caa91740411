import Mathlib.Algebra.Order.Group.Nat
import Mathlib.Data.List.Basic
import Mathlib.Data.Nat.Notation

/-! UTF-8: sequences of a lead byte and its continuations, and those that spell a character. -/
namespace NoPorts.Lib.Utf8

/-- How many continuations a lead byte announces. -/
def extra (c : UInt8) : Option ℕ :=
  if c.toNat < 0x80 then some 0
  else if c.toNat < 0xC0 then none
  else if c.toNat < 0xE0 then some 1
  else if c.toNat < 0xF0 then some 2
  else if c.toNat < 0xF8 then some 3
  else none

def IsContinuation (b : UInt8) : Prop := 0x80 ≤ b.toNat ∧ b.toNat < 0xC0

instance (b : UInt8) : Decidable (IsContinuation b) := inferInstanceAs (Decidable (_ ∧ _))

/-- A lead byte and as many continuations as it announces. -/
def IsSequence : List UInt8 → Prop
  | [] => False
  | c :: rest => extra c = some rest.length ∧ ∀ b ∈ rest, IsContinuation b

/-- The least number that needs so many continuations, and what their lead byte adds to its
own bits. -/
def least : ℕ → ℕ
  | 0 => 0
  | 1 => 0x80
  | 2 => 0x800
  | _ => 0x10000

def mark : ℕ → ℕ
  | 0 => 0
  | 1 => 0xC0
  | 2 => 0xE0
  | _ => 0xF0

/-- A continuation carries six bits more. -/
def digit (v : ℕ) (b : UInt8) : ℕ := v * 64 + b.toNat % 64

/-- The number that a sequence carries. -/
def value : List UInt8 → ℕ
  | [] => 0
  | c :: rest => rest.foldl digit (c.toNat - mark rest.length)

/-- A sequence carries a character's number and is no longer than that number needs. -/
def Spells (p : List UInt8) : Prop := least p.tail.length ≤ value p ∧ (value p).isValidChar

/-- `s` is these sequences, one after the other. -/
structure Splits (s : List UInt8) (ps : List (List UInt8)) : Prop where
  flatten : ps.flatten = s
  sequences : ∀ p ∈ ps, IsSequence p

/-- The text of some characters. -/
def WellFormed (s : List UInt8) : Prop := ∃ cs : List Char, cs.flatMap String.utf8EncodeChar = s

/-- A property of bytes is checked byte by byte. -/
theorem forall_uint8 {p : UInt8 → Prop} (h : ∀ n : Fin 256, p (UInt8.ofNat n)) (c : UInt8) : p c := by
  have hc := h ⟨c.toNat, c.toNat_lt⟩
  rwa [UInt8.ofNat_toNat] at hc

/-! ### One sequence -/

theorem extra_eq_some {c : UInt8} {n : ℕ} (h : extra c = some n) :
    n = 0 ∧ c.toNat < 0x80 ∨ n = 1 ∧ 0xC0 ≤ c.toNat ∧ c.toNat < 0xE0 ∨
      n = 2 ∧ 0xE0 ≤ c.toNat ∧ c.toNat < 0xF0 ∨ n = 3 ∧ 0xF0 ≤ c.toNat ∧ c.toNat < 0xF8 := by
  unfold extra at h
  repeat' split at h
  all_goals simp only [Option.some.injEq, reduceCtorEq] at h
  all_goals omega

theorem mark_le {c : UInt8} {n : ℕ} (h : extra c = some n) : mark n ≤ c.toNat := by
  rcases extra_eq_some h with ⟨rfl, hc⟩ | ⟨rfl, hc⟩ | ⟨rfl, hc⟩ | ⟨rfl, hc⟩ <;>
  simp only [mark] <;> omega

theorem IsSequence.ne_nil {p : List UInt8} (h : IsSequence p) : p ≠ [] := by
  rintro rfl
  exact h

theorem toNat_ofNat {n : ℕ} (h : n < 256) : (UInt8.ofNat n).toNat = n := by
  rw [UInt8.toNat_ofNat']
  exact Nat.mod_eq_of_lt h

/-- The encoding of a character is a sequence that carries its number. -/
theorem encode_spec (c : Char) : IsSequence (String.utf8EncodeChar c) ∧
    least (String.utf8EncodeChar c).tail.length ≤ c.toNat ∧
      value (String.utf8EncodeChar c) = c.toNat := by
  have hvalid : c.toNat.isValidChar := c.valid
  have hmax : c.toNat < 0x110000 := by
    rcases hvalid with h | ⟨-, h⟩ <;> omega
  have hnat : c.val.toNat = c.toNat := rfl
  simp only [String.utf8EncodeChar, hnat]
  split
  · rename_i h
    have ha := toNat_ofNat (n := c.toNat) (by omega)
    refine ⟨⟨?_, by simp⟩, Nat.zero_le _, ?_⟩
    · rw [extra, ha, if_pos (by omega)]
      rfl
    · simp only [value, List.foldl_nil, ha, mark, List.length_nil, Nat.sub_zero]
  split
  · rename_i h1 h2
    have ha := toNat_ofNat (n := c.toNat / 64 % 0x20 + 0xc0) (by omega)
    have hb := toNat_ofNat (n := c.toNat % 0x40 + 0x80) (by omega)
    refine ⟨⟨?_, ?_⟩, ?_, ?_⟩
    · rw [extra, ha, if_neg (by omega), if_neg (by omega), if_pos (by omega)]
      rfl
    · simp only [List.mem_cons, List.not_mem_nil, or_false, forall_eq, IsContinuation, hb]
      omega
    · simp only [List.tail_cons, List.length_cons, List.length_nil, least]
      omega
    · simp only [value, List.foldl_cons, List.foldl_nil, digit, ha, hb, mark, List.length_cons,
        List.length_nil]
      omega
  split
  · rename_i h1 h2 h3
    have ha := toNat_ofNat (n := c.toNat / 4096 % 0x10 + 0xe0) (by omega)
    have hb := toNat_ofNat (n := c.toNat / 64 % 0x40 + 0x80) (by omega)
    have hc := toNat_ofNat (n := c.toNat % 0x40 + 0x80) (by omega)
    refine ⟨⟨?_, ?_⟩, ?_, ?_⟩
    · rw [extra, ha, if_neg (by omega), if_neg (by omega), if_neg (by omega), if_pos (by omega)]
      rfl
    · simp only [List.mem_cons, List.not_mem_nil, or_false, forall_eq_or_imp, forall_eq,
        IsContinuation, hb, hc]
      omega
    · simp only [List.tail_cons, List.length_cons, List.length_nil, least]
      omega
    · simp only [value, List.foldl_cons, List.foldl_nil, digit, ha, hb, hc, mark, List.length_cons,
        List.length_nil]
      omega
  · rename_i h1 h2 h3
    have ha := toNat_ofNat (n := c.toNat / 262144 % 0x08 + 0xf0) (by omega)
    have hb := toNat_ofNat (n := c.toNat / 4096 % 0x40 + 0x80) (by omega)
    have hc := toNat_ofNat (n := c.toNat / 64 % 0x40 + 0x80) (by omega)
    have hd := toNat_ofNat (n := c.toNat % 0x40 + 0x80) (by omega)
    refine ⟨⟨?_, ?_⟩, ?_, ?_⟩
    · rw [extra, ha, if_neg (by omega), if_neg (by omega), if_neg (by omega), if_neg (by omega),
        if_pos (by omega)]
      rfl
    · simp only [List.mem_cons, List.not_mem_nil, or_false, forall_eq_or_imp, forall_eq,
        IsContinuation, hb, hc, hd]
      omega
    · simp only [List.tail_cons, List.length_cons, List.length_nil, least]
      omega
    · simp only [value, List.foldl_cons, List.foldl_nil, digit, ha, hb, hc, hd, mark, List.length_cons,
        List.length_nil]
      omega

/-- Numbers of one length are told apart by their digits. -/
theorem foldl_digit_inj {xs ys : List UInt8} {v w : ℕ} (hlen : xs.length = ys.length)
    (hx : ∀ b ∈ xs, IsContinuation b) (hy : ∀ b ∈ ys, IsContinuation b)
    (h : xs.foldl digit v = ys.foldl digit w) : v = w ∧ xs = ys := by
  induction xs generalizing ys v w with
  | nil =>
    obtain rfl := List.length_eq_zero_iff.mp hlen.symm
    exact ⟨h, rfl⟩
  | cons x xs ih =>
    cases ys with
    | nil => cases hlen
    | cons y ys =>
      have hxy := ih (Nat.succ.inj hlen) (fun b hb => hx b (List.mem_cons_of_mem x hb))
        (fun b hb => hy b (List.mem_cons_of_mem y hb)) h
      obtain ⟨hdigit, rfl⟩ := hxy
      obtain ⟨hx1, hx2⟩ := hx x List.mem_cons_self
      obtain ⟨hy1, hy2⟩ := hy y List.mem_cons_self
      simp only [digit] at hdigit
      have hv : v = w := by omega
      have hnat : x.toNat = y.toNat := by omega
      exact ⟨hv, by rw [UInt8.toNat_inj.mp hnat]⟩

theorem foldl_digit_lt {xs : List UInt8} {v : ℕ} (hx : ∀ b ∈ xs, IsContinuation b) :
    xs.foldl digit v < (v + 1) * 64 ^ xs.length := by
  induction xs generalizing v with
  | nil => simp
  | cons x xs ih =>
    have hrest := ih (v := digit v x) fun b hb => hx b (List.mem_cons_of_mem x hb)
    obtain ⟨hx1, hx2⟩ := hx x List.mem_cons_self
    have hdigit : digit v x + 1 ≤ (v + 1) * 64 := by
      simp only [digit]
      omega
    calc xs.foldl digit (digit v x) < (digit v x + 1) * 64 ^ xs.length := hrest
      _ ≤ (v + 1) * 64 * 64 ^ xs.length := Nat.mul_le_mul_right _ hdigit
      _ = (v + 1) * 64 ^ (xs.length + 1) := by rw [Nat.mul_assoc, Nat.pow_succ']

/-- Sequences of one length are told apart by the numbers they carry. -/
theorem IsSequence.eq_of_value {p q : List UInt8} (hp : IsSequence p) (hq : IsSequence q)
    (hlen : p.length = q.length) (h : value p = value q) : p = q := by
  cases p with
  | nil => exact hp.elim
  | cons c xs =>
    cases q with
    | nil => exact hq.elim
    | cons d ys =>
      have hlen' : xs.length = ys.length := Nat.succ.inj hlen
      simp only [value, hlen'] at h
      obtain ⟨hlead, hrest⟩ := foldl_digit_inj hlen' hp.2 hq.2 h
      have hc := mark_le (hlen' ▸ hp.1)
      have hd := mark_le hq.1
      have hnat : c.toNat = d.toNat := by omega
      rw [UInt8.toNat_inj.mp hnat, hrest]

/-- The numbers that a sequence of a length can carry. -/
theorem IsSequence.value_lt {p : List UInt8} (h : IsSequence p) :
    p.tail.length = 0 ∧ value p < 0x80 ∨ p.tail.length = 1 ∧ value p < 0x800 ∨
      p.tail.length = 2 ∧ value p < 0x10000 ∨ p.tail.length = 3 := by
  cases p with
  | nil => exact h.elim
  | cons c xs =>
    have hlt := foldl_digit_lt (v := c.toNat - mark xs.length) h.2
    simp only [List.tail_cons, value]
    generalize xs.foldl digit (c.toNat - mark xs.length) = n at hlt ⊢
    rcases extra_eq_some h.1 with ⟨hl, hc⟩ | ⟨hl, hc⟩ | ⟨hl, hc⟩ | ⟨hl, hc⟩ <;>
    simp only [hl, mark] at hlt <;> omega

/-- Every byte of a sequence whose number is not ASCII has its high bit set. -/
theorem IsSequence.high {p : List UInt8} (h : IsSequence p) (hvalue : 0x80 ≤ value p) :
    ∀ b ∈ p, 0x80 ≤ b.toNat := by
  cases p with
  | nil => exact h.elim
  | cons c rest =>
    obtain ⟨hextra, hrest⟩ := h
    intro b hb
    rcases List.mem_cons.mp hb with rfl | hb
    · rcases extra_eq_some hextra with ⟨hlen, hb⟩ | ⟨hlen, hb⟩ | ⟨hlen, hb⟩ | ⟨hlen, hb⟩
      · rw [List.length_eq_zero_iff.mp hlen] at hvalue
        exact hvalue
      all_goals omega
    · exact (hrest b hb).1

theorem encode_ascii {c : Char} (h : c.toNat < 0x80) :
    String.utf8EncodeChar c = [UInt8.ofNat c.toNat] :=
  if_pos (Nat.le_of_lt_succ h)

theorem spells_encode (c : Char) : Spells (String.utf8EncodeChar c) := by
  obtain ⟨-, hleast, hvalue⟩ := encode_spec c
  exact ⟨hvalue ▸ hleast, hvalue ▸ c.valid⟩

/-- A sequence that spells a character is that character's encoding. -/
theorem IsSequence.spells_iff {p : List UInt8} (h : IsSequence p) :
    Spells p ↔ ∃ c : Char, String.utf8EncodeChar c = p := by
  constructor
  · rintro ⟨hleast, hvalid⟩
    have hnum : (Char.ofNatAux (value p) hvalid).toNat = value p := rfl
    obtain ⟨hseq, hleast', hvalue⟩ := encode_spec (Char.ofNatAux (value p) hvalid)
    refine ⟨_, hseq.eq_of_value h ?_ (hvalue.trans hnum)⟩
    rw [hnum] at hleast' hvalue
    have hlt := h.value_lt
    have hlt' := hvalue ▸ hseq.value_lt
    have hpos := List.length_pos_of_ne_nil h.ne_nil
    have hpos' := List.length_pos_of_ne_nil hseq.ne_nil
    -- each length holds a range of numbers of its own
    have htail : (String.utf8EncodeChar (Char.ofNatAux (value p) hvalid)).tail.length =
        p.tail.length := by
      rcases hlt with ⟨hl, hlt⟩ | ⟨hl, hlt⟩ | ⟨hl, hlt⟩ | hl <;>
      rcases hlt' with ⟨hl', hlt'⟩ | ⟨hl', hlt'⟩ | ⟨hl', hlt'⟩ | hl' <;>
      rw [hl] at hleast <;> rw [hl'] at hleast' <;> simp only [least] at hleast hleast' <;> omega
    rw [List.length_tail, List.length_tail] at htail
    omega
  · rintro ⟨c, rfl⟩
    exact spells_encode c

/-! ### A text -/

/-- Two texts that start with a sequence start with the same one. -/
theorem IsSequence.append_inj {p q s t : List UInt8} (hp : IsSequence p) (hq : IsSequence q)
    (h : p ++ s = q ++ t) : p = q ∧ s = t := by
  cases p with
  | nil => exact hp.elim
  | cons c xs =>
    cases q with
    | nil => exact hq.elim
    | cons d ys =>
      obtain ⟨rfl, hrest⟩ := List.cons.inj h
      have hlen : xs.length = ys.length := Option.some.inj (hp.1.symm.trans hq.1)
      obtain ⟨rfl, hst⟩ := List.append_inj hrest hlen
      exact ⟨rfl, hst⟩

/-- A text is split into sequences in one way at most. -/
theorem Splits.unique {s : List UInt8} {ps qs : List (List UInt8)} (hp : Splits s ps)
    (hq : Splits s qs) : ps = qs := by
  induction ps generalizing s qs with
  | nil =>
    cases qs with
    | nil => rfl
    | cons q qs =>
      have hnil : q ++ qs.flatten = [] := by
        rw [← List.flatten_cons, hq.flatten, ← hp.flatten, List.flatten_nil]
      exact absurd (List.append_eq_nil_iff.mp hnil).1 (hq.sequences q (by simp)).ne_nil
  | cons p ps ih =>
    have hp0 := hp.sequences p (by simp)
    cases qs with
    | nil =>
      have hnil : p ++ ps.flatten = [] := by
        rw [← List.flatten_cons, hp.flatten, ← hq.flatten, List.flatten_nil]
      exact absurd (List.append_eq_nil_iff.mp hnil).1 hp0.ne_nil
    | cons q qs =>
      have heq : p ++ ps.flatten = q ++ qs.flatten := by
        rw [← List.flatten_cons, ← List.flatten_cons, hp.flatten, hq.flatten]
      obtain ⟨rfl, hrest⟩ := hp0.append_inj (hq.sequences q (by simp)) heq
      have htail := ih ⟨rfl, fun x hx => hp.sequences x (by simp [hx])⟩
        ⟨hrest.symm, fun x hx => hq.sequences x (by simp [hx])⟩
      rw [htail]

theorem wellFormed_iff {s : List UInt8} :
    WellFormed s ↔ ∃ ps, Splits s ps ∧ ∀ p ∈ ps, Spells p := by
  constructor
  · rintro ⟨cs, rfl⟩
    refine ⟨cs.map String.utf8EncodeChar, ⟨List.flatMap_def.symm, ?_⟩, ?_⟩
    · intro p hp
      obtain ⟨c, -, rfl⟩ := List.mem_map.mp hp
      exact (encode_spec c).1
    · intro p hp
      obtain ⟨c, -, rfl⟩ := List.mem_map.mp hp
      exact spells_encode c
  · rintro ⟨ps, ⟨rfl, hseq⟩, hspell⟩
    induction ps with
    | nil => exact ⟨[], rfl⟩
    | cons p ps ih =>
      obtain ⟨c, hc⟩ := (hseq p (by simp)).spells_iff.mp (hspell p (by simp))
      obtain ⟨cs, hcs⟩ := ih (fun q hq => hspell q (by simp [hq])) fun q hq => hseq q (by simp [hq])
      exact ⟨c :: cs, by rw [List.flatMap_cons, List.flatten_cons, hc, hcs]⟩

/-! ### Decoding -/

instance : DecidablePred IsSequence
  | [] => isFalse id
  | _ :: _ => inferInstanceAs (Decidable (_ ∧ _))

instance (p : List UInt8) : Decidable (Spells p) := inferInstanceAs (Decidable (_ ∧ _))

/-- The characters of a text of at most `fuel` bytes. -/
def decodeFuel : ℕ → List UInt8 → Option (List Char)
  | _, [] => some []
  | 0, _ :: _ => none
  | fuel + 1, c :: rest =>
    match extra c with
    | none => none
    | some n =>
      let p := c :: rest.take n
      if IsSequence p ∧ Spells p then (decodeFuel fuel (rest.drop n)).map (Char.ofNat (value p) :: ·)
      else none

/-- The characters of a text, none when the bytes are not one. -/
def decode (s : List UInt8) : Option (List Char) := decodeFuel s.length s

def encode (cs : List Char) : List UInt8 := cs.flatMap String.utf8EncodeChar

theorem encode_nil : encode [] = [] := rfl

theorem encode_cons (c : Char) (cs : List Char) : encode (c :: cs) = String.utf8EncodeChar c ++ encode cs :=
  List.flatMap_cons

theorem encode_append (cs ds : List Char) : encode (cs ++ ds) = encode cs ++ encode ds := List.flatMap_append

theorem ofNat_value_encode (c : Char) : Char.ofNat (value (String.utf8EncodeChar c)) = c := by
  rw [(encode_spec c).2.2, Char.ofNat_toNat]

/-- A text is decoded character by character. -/
theorem decodeFuel_encode_cons (fuel : ℕ) (c : Char) (rest : List UInt8) :
    decodeFuel (fuel + 1) (String.utf8EncodeChar c ++ rest) = (decodeFuel fuel rest).map (c :: ·) := by
  obtain ⟨hseq, -, -⟩ := encode_spec c
  have hspells := spells_encode c
  have hvalue := ofNat_value_encode c
  generalize String.utf8EncodeChar c = p at hseq hspells hvalue ⊢
  cases p with
  | nil => exact hseq.elim
  | cons b xs =>
    rw [List.cons_append, decodeFuel, hseq.1]
    dsimp only
    rw [List.take_left, List.drop_left, if_pos ⟨hseq, hspells⟩, hvalue]

theorem decodeFuel_encode {fuel : ℕ} {cs : List Char} (h : (encode cs).length ≤ fuel) :
    decodeFuel fuel (encode cs) = some cs := by
  induction cs generalizing fuel with
  | nil => cases fuel <;> rfl
  | cons c cs ih =>
    rw [encode_cons] at h ⊢
    have hpos := List.length_pos_of_ne_nil (encode_spec c).1.ne_nil
    rw [List.length_append] at h
    obtain ⟨fuel, rfl⟩ : ∃ n, fuel = n + 1 := ⟨fuel - 1, by omega⟩
    rw [decodeFuel_encode_cons, ih (by omega), Option.map_some]

theorem encode_of_decodeFuel {fuel : ℕ} {s : List UInt8} {cs : List Char} (h : decodeFuel fuel s = some cs) :
    encode cs = s := by
  induction fuel generalizing s cs with
  | zero =>
    cases s with
    | nil =>
      cases h
      rfl
    | cons c rest => cases h
  | succ fuel ih =>
    cases s with
    | nil =>
      cases h
      rfl
    | cons c rest =>
      rw [decodeFuel] at h
      split at h
      · cases h
      · rename_i n hn
        dsimp only at h
        split at h
        · rename_i hp
          obtain ⟨ds, hds, rfl⟩ := Option.map_eq_some_iff.mp h
          obtain ⟨d, hd⟩ := hp.1.spells_iff.mp hp.2
          rw [← hd, ofNat_value_encode, encode_cons, hd, ih hds, List.cons_append, List.take_append_drop]
        · cases h

/-- Decoding is the inverse of encoding, and nothing but an encoding is decoded. -/
theorem decode_eq_some {s : List UInt8} {cs : List Char} : decode s = some cs ↔ encode cs = s := by
  constructor
  · exact encode_of_decodeFuel
  · rintro rfl
    exact decodeFuel_encode (Nat.le_refl _)

theorem decode_encode (cs : List Char) : decode (encode cs) = some cs := decode_eq_some.mpr rfl

/-- A text begins with another when its encoding does. -/
theorem encode_prefix {cs ds : List Char} : encode cs <+: encode ds ↔ cs <+: ds := by
  constructor
  · rintro ⟨r, h⟩
    induction cs generalizing ds with
    | nil => exact List.nil_prefix
    | cons c cs ih =>
      cases ds with
      | nil =>
        rw [encode_cons, encode_nil, List.append_assoc] at h
        exact absurd (List.append_eq_nil_iff.mp h).1 (encode_spec c).1.ne_nil
      | cons d ds =>
        rw [encode_cons, encode_cons, List.append_assoc] at h
        obtain ⟨hchar, hrest⟩ := (encode_spec c).1.append_inj (encode_spec d).1 h
        have hcd : c = d := by rw [← ofNat_value_encode c, hchar, ofNat_value_encode]
        rw [hcd]
        exact List.cons_prefix_cons.mpr ⟨rfl, ih hrest⟩
  · rintro ⟨r, rfl⟩
    rw [encode_append]
    exact List.prefix_append _ _

/-- The same without the byte order mark that a text may begin with. -/
def decodeText (s : List UInt8) : Option (List Char) :=
  (decode s).map fun cs => if cs.head? = some (Char.ofNat 0xFEFF) then cs.drop 1 else cs

theorem decodeText_encode {text : List Char} (h : text.head? ≠ some (Char.ofNat 0xFEFF)) :
    decodeText (encode text) = some text := by
  rw [decodeText, decode_encode, Option.map_some, if_neg h]

end NoPorts.Lib.Utf8
