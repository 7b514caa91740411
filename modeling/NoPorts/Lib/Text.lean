import Mathlib.Data.List.Basic

/-! Reading a text character by character. -/
namespace NoPorts.Lib

/-- What follows `pre` at the start of `s`. -/
def stripPrefix? : List Char → List Char → Option (List Char)
  | [], s => some s
  | _ :: _, [] => none
  | p :: ps, c :: cs => if p = c then stripPrefix? ps cs else none

/-- `s` without a leading `pre`, if it has one. -/
def dropPrefix (pre s : List Char) : List Char := (stripPrefix? pre s).getD s

/-- What comes before `suf` at the end of `s`. -/
def stripSuffix? (suf s : List Char) : Option (List Char) :=
  (stripPrefix? suf.reverse s.reverse).map List.reverse

def endsWith (s suf : String) : Bool := (stripSuffix? suf.toList s.toList).isSome

/-- `s` from its last `c` on, nothing when it has none. -/
def fromLast (c : Char) (s : List Char) : List Char :=
  if c ∈ s then c :: (s.reverse.takeWhile (· ≠ c)).reverse else []

/-- `s` before its last `c`. -/
def beforeLast (c : Char) (s : List Char) : List Char :=
  ((s.reverse.dropWhile (· ≠ c)).drop 1).reverse

/-- `s` between its first and last characters outside `space`. -/
def trimBy (space : Char → Bool) (s : List Char) : List Char :=
  ((s.dropWhile space).reverse.dropWhile space).reverse

/-- Where `pat` first stands in `s`. -/
def indexOf? (pat : List Char) : List Char → Option ℕ
  | [] => if pat = [] then some 0 else none
  | c :: cs => if pat.isPrefixOf (c :: cs) then some 0 else (indexOf? pat cs).map (· + 1)

/-- ASCII upper case to lower case, everything else as it is. -/
def lowerAscii (s : String) : String := String.ofList (s.toList.map Char.toLower)

theorem lowerAscii_eq_self {s : String} (h : ∀ c ∈ s.toList, c.isUpper = false) : lowerAscii s = s := by
  have hmap : s.toList.map Char.toLower = s.toList := by
    conv_rhs => rw [← List.map_id s.toList]
    refine List.map_congr_left fun c hc => dif_neg fun hupper => ?_
    have hc := h c hc
    rw [show c.isUpper = true from decide_eq_true hupper] at hc
    cases hc
  rw [lowerAscii, hmap, String.ofList_toList]

theorem toNat_ofNat_byte (b : UInt8) : (Char.ofNat b.toNat).toNat = b.toNat := by
  have hvalid : b.toNat.isValidChar := Or.inl (by have := b.toNat_lt; omega)
  rw [Char.ofNat, dif_pos hvalid]
  rfl

theorem bytes_of_chars (bytes : List UInt8) :
    (bytes.map fun b => Char.ofNat b.toNat).map (fun c => UInt8.ofNat c.toNat) = bytes := by
  rw [List.map_map]
  calc bytes.map ((fun c => UInt8.ofNat c.toNat) ∘ fun b => Char.ofNat b.toNat)
      = bytes.map id := by
        apply List.map_congr_left
        intro b _
        rw [Function.comp_apply, toNat_ofNat_byte, UInt8.ofNat_toNat, id]
    _ = bytes := List.map_id _

theorem stripPrefix?_eq_some {pre s r : List Char} :
    stripPrefix? pre s = some r ↔ s = pre ++ r := by
  induction pre generalizing s with
  | nil => simp only [stripPrefix?, Option.some.injEq, List.nil_append]
  | cons p ps ih =>
    cases s with
    | nil => simp only [stripPrefix?, reduceCtorEq, List.cons_append]
    | cons c cs =>
      by_cases h : p = c
      · simp only [stripPrefix?, h, if_true, ih, List.cons_append, List.cons.injEq, true_and]
      · have h' : ¬c = p := fun hc => h hc.symm
        simp only [stripPrefix?, h, if_false, reduceCtorEq, List.cons_append, List.cons.injEq, h',
          false_and]

theorem stripSuffix?_eq_some {suf s r : List Char} :
    stripSuffix? suf s = some r ↔ s = r ++ suf := by
  rw [stripSuffix?, Option.map_eq_some_iff]
  constructor
  · rintro ⟨l, hl, rfl⟩
    rw [← s.reverse_reverse, stripPrefix?_eq_some.mp hl, List.reverse_append, List.reverse_reverse]
  · rintro rfl
    refine ⟨r.reverse, ?_, r.reverse_reverse⟩
    exact stripPrefix?_eq_some.mpr (List.reverse_append)

theorem endsWith_iff {s suf : String} : endsWith s suf = true ↔ suf.toList <:+ s.toList := by
  rw [endsWith, Option.isSome_iff_exists]
  constructor
  · rintro ⟨r, hr⟩
    exact ⟨r, (stripSuffix?_eq_some.mp hr).symm⟩
  · rintro ⟨r, hr⟩
    exact ⟨r, stripSuffix?_eq_some.mpr hr.symm⟩

/-- The first place where a pattern stands, and that there is none before it. -/
theorem indexOf?_eq_some {pat s : List Char} {p : ℕ} : indexOf? pat s = some p ↔
    p ≤ s.length ∧ pat <+: s.drop p ∧ ∀ q < p, ¬pat <+: s.drop q := by
  induction s generalizing p with
  | nil =>
    by_cases hpat : pat = []
    · simp only [indexOf?, hpat, if_true, Option.some.injEq, List.length_nil, Nat.le_zero_eq]
      constructor
      · rintro rfl
        exact ⟨rfl, List.nil_prefix, fun q hq => absurd hq (by omega)⟩
      · exact fun h => h.1.symm
    · simp only [indexOf?, hpat, if_false, reduceCtorEq, false_iff]
      intro h
      rw [List.drop_nil] at h
      exact hpat (List.prefix_nil.mp h.2.1)
  | cons c cs ih =>
    rw [indexOf?]
    split
    · rename_i hstart
      rw [List.isPrefixOf_iff_prefix] at hstart
      constructor
      · intro h
        cases h
        exact ⟨Nat.zero_le _, hstart, fun q hq => absurd hq (by omega)⟩
      · intro h
        have hp : p = 0 := by
          by_contra hne
          exact h.2.2 0 (by omega) hstart
        rw [hp]
    · rename_i hstart
      rw [List.isPrefixOf_iff_prefix] at hstart
      rw [Option.map_eq_some_iff]
      constructor
      · rintro ⟨q, hq, rfl⟩
        obtain ⟨hle, hat, hfirst⟩ := ih.mp hq
        refine ⟨by rw [List.length_cons]; omega, hat, fun r hr => ?_⟩
        cases r with
        | zero => exact hstart
        | succ r => exact hfirst r (by omega)
      · rintro ⟨hle, hat, hfirst⟩
        cases p with
        | zero => exact absurd hat hstart
        | succ p =>
          rw [List.length_cons] at hle
          exact ⟨p, ih.mpr ⟨by omega, hat, fun q hq => hfirst (q + 1) (by omega)⟩, rfl⟩

theorem isSome_indexOf? {pat s : List Char} : (indexOf? pat s).isSome = true ↔ pat <:+: s := by
  induction s with
  | nil =>
    rw [indexOf?, List.infix_nil]
    split
    · simp only [Option.isSome_some, *]
    · simp only [Option.isSome_none, Bool.false_eq_true, *]
  | cons c cs ih =>
    rw [indexOf?, List.infix_cons_iff, ← ih]
    split
    · rename_i hstart
      rw [List.isPrefixOf_iff_prefix] at hstart
      exact ⟨fun _ => Or.inl hstart, fun _ => rfl⟩
    · rename_i hstart
      rw [List.isPrefixOf_iff_prefix] at hstart
      rw [Option.isSome_map]
      exact ⟨Or.inr, fun h => h.resolve_left hstart⟩

/-- A text is cut at its last `c`. -/
theorem cut_last {c : Char} {h p : List Char} (hp : c ∉ p) :
    fromLast c (h ++ c :: p) = c :: p ∧ beforeLast c (h ++ c :: p) = h := by
  have hrev : (h ++ c :: p).reverse = p.reverse ++ c :: h.reverse := by
    simp only [List.reverse_append, List.reverse_cons, List.append_assoc, List.singleton_append]
  have hmem : ∀ x ∈ p.reverse, (decide (x ≠ c)) = true := by
    intro x hx
    refine decide_eq_true fun hxc => hp ?_
    rw [← hxc]
    exact List.mem_reverse.mp hx
  constructor
  · rw [fromLast, if_pos (List.mem_append_right h List.mem_cons_self), hrev,
      List.takeWhile_append_of_pos hmem]
    simp only [List.takeWhile_cons, ne_eq, not_true_eq_false, decide_false, Bool.false_eq_true,
      if_false, List.append_nil, List.reverse_reverse]
  · rw [beforeLast, hrev, List.dropWhile_append_of_pos hmem]
    simp only [List.dropWhile_cons, ne_eq, not_true_eq_false, decide_false, Bool.false_eq_true,
      if_false, List.drop_one, List.tail_cons, List.reverse_reverse]

theorem exists_cut_last {α : Type*} {c : α} {s : List α} (hc : c ∈ s) :
    ∃ h p, s = h ++ c :: p ∧ c ∉ p := by
  obtain ⟨p, h, hs, hp⟩ := List.eq_append_cons_of_mem (List.mem_reverse.mpr hc)
  refine ⟨h.reverse, p.reverse, ?_, fun hmem => hp (List.mem_reverse.mp hmem)⟩
  rw [← s.reverse_reverse, hs]
  simp only [List.reverse_append, List.reverse_cons, List.append_assoc, List.singleton_append]

/-- Splitting at either of two kinds of separator is splitting at one, then at the other. -/
theorem splitOnP_or {α : Type*} (p q : α → Bool) (s : List α) :
    s.splitOnP (fun c => p c || q c) = (s.splitOnP p).flatMap (List.splitOnP q) := by
  induction s with
  | nil => rfl
  | cons c cs ih =>
    obtain ⟨hd, tl, hcs⟩ := List.exists_cons_of_ne_nil (List.splitOnP_ne_nil p cs)
    rw [List.splitOnP_cons_eq_if_modifyHead, List.splitOnP_cons_eq_if_modifyHead, ih, hcs]
    by_cases hp : p c = true
    · simp only [hp, Bool.true_or, if_true, List.flatMap_cons, List.splitOnP_nil,
        List.singleton_append]
    · by_cases hq : q c = true
      · simp only [hp, hq, Bool.or_true, if_true, List.modifyHead_cons, List.flatMap_cons,
          List.splitOnP_cons_eq_if_modifyHead, List.cons_append, if_false, Bool.false_eq_true]
      · obtain ⟨hd', tl', hhd⟩ := List.exists_cons_of_ne_nil (List.splitOnP_ne_nil q hd)
        simp only [hp, hq, Bool.or_false, if_false, Bool.false_eq_true, List.modifyHead_cons,
          List.flatMap_cons, List.splitOnP_cons_eq_if_modifyHead, hhd, List.cons_append]

/-- The pieces of a split are what stands between two separators, or between one and an end. -/
theorem mem_splitOn_iff {α : Type*} [BEq α] [LawfulBEq α] {a : α} {s seg : List α} :
    seg ∈ s.splitOn a ↔ ∃ b₁ b₂, s = b₁ ++ seg ++ b₂ ∧ (b₁ = [] ∨ ∃ b, b₁ = b ++ [a]) ∧
      (b₂ = [] ∨ ∃ b, b₂ = a :: b) ∧ a ∉ seg := by
  constructor
  · intro h
    induction hn : s.length using Nat.strongRecOn generalizing s with
    | ind n ih =>
      by_cases ha : a ∈ s
      · obtain ⟨u, v, rfl, hu⟩ := List.eq_append_cons_of_mem ha
        rw [List.splitOn_append_cons_self, List.splitOn_eq_singleton hu] at h
        rcases List.mem_append.mp h with h | h
        · obtain rfl := List.mem_singleton.mp h
          exact ⟨[], a :: v, rfl, Or.inl rfl, Or.inr ⟨v, rfl⟩, hu⟩
        · have hlt : v.length < n := by
            rw [← hn, List.length_append, List.length_cons]
            omega
          obtain ⟨b₁, b₂, hv, h₁, h₂, hseg⟩ := ih v.length hlt h rfl
          refine ⟨u ++ a :: b₁, b₂, by rw [hv]; simp, Or.inr ?_, h₂, hseg⟩
          rcases h₁ with rfl | ⟨b, rfl⟩
          · exact ⟨u, rfl⟩
          · exact ⟨u ++ a :: b, by simp⟩
      · rw [List.splitOn_eq_singleton ha] at h
        obtain rfl := List.mem_singleton.mp h
        exact ⟨[], [], by simp, Or.inl rfl, Or.inl rfl, ha⟩
  · rintro ⟨b₁, b₂, rfl, h₁, h₂, hseg⟩
    have hright : seg ∈ (seg ++ b₂).splitOn a := by
      rcases h₂ with rfl | ⟨b, rfl⟩
      · rw [List.append_nil, List.splitOn_eq_singleton hseg]
        exact List.mem_singleton_self seg
      · rw [List.splitOn_append_cons_self, List.splitOn_eq_singleton hseg]
        exact List.mem_append_left _ (List.mem_singleton_self seg)
    rcases h₁ with rfl | ⟨b, rfl⟩
    · exact hright
    · rw [List.append_assoc, List.append_assoc, List.singleton_append, List.splitOn_append_cons_self]
      exact List.mem_append_right _ hright

theorem intercalate_cons {α : Type*} (sep piece : List α) (pieces : List (List α)) :
    sep.intercalate (piece :: pieces) = piece ++ pieces.flatMap (sep ++ ·) := by
  induction pieces generalizing piece with
  | nil => rw [List.intercalate_singleton, List.flatMap_nil, List.append_nil]
  | cons next pieces ih =>
    rw [List.intercalate_cons_cons, ih, List.flatMap_cons]
    simp only [List.append_assoc]

theorem mem_intercalate {α : Type*} {sep c : α} {pieces : List (List α)}
    (h : c ∈ [sep].intercalate pieces) : c = sep ∨ ∃ piece ∈ pieces, c ∈ piece := by
  induction pieces with
  | nil => cases h
  | cons piece pieces ih =>
    cases pieces with
    | nil => exact Or.inr ⟨piece, List.mem_cons_self, by simpa using h⟩
    | cons next pieces =>
      rw [List.intercalate_cons_cons, List.mem_append, List.mem_append, List.mem_singleton] at h
      rcases h with (h | h) | h
      · exact Or.inr ⟨piece, List.mem_cons_self, h⟩
      · exact Or.inl h
      · rcases ih h with heq | ⟨p, hp, hc⟩
        · exact Or.inl heq
        · exact Or.inr ⟨p, List.mem_cons_of_mem _ hp, hc⟩

theorem mem_intercalate_of_mem {α : Type*} {c : α} {sep piece : List α} {pieces : List (List α)}
    (hpiece : piece ∈ pieces) (hc : c ∈ piece) : c ∈ sep.intercalate pieces := by
  induction pieces with
  | nil => cases hpiece
  | cons first pieces ih =>
    cases pieces with
    | nil =>
      obtain rfl := List.mem_singleton.mp hpiece
      simpa using hc
    | cons next pieces =>
      rw [List.intercalate_cons_cons]
      rcases List.mem_cons.mp hpiece with rfl | hpiece
      · exact List.mem_append_left _ (List.mem_append_left _ hc)
      · exact List.mem_append_right _ (ih hpiece)

theorem map_intercalate {α β : Type*} (f : α → β) (sep : List α) (pieces : List (List α)) :
    (sep.intercalate pieces).map f = (sep.map f).intercalate (pieces.map (List.map f)) := by
  induction pieces with
  | nil => rfl
  | cons piece pieces ih =>
    cases pieces with
    | nil => simp
    | cons next pieces =>
      simp only [List.map_cons, List.intercalate_cons_cons, List.map_append] at ih ⊢
      rw [ih]

/-- A text without any `space` is left as it is. -/
theorem trimBy_eq_self {space : Char → Bool} {s : List Char} (h : ∀ c ∈ s, space c = false) :
    trimBy space s = s := by
  have hstop {l : List Char} (hl : ∀ c ∈ l, space c = false) : l.dropWhile space = l := by
    cases l with
    | nil => rfl
    | cons c l => rw [List.dropWhile_cons_of_neg (by simp [hl c List.mem_cons_self])]
  rw [trimBy, hstop h, hstop fun c hc => h c (List.mem_reverse.mp hc), List.reverse_reverse]

theorem dropWhile_append_of_head {α : Type*} {p : α → Bool} {l m : List α}
    (h : ∃ c ∈ m.head?, p c = false) : (l ++ m).dropWhile p = l.dropWhile p ++ m := by
  obtain ⟨c, hc, hcp⟩ := h
  obtain ⟨t, rfl⟩ : ∃ t, m = c :: t := by
    cases m with
    | nil => cases hc
    | cons d t => exact ⟨t, by rw [Option.some.inj hc]⟩
  rw [List.dropWhile_append]
  split
  · rename_i hempty
    rw [List.isEmpty_iff.mp hempty, List.dropWhile_cons, hcp]
    rfl
  · rfl

/-- Only what stands around a text that neither begins nor ends in `space` is trimmed. -/
theorem trimBy_append {space : Char → Bool} {l m r : List Char}
    (hfirst : ∃ c ∈ m.head?, space c = false) (hlast : ∃ c ∈ m.getLast?, space c = false) :
    trimBy space (l ++ m ++ r) =
      l.dropWhile space ++ m ++ (r.reverse.dropWhile space).reverse := by
  have hlast' : ∃ c ∈ m.reverse.head?, space c = false := by rwa [List.head?_reverse]
  have hlast'' (x : List Char) : ∃ c ∈ (m.reverse ++ x).head?, space c = false := by
    obtain ⟨c, hc, hcs⟩ := hlast'
    exact ⟨c, by rw [List.head?_append]; simp only [Option.mem_def] at hc ⊢; rw [hc]; rfl, hcs⟩
  have hfirst' : ∃ c ∈ (m ++ r).head?, space c = false := by
    obtain ⟨c, hc, hcs⟩ := hfirst
    exact ⟨c, by rw [List.head?_append]; simp only [Option.mem_def] at hc ⊢; rw [hc]; rfl, hcs⟩
  rw [trimBy, List.append_assoc, dropWhile_append_of_head hfirst', List.reverse_append,
    List.reverse_append, List.append_assoc, dropWhile_append_of_head (hlast'' _)]
  simp

theorem dropWhile_head {α : Type*} {p : α → Bool} {s : List α} (h : s.dropWhile p ≠ []) :
    ∃ c ∈ (s.dropWhile p).head?, p c = false := by
  have hnot := List.head?_dropWhile_not p s
  cases hd : (s.dropWhile p).head? with
  | none => exact absurd (List.head?_eq_none_iff.mp hd) h
  | some c =>
    rw [hd] at hnot
    exact ⟨c, rfl, by simpa using hnot⟩

/-- What a text is trimmed to, and what is trimmed off it. -/
theorem trimBy_spec (space : Char → Bool) (s : List Char) : ∃ l r, s = l ++ trimBy space s ++ r ∧
    (∀ c ∈ l, space c = true) ∧ (∀ c ∈ r, space c = true) ∧
    (trimBy space s ≠ [] → (∃ c ∈ (trimBy space s).head?, space c = false) ∧
      ∃ c ∈ (trimBy space s).getLast?, space c = false) := by
  generalize hd : s.dropWhile space = d
  have hs : s = s.takeWhile space ++ d := by rw [← hd, List.takeWhile_append_dropWhile]
  have htrim : trimBy space s = (d.reverse.dropWhile space).reverse := by rw [trimBy, hd]
  have hdr : d = trimBy space s ++ (d.reverse.takeWhile space).reverse := by
    rw [htrim, ← List.reverse_append, List.takeWhile_append_dropWhile, List.reverse_reverse]
  refine ⟨s.takeWhile space, (d.reverse.takeWhile space).reverse, ?_, ?_, ?_, ?_⟩
  · rw [List.append_assoc, ← hdr]
    exact hs
  · exact List.all_eq_true.mp List.all_takeWhile
  · intro c hc
    exact List.all_eq_true.mp List.all_takeWhile c (List.mem_reverse.mp hc)
  · intro hne
    have hdne : d ≠ [] := by
      intro hnil
      rw [hnil] at hdr
      exact hne (List.append_eq_nil_iff.mp hdr.symm).1
    constructor
    · obtain ⟨c, hc, hspace⟩ := dropWhile_head (p := space) (s := s) (by rwa [hd])
      rw [hd, hdr, List.head?_append_of_ne_nil _ hne] at hc
      exact ⟨c, hc, hspace⟩
    · have hrev : d.reverse.dropWhile space ≠ [] := by
        intro hnil
        rw [hnil] at htrim
        exact hne htrim
      obtain ⟨c, hc, hspace⟩ := dropWhile_head hrev
      rw [htrim, List.getLast?_reverse]
      exact ⟨c, hc, hspace⟩

/-- A text neither begins nor ends in `space`, and is not empty. -/
def Bare (space : Char → Bool) (s : List Char) : Prop :=
  (∃ c ∈ s.head?, space c = false) ∧ ∃ c ∈ s.getLast?, space c = false

theorem Bare.trimBy {space : Char → Bool} {s : List Char} (h : Bare space s) : trimBy space s = s := by
  have happend := trimBy_append (l := []) (r := []) h.1 h.2
  simpa using happend

theorem bare_of_trimBy {space : Char → Bool} {s : List Char} (hs : s ≠ []) (h : Lib.trimBy space s = s) :
    Bare space s := by
  obtain ⟨l, r, -, -, -, hbare⟩ := trimBy_spec space s
  rw [h] at hbare
  exact hbare hs

theorem Bare.append {space : Char → Bool} {a b : List Char} (ha : Bare space a) (m : List Char) (hb : Bare space b) :
    Bare space (a ++ m ++ b) := by
  obtain ⟨c, hc, hcs⟩ := ha.1
  obtain ⟨d, hd, hds⟩ := hb.2
  refine ⟨⟨c, ?_, hcs⟩, ⟨d, ?_, hds⟩⟩
  · rw [List.append_assoc, List.head?_append, Option.mem_def.mp hc]
    rfl
  · rw [List.getLast?_append, Option.mem_def.mp hd]
    rfl

/-- Bare texts joined are bare. -/
theorem bare_intercalate {space : Char → Bool} {sep : List Char} {pieces : List (List Char)} (hne : pieces ≠ [])
    (h : ∀ piece ∈ pieces, Bare space piece) : Bare space (sep.intercalate pieces) := by
  induction pieces with
  | nil => exact absurd rfl hne
  | cons first pieces ih =>
    obtain ⟨hfirst, hpieces⟩ := List.forall_mem_cons.mp h
    cases pieces with
    | nil => simpa using hfirst
    | cons next pieces =>
      rw [List.intercalate_cons_cons]
      exact hfirst.append sep (ih (List.cons_ne_nil _ _) hpieces)

/-- Nothing but the separators is lost in a split. -/
theorem count_flatten_splitOn {a x : Char} (hne : x ≠ a) (s : List Char) :
    (s.splitOn a).flatten.count x = s.count x := by
  induction s with
  | nil => rfl
  | cons c cs ih =>
    obtain ⟨hd, tl, hcs⟩ := List.exists_cons_of_ne_nil (List.splitOn_ne_nil a cs)
    rw [List.splitOn_cons_eq_if_modifyHead, List.count_cons, ← ih, hcs]
    by_cases hc : (c == a) = true
    · have hcx : (c == x) = false := by
        rw [beq_eq_false_iff_ne, eq_of_beq hc]
        exact hne.symm
      simp only [hc, if_true, List.flatten_cons, List.nil_append, hcx, if_false, Bool.false_eq_true,
        Nat.add_zero]
    · simp only [hc, if_false, Bool.false_eq_true, List.modifyHead_cons, List.flatten_cons,
        List.cons_append, List.count_cons]

theorem mem_dropWhile {α : Type*} {p : α → Bool} {s : List α} {c : α} (hc : c ∈ s)
    (hp : p c = false) : c ∈ s.dropWhile p := by
  induction s with
  | nil => exact absurd hc List.not_mem_nil
  | cons d ds ih =>
    rw [List.dropWhile_cons]
    split
    · rename_i hd
      rcases List.mem_cons.mp hc with rfl | hc
      · rw [hp] at hd
        cases hd
      · exact ih hc
    · exact hc

theorem mem_dropPrefix_one {a c : Char} {s : List Char} (hc : c ∈ s) (hne : c ≠ a) :
    c ∈ dropPrefix [a] s := by
  cases s with
  | nil => exact absurd hc List.not_mem_nil
  | cons d ds =>
    by_cases had : a = d
    · simp only [dropPrefix, stripPrefix?, had, if_true, Option.getD_some]
      rcases List.mem_cons.mp hc with h | h
      · exact absurd (h.trans had.symm) hne
      · exact h
    · simp only [dropPrefix, stripPrefix?, had, if_false, Option.getD_none]
      exact hc

/-! Decimal numbers as texts. -/

theorem toString_toList (n : ℕ) : (toString n).toList = Nat.toDigits 10 n := by
  rw [Nat.toString_eq_repr, Nat.toList_repr]

theorem isDigit_of_mem_toString (n : ℕ) (c : Char) (hc : c ∈ (toString n).toList) :
    c.isDigit = true := by
  rw [toString_toList] at hc
  exact Nat.isDigit_of_mem_toDigits (by decide) (by decide) hc

theorem toString_ne_nil (n : ℕ) : (toString n).toList ≠ [] := by
  rw [toString_toList]
  exact Nat.toDigits_ne_nil

theorem foldl_toString (n : ℕ) :
    (toString n).toList.foldl (fun n c => 10 * n + (c.toNat - 48)) 0 = n := by
  rw [toString_toList]
  have h := Nat.ofDigitChars_ten_toDigits (n := n)
  rwa [Nat.ofDigitChars_eq_foldl] at h

theorem toString_inj {m n : ℕ} : toString m = toString n ↔ m = n := by
  refine ⟨fun h => ?_, fun h => by rw [h]⟩
  rw [← foldl_toString m, ← foldl_toString n, h]

end NoPorts.Lib
