import NoPorts.Lib.Text
import NoPorts.Lib.Utf8

/-! Which of two patterns is the first to be seen whole, as a list comes in. -/
namespace NoPorts.Lib

section
variable {α : Type*} {p q s t u : List α}

/-- At some point of `s`, `p` has been seen whole and `q` has not. -/
def SeenFirst (p q s : List α) : Prop := ∃ t, t <+: s ∧ p <:+: t ∧ ¬q <:+: t

/-- `p` begins in `s` and ends in what follows it. -/
def Cut (p s t : List α) : Prop := ∃ l r, l ≠ [] ∧ r ≠ [] ∧ p = l ++ r ∧ l <:+ s ∧ r <+: t

theorem infix_append_iff_cut : p <:+: s ++ t ↔ p <:+: s ∨ p <:+: t ∨ Cut p s t :=
  List.infix_append_iff_ne_nil

theorem SeenFirst.mono (h : SeenFirst p q s) (hs : s <+: t) : SeenFirst p q t := by
  obtain ⟨u, hu, hp, hq⟩ := h
  exact ⟨u, hu.trans hs, hp, hq⟩

theorem seenFirst_of_not_infix (hp : p <:+: s) (hq : ¬q <:+: s) : SeenFirst p q s :=
  ⟨s, List.prefix_rfl, hp, hq⟩

/-- Nor is a pattern seen where it can neither end in `s` nor begin there. -/
theorem not_infix_append (hs : ¬p <:+: s) (hcut : ¬Cut p s t) (ht : ¬p <:+: t) : ¬p <:+: s ++ t := by
  intro h
  rcases infix_append_iff_cut.mp h with h | h | h
  · exact hs h
  · exact ht h
  · exact hcut h

theorem Cut.mono (h : Cut p s t) (ht : t <+: u) : Cut p s u := by
  obtain ⟨l, r, hl, hr, hp, hs, hrt⟩ := h
  exact ⟨l, r, hl, hr, hp, hs, hrt.trans ht⟩

/-- What is seen first is so still after a list in which the other pattern neither ends nor begins. -/
theorem SeenFirst.after (h : SeenFirst p q t) (hs : ¬q <:+: s) (hcut : ¬Cut q s t) : SeenFirst p q (s ++ t) := by
  obtain ⟨u, hu, hp, hq⟩ := h
  refine ⟨s ++ u, (List.prefix_append_right_inj s).mpr hu, hp.trans List.infix_append_right, ?_⟩
  apply not_infix_append hs _ hq
  exact fun h => hcut (h.mono hu)

/-- A pattern does not begin where its first element is not. -/
theorem not_cut_of_head {a : α} (hp : p.head? = some a) (ha : a ∉ s) : ¬p <:+: s ∧ ¬Cut p s t := by
  constructor
  · intro h
    exact ha (h.subset (List.mem_of_head? hp))
  · rintro ⟨l, r, hl, -, rfl, hs, -⟩
    rw [List.head?_append_of_ne_nil l hl] at hp
    exact ha (hs.subset (List.mem_of_head? hp))

/-- Nor does it end where its last element is not. -/
theorem not_cut_of_last {a : α} (hp : p.getLast? = some a) (ha : a ∉ t) : ¬p <:+: t ∧ ¬Cut p s t := by
  constructor
  · intro h
    exact ha (h.subset (List.mem_of_getLast? hp))
  · rintro ⟨l, r, -, hr, rfl, -, ht⟩
    rw [List.getLast?_append_of_ne_nil l hr] at hp
    exact ha (ht.subset (List.mem_of_getLast? hp))

/-- Nor does it run over a separator. -/
theorem not_cut_of_sep {sep : α} (hp : sep ∉ p) : ¬Cut p (s ++ [sep]) t := by
  rintro ⟨l, r, hl, -, rfl, hs, -⟩
  obtain ⟨b, hb⟩ := hs
  have hlast := congrArg List.getLast? hb
  rw [List.getLast?_append_of_ne_nil b hl, List.getLast?_concat] at hlast
  exact hp (List.mem_append_left r (List.mem_of_getLast? hlast))

theorem not_infix_sep {sep : α} (hp : sep ∉ p) (hs : ¬p <:+: s) : ¬p <:+: s ++ [sep] := by
  intro h
  rcases List.infix_concat_iff.mp h with h | h
  · obtain ⟨b, hb⟩ := h
    by_cases hnil : p = []
    · exact hs (hnil ▸ List.nil_infix)
    · have hlast := congrArg List.getLast? hb
      rw [List.getLast?_append_of_ne_nil b hnil, List.getLast?_concat] at hlast
      exact hp (List.mem_of_getLast? hlast)
  · exact hs h

/-- Lines in none of which a pattern without the separator is seen. -/
theorem not_infix_intercalate {sep : α} {lines : List (List α)} (hne : p ≠ []) (hp : sep ∉ p)
    (h : ∀ line ∈ lines, ¬p <:+: line) : ¬p <:+: [sep].intercalate lines := by
  induction lines with
  | nil =>
    rw [List.intercalate_nil, List.infix_nil]
    exact hne
  | cons line lines ih =>
    obtain ⟨hline, hlines⟩ := List.forall_mem_cons.mp h
    cases lines with
    | nil =>
      rw [List.intercalate_singleton]
      exact hline
    | cons next lines =>
      rw [List.intercalate_cons_cons]
      exact not_infix_append (not_infix_sep hp hline) (not_cut_of_sep hp) (ih hlines)

/-- Of the lines, the first in which either pattern is seen shows which is seen first. -/
theorem seenFirst_intercalate {sep : α} {pre post : List (List α)} {line : List α} (hq : sep ∉ q)
    (hpre : ∀ l ∈ pre, ¬q <:+: l) (hline : SeenFirst p q line) :
    SeenFirst p q ([sep].intercalate (pre ++ line :: post)) := by
  induction pre with
  | nil =>
    apply hline.mono
    cases post with
    | nil =>
      have hlast : [sep].intercalate [line] = line ++ [] := by rw [List.intercalate_singleton, List.append_nil]
      exact ⟨[], hlast.symm⟩
    | cons next post =>
      rw [List.nil_append, List.intercalate_cons_cons, List.append_assoc]
      exact List.prefix_append _ _
  | cons l pre ih =>
    obtain ⟨hl, hpre⟩ := List.forall_mem_cons.mp hpre
    have ih := ih hpre
    cases hrest : pre ++ line :: post with
    | nil => exact absurd hrest (by simp)
    | cons next rest =>
      rw [hrest] at ih
      rw [List.cons_append, hrest, List.intercalate_cons_cons]
      exact ih.after (not_infix_sep hq hl) (not_cut_of_sep hq)

end

/-! ### In a text and in its UTF-8 -/

section Utf8
variable {p q s text : List Char} {bytes : List UInt8}
open Utf8

/-- A pattern of ASCII characters is seen in a text where its bytes are seen in the text's. -/
theorem encode_infix_iff (hp : ∀ c ∈ p, c.toNat < 0x80) (hne : p ≠ []) : encode p <:+: encode s ↔ p <:+: s := by
  constructor
  · intro h
    induction s with
    | nil =>
      have hnil := List.infix_nil.mp h
      cases p with
      | nil => exact absurd rfl hne
      | cons c p => exact absurd (List.append_eq_nil_iff.mp hnil).1 (encode_spec c).1.ne_nil
    | cons d s ih =>
      by_cases hd : d.toNat < 0x80
      · rw [encode_cons, encode_ascii hd, List.singleton_append] at h
        rcases List.infix_cons_iff.mp h with h | h
        · rw [← List.singleton_append, ← encode_ascii hd, ← encode_cons] at h
          exact List.IsPrefix.isInfix ( encode_prefix.mp h)
        · exact List.infix_cons (ih h)
      · rw [encode_cons] at h
        cases p with
        | nil => exact absurd rfl hne
        | cons c p =>
          -- no byte of `d` is the pattern's first
          have hc := hp c List.mem_cons_self
          have hhead : (encode (c :: p)).head? = some (UInt8.ofNat c.toNat) := by
            rw [encode_cons, encode_ascii hc]
            rfl
          have hnot : UInt8.ofNat c.toNat ∉ String.utf8EncodeChar d := by
            intro hin
            obtain ⟨hseq, -, hvalue⟩ := encode_spec d
            have hhigh := hseq.high (by omega) _ hin
            rw [toNat_ofNat (by omega)] at hhigh
            omega
          obtain ⟨hnone, hcut⟩ := not_cut_of_head hhead hnot (t := encode s)
          rcases infix_append_iff_cut.mp h with h | h | h
          · exact absurd h hnone
          · exact List.infix_cons (ih h)
          · exact absurd h hcut
  · rintro ⟨l, r, rfl⟩
    rw [encode_append, encode_append]
    exact List.infix_append _ _ _

theorem seenFirst_encode (hp : ∀ c ∈ p, c.toNat < 0x80) (hq : ∀ c ∈ q, c.toNat < 0x80) (hpne : p ≠ [])
    (hqne : q ≠ []) (h : SeenFirst p q s) : SeenFirst (encode p) (encode q) (encode s) := by
  obtain ⟨t, ht, hpt, hqt⟩ := h
  refine ⟨encode t, encode_prefix.mpr ht, (encode_infix_iff hp hpne).mpr hpt, ?_⟩
  exact fun h => hqt ((encode_infix_iff hq hqne).mp h)

/-- The characters of a text, and the byte order mark that may come before it. -/
theorem encode_of_decodeText (h : decodeText bytes = some text) :
    ∃ bom, encode (bom ++ text) = bytes ∧ ∀ c ∈ bom, c = Char.ofNat 0xFEFF := by
  obtain ⟨cs, hcs, htext⟩ := Option.map_eq_some_iff.mp h
  rw [decode_eq_some] at hcs
  split at htext
  · rename_i hhead
    obtain ⟨rest, rfl⟩ := List.head?_eq_some_iff.mp hhead
    refine ⟨[Char.ofNat 0xFEFF], ?_, fun c hc => List.mem_singleton.mp hc⟩
    rw [← htext]
    exact hcs
  · exact ⟨[], htext ▸ hcs, fun c hc => absurd hc List.not_mem_nil⟩

end Utf8

end NoPorts.Lib
