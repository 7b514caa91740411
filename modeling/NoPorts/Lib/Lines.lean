import Mathlib.Data.List.Basic

/-! The lines of a text, each ended by "\n", "\r\n" or "\r", the last one maybe by nothing. -/
namespace NoPorts.Lib

/-- `c` in front of the first line. -/
def prependLine (c : Char) : List (List Char) → List (List Char)
  | [] => [[c]]
  | line :: lines => (c :: line) :: lines

def lines : List Char → List (List Char)
  | [] => []
  | c :: rest =>
    if c = '\r' ∧ rest.head? = some '\n' then lines rest
    else if c = '\n' ∨ c = '\r' then [] :: lines rest
    else prependLine c (lines rest)

def joinLines (ls : List (List Char)) : List Char := ['\n'].intercalate ls

/-- What comes next starts a line. -/
def AtLineStart (s : List Char) : Prop := s = [] ∨ s.getLast? = some '\n'

instance (s : List Char) : Decidable (AtLineStart s) := inferInstanceAs (Decidable (_ ∨ _))

theorem prependLine_append {c : Char} {ls ms : List (List Char)} (h : ls ≠ []) :
    prependLine c (ls ++ ms) = prependLine c ls ++ ms := by
  cases ls with
  | nil => exact absurd rfl h
  | cons line ls => rfl

theorem prependLine_ne_nil (c : Char) (ls : List (List Char)) : prependLine c ls ≠ [] := by
  cases ls <;> exact List.cons_ne_nil _ _

theorem lines_ne_nil {s : List Char} (h : s ≠ []) : lines s ≠ [] := by
  induction s with
  | nil => exact absurd rfl h
  | cons c rest ih =>
    rw [lines]
    split
    · rename_i hcr
      apply ih
      rintro rfl
      cases hcr.2
    · split
      · exact List.cons_ne_nil _ _
      · exact prependLine_ne_nil c _

theorem atLineStart_of_cons {c : Char} {rest : List Char} (hrest : rest ≠ [])
    (h : AtLineStart (c :: rest)) : AtLineStart rest := by
  rcases h with h | h
  · cases h
  · rw [List.getLast?_cons_of_ne_nil hrest] at h
    exact Or.inr h

theorem lines_append {s : List Char} (h : AtLineStart s) (t : List Char) :
    lines (s ++ t) = lines s ++ lines t := by
  induction s with
  | nil => rfl
  | cons c rest ih =>
    by_cases hrest : rest = []
    · subst hrest
      have hc : c = '\n' := by simpa [AtLineStart] using h
      subst hc
      rfl
    · have hhead : (rest ++ t).head? = rest.head? := List.head?_append_of_ne_nil rest hrest
      rw [List.cons_append, lines, lines, hhead, ih (atLineStart_of_cons hrest h)]
      by_cases hcr : c = '\r' ∧ rest.head? = some '\n'
      · rw [if_pos hcr, if_pos hcr]
      · rw [if_neg hcr, if_neg hcr]
        by_cases hbreak : c = '\n' ∨ c = '\r'
        · rw [if_pos hbreak, if_pos hbreak, List.cons_append]
        · rw [if_neg hbreak, if_neg hbreak, prependLine_append (lines_ne_nil hrest)]

/-- A newline ends the last line, or adds an empty one. -/
theorem lines_newline (s : List Char) :
    lines (s ++ ['\n']) = lines s ∨ lines (s ++ ['\n']) = lines s ++ [[]] := by
  induction s with
  | nil => exact Or.inr rfl
  | cons c rest ih =>
    by_cases hrest : rest = []
    · subst hrest
      by_cases hn : c = '\n'
      · subst hn
        exact Or.inr rfl
      · by_cases hr : c = '\r'
        · subst hr
          exact Or.inl rfl
        · left
          simp [lines, hn, hr, prependLine]
    · have hhead : (rest ++ ['\n']).head? = rest.head? := List.head?_append_of_ne_nil rest hrest
      rw [List.cons_append, lines, lines, hhead]
      by_cases hcr : c = '\r' ∧ rest.head? = some '\n'
      · rw [if_pos hcr, if_pos hcr]
        exact ih
      · rw [if_neg hcr, if_neg hcr]
        by_cases hbreak : c = '\n' ∨ c = '\r'
        · rw [if_pos hbreak, if_pos hbreak]
          exact ih.imp (fun h => congrArg _ h) fun h => congrArg _ h
        · rw [if_neg hbreak, if_neg hbreak]
          rcases ih with h | h
          · exact Or.inl (congrArg _ h)
          · right
            rw [h, prependLine_append (lines_ne_nil hrest)]

theorem mem_lines_newline {s l : List Char} (h : l ∈ lines (s ++ ['\n'])) : l ∈ lines s ∨ l = [] := by
  rcases lines_newline s with hs | hs
  · exact Or.inl (hs ▸ h)
  · rw [hs] at h
    exact (List.mem_append.mp h).imp id List.mem_singleton.mp

theorem sublist_lines_newline (s : List Char) : (lines s).Sublist (lines (s ++ ['\n'])) := by
  rcases lines_newline s with hs | hs
  · rw [hs]
  · rw [hs]
    exact List.sublist_append_left _ _

/-- Nothing in `line` ends a line. -/
def Unbroken (line : List Char) : Prop := ∀ c ∈ line, c ≠ '\n' ∧ c ≠ '\r'

theorem lines_cons_line {line : List Char} (h : Unbroken line) (rest : List Char) :
    lines (line ++ '\n' :: rest) = line :: lines rest := by
  induction line with
  | nil => rfl
  | cons c line ih =>
    obtain ⟨hn, hr⟩ := h c List.mem_cons_self
    rw [List.cons_append, lines, if_neg fun hcr => hr hcr.1, if_neg (not_or.mpr ⟨hn, hr⟩),
      ih fun d hd => h d (List.mem_cons_of_mem c hd)]
    rfl

theorem unbroken_of_mem_lines {s l : List Char} (h : l ∈ lines s) : Unbroken l := by
  induction s generalizing l with
  | nil => cases h
  | cons c rest ih =>
    rw [lines] at h
    split at h
    · exact ih h
    · split at h
      · rcases List.mem_cons.mp h with rfl | h
        · exact fun _ hc => absurd hc List.not_mem_nil
        · exact ih h
      · rename_i hbreak
        have hc := not_or.mp hbreak
        cases hls : lines rest with
        | nil =>
          rw [hls, prependLine, List.mem_singleton] at h
          subst h
          intro d hd
          rw [List.mem_singleton.mp hd]
          exact hc
        | cons line ls =>
          rw [hls] at h
          rcases List.mem_cons.mp h with rfl | h
          · intro d hd
            rcases List.mem_cons.mp hd with rfl | hd
            · exact hc
            · exact ih (hls ▸ List.mem_cons_self) d hd
          · exact ih (hls ▸ List.mem_cons_of_mem line h)

/-- Joined and ended, the lines are there again; of none comes an empty one. -/
theorem lines_joinLines (ls : List (List Char)) (h : ∀ l ∈ ls, Unbroken l) :
    lines (joinLines ls ++ ['\n']) = if ls = [] then [[]] else ls := by
  induction ls with
  | nil => rfl
  | cons line ls ih =>
    have hline := h line List.mem_cons_self
    rw [if_neg (List.cons_ne_nil line ls)]
    cases ls with
    | nil =>
      rw [joinLines, List.intercalate_singleton]
      exact lines_cons_line hline []
    | cons next ls =>
      have ih := ih fun l hl => h l (List.mem_cons_of_mem line hl)
      rw [if_neg (List.cons_ne_nil next ls)] at ih
      rw [joinLines, List.intercalate_cons_cons, ← joinLines, List.append_assoc, List.append_assoc,
        List.singleton_append, lines_cons_line hline, ih]

/-! ### Pieces that a separator ends -/

section Ended
variable {α : Type*} [DecidableEq α] {sep c : α} {s t new : List α}

/-- `c` in front of the first piece. -/
def consFirst (c : α) : List (List α) → List (List α)
  | [] => [[c]]
  | piece :: pieces => (c :: piece) :: pieces

/-- The pieces of a list, each ended by `sep`, the last one maybe by nothing. -/
def endedBy (sep : α) : List α → List (List α)
  | [] => []
  | c :: rest => if c = sep then [] :: endedBy sep rest else consFirst c (endedBy sep rest)

/-- What comes next starts a piece. -/
def Ended (sep : α) (s : List α) : Prop := s = [] ∨ s.getLast? = some sep

instance (sep : α) (s : List α) : Decidable (Ended sep s) := inferInstanceAs (Decidable (_ ∨ _))

omit [DecidableEq α] in
theorem consFirst_append {ps qs : List (List α)} (h : ps ≠ []) :
    consFirst c (ps ++ qs) = consFirst c ps ++ qs := by
  cases ps with
  | nil => exact absurd rfl h
  | cons piece ps => rfl

omit [DecidableEq α] in
theorem length_consFirst {ps : List (List α)} (h : ps ≠ []) : (consFirst c ps).length = ps.length := by
  cases ps with
  | nil => exact absurd rfl h
  | cons piece ps => rfl

omit [DecidableEq α] in
theorem flatten_consFirst (ps : List (List α)) : (consFirst c ps).flatten = c :: ps.flatten := by
  cases ps <;> rfl

theorem endedBy_ne_nil (h : s ≠ []) : endedBy sep s ≠ [] := by
  cases s with
  | nil => exact absurd rfl h
  | cons c rest =>
    rw [endedBy]
    split
    · exact List.cons_ne_nil _ _
    · cases endedBy sep rest <;> exact List.cons_ne_nil _ _

omit [DecidableEq α] in
theorem ended_of_cons (hs : s ≠ []) : Ended sep (c :: s) ↔ Ended sep s := by
  simp only [Ended, List.cons_ne_nil, hs, false_or, List.getLast?_cons_of_ne_nil hs]

theorem endedBy_append (h : Ended sep s) (t : List α) : endedBy sep (s ++ t) = endedBy sep s ++ endedBy sep t := by
  induction s with
  | nil => rfl
  | cons c rest ih =>
    by_cases hrest : rest = []
    · subst hrest
      have hc : c = sep := by simpa [Ended] using h
      simp only [hc, List.cons_append, List.nil_append, endedBy, if_true]
    · have ih := ih ((ended_of_cons hrest).mp h)
      rw [List.cons_append, endedBy, endedBy, ih]
      split
      · rfl
      · exact consFirst_append (endedBy_ne_nil hrest)

theorem endedBy_piece (h : sep ∉ new) (hne : new ≠ []) : endedBy sep new = [new] := by
  induction new with
  | nil => exact absurd rfl hne
  | cons c rest ih =>
    have hc : c ≠ sep := fun heq => h (by rw [heq]; exact List.mem_cons_self)
    rw [endedBy, if_neg hc]
    by_cases hrest : rest = []
    · rw [hrest]
      rfl
    · rw [ih (fun hin => h (List.mem_cons_of_mem c hin)) hrest]
      rfl

theorem endedBy_ended_piece (h : sep ∉ new) : endedBy sep (new ++ [sep]) = [new] := by
  induction new with
  | nil => simp only [List.nil_append, endedBy, if_true]
  | cons c rest ih =>
    have hc : c ≠ sep := fun heq => h (by rw [heq]; exact List.mem_cons_self)
    rw [List.cons_append, endedBy, if_neg hc, ih fun hin => h (List.mem_cons_of_mem c hin)]
    rfl

/-- Nothing but the separators is lost. -/
theorem flatten_endedBy (sep : α) (s : List α) : (endedBy sep s).flatten = s.filter (· ≠ sep) := by
  induction s with
  | nil => rfl
  | cons c rest ih =>
    rw [endedBy]
    split
    · rename_i hc
      rw [List.flatten_cons, List.nil_append, ih, List.filter_cons_of_neg (by simp [hc])]
    · rename_i hc
      rw [flatten_consFirst, ih, List.filter_cons_of_pos (by simp [hc])]

theorem sep_notMem_piece (h : new ∈ endedBy sep s) : sep ∉ new := by
  intro hin
  have hflat : sep ∈ (endedBy sep s).flatten := List.mem_flatten.mpr ⟨new, h, hin⟩
  rw [flatten_endedBy] at hflat
  simpa using (List.mem_filter.mp hflat).2

/-- What is appended to a piece that is not ended becomes part of it. -/
theorem length_endedBy_append (h : ¬Ended sep s) (ht : (endedBy sep t).length = 1) :
    (endedBy sep (s ++ t)).length = (endedBy sep s).length := by
  induction s with
  | nil => exact absurd (Or.inl rfl) h
  | cons c rest ih =>
    by_cases hrest : rest = []
    · subst hrest
      have hc : c ≠ sep := by simpa [Ended] using h
      have hne : endedBy sep t ≠ [] := by
        intro hnil
        rw [hnil] at ht
        cases ht
      simp only [List.cons_append, List.nil_append, endedBy, if_neg hc, length_consFirst hne, ht]
      rfl
    · have ih := ih fun hended => h ((ended_of_cons hrest).mpr hended)
      have hne : endedBy sep (rest ++ t) ≠ [] := endedBy_ne_nil (by simp [hrest])
      rw [List.cons_append, endedBy, endedBy]
      split
      · rw [List.length_cons, List.length_cons, ih]
      · rw [length_consFirst hne, length_consFirst (endedBy_ne_nil hrest), ih]

theorem endedBy_append_ne (h : ∃ c ∈ t, c ≠ sep) : endedBy sep (s ++ t) ≠ endedBy sep s := by
  intro heq
  obtain ⟨c, hc, hne⟩ := h
  have hflat := congrArg List.flatten heq
  rw [flatten_endedBy, flatten_endedBy, List.filter_append, List.append_right_eq_self] at hflat
  have hin : c ∈ t.filter (· ≠ sep) := List.mem_filter.mpr ⟨hc, by simpa using hne⟩
  rw [hflat] at hin
  cases hin

/-- A text appended with or without its end is one piece more exactly when it starts a piece and is one. -/
theorem endedBy_added_iff (hnew : ∃ c ∈ new, c ≠ sep) (ht : t = new ∨ t = new ++ [sep]) :
    endedBy sep (s ++ t) = endedBy sep s ++ [new] ↔ Ended sep s ∧ sep ∉ new := by
  have hne : new ≠ [] := by
    obtain ⟨c, hc, -⟩ := hnew
    exact List.ne_nil_of_mem hc
  have hpiece (h : sep ∉ new) : endedBy sep t = [new] := by
    rcases ht with rfl | rfl
    · exact endedBy_piece h hne
    · exact endedBy_ended_piece h
  constructor
  · intro heq
    have hin : new ∈ endedBy sep (s ++ t) := by
      rw [heq]
      exact List.mem_append_right _ (List.mem_singleton_self new)
    have hsep := sep_notMem_piece hin
    refine ⟨?_, hsep⟩
    by_contra hopen
    have hlen := length_endedBy_append hopen (t := t) (by rw [hpiece hsep]; rfl)
    rw [heq, List.length_append, List.length_singleton] at hlen
    omega
  · rintro ⟨hended, hsep⟩
    rw [endedBy_append hended, hpiece hsep]

end Ended

end NoPorts.Lib
