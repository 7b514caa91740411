import Mathlib.Data.List.Forall2
import Mathlib.Data.List.ReduceOption
import NoPorts.CDaemonPermitopen

/-! Which inputs `parse_permitopen` takes for what they say: empty entries shift the walk
over hosts and ports. -/
namespace NoPorts.CDaemon
open Lib

/-- The text of a port: `*`, or a number from 1 to 65535 that fills it. -/
def IsPort (port : List Char) (n : ℕ) : Prop :=
  port = ['*'] ∧ n = 0 ∨
    ∃ num : ℤ, strtol port = some (num, []) ∧ 1 ≤ num ∧ num ≤ 65535 ∧ n = num.toNat

/-- The entries of an input, from comma to comma. -/
def segments (input : List Char) : List (List Char) := (trimBy isQuote input).splitOn ','

/-- What an entry is parsed to. -/
def Parsed (e : List Char × List Char) (r : String × ℕ) : Prop :=
  r.1 = String.ofList e.1 ∧ IsPort e.2 r.2

/-- The input says `list`: its non-empty entries, one at least, are these hosts and ports. -/
def States (input : List Char) (list : List (String × ℕ)) : Prop :=
  ∃ entries : List (List Char × List Char), entries ≠ [] ∧
    (segments input).filter (· ≠ []) = entries.map entryText ∧
      (∀ e ∈ entries, e.1 ≠ [] ∧ ':' ∉ e.1 ∧ ':' ∉ e.2) ∧ List.Forall₂ Parsed entries list

/-- The input is parsed exactly. -/
def ParsesExactly (input : List Char) : Prop :=
  ∀ list, parsePermitopen input = some list ↔ States input list

/-- Every second one. -/
def everySecond {α : Type*} : List α → List α
  | _ :: b :: rest => b :: everySecond rest
  | _ => []

/-- The strings between separators that stand where a port is looked for. -/
def portPlaces (input : List Char) : List (List Char) :=
  (everySecond ((trimBy isQuote input).splitOnP isSeparator)).take ((trimBy isQuote input).count ':')

/-- Every entry has its shape, and what stands where a port is looked for is one. -/
structure ReadsAsPorts (input : List Char) : Prop where
  shape : (segments input).all entryShape = true
  colons : (trimBy isQuote input).count ':' ≠ 0
  ports : ∀ p ∈ portPlaces input, ∃ n, IsPort p n

/-! ### Ports -/

theorem strtol_star (rest : List Char) : strtol ('*' :: rest) = none := by
  have hspace : ('*' :: rest).dropWhile isAsciiSpace = '*' :: rest :=
    List.dropWhile_cons_of_neg (by decide)
  have hplus : dropPrefix ['+'] ('*' :: rest) = '*' :: rest := rfl
  have hdigits : ('*' :: rest).takeWhile Char.isDigit = [] :=
    List.takeWhile_cons_of_neg (by decide)
  have hminus : (('*' :: rest).head? == some '-') = false := rfl
  simp only [strtol, hspace, hminus, hplus, hdigits, Bool.false_eq_true, if_false, true_or, if_true]

theorem permitopenPort_eq_some {port : List Char} {n : ℕ} :
    permitopenPort port = some n ↔ IsPort port n := by
  unfold permitopenPort IsPort
  split
  · rename_i rest
    rw [Option.ite_none_right_eq_some, strtol_star, List.cons.injEq, eq_self, true_and,
      Option.some.injEq, eq_comm (a := 0)]
    constructor
    · exact Or.inl
    · rintro (h | ⟨num, hnum, -⟩)
      · exact h
      · cases hnum
  · rename_i hstar
    have hne : ¬(port = ['*'] ∧ n = 0) := fun h => hstar [] h.1
    rw [or_iff_right hne]
    cases hnum : strtol port with
    | none => simp
    | some read =>
      obtain ⟨num, rest⟩ := read
      cases rest with
      | cons c rest => simp
      | nil =>
        simp only [Option.ite_none_left_eq_some, Option.some.injEq, Prod.mk.injEq, and_true,
          exists_eq_left']
        constructor
        · rintro ⟨hrange, rfl⟩
          exact ⟨by omega, by omega, rfl⟩
        · rintro ⟨hlow, hhigh, rfl⟩
          exact ⟨by omega, rfl⟩

theorem exists_of_forall₂ {α β : Type*} {R : α → β → Prop} {as : List α} {bs : List β}
    (h : List.Forall₂ R as bs) {b : β} (hb : b ∈ bs) : ∃ a ∈ as, R a b := by
  induction h with
  | nil => exact absurd hb List.not_mem_nil
  | cons hab _ ih =>
    rcases List.mem_cons.mp hb with rfl | hb
    · exact ⟨_, List.mem_cons_self, hab⟩
    · obtain ⟨a, ha, hR⟩ := ih hb
      exact ⟨a, List.mem_cons_of_mem _ ha, hR⟩

theorem readEntry_eq_some {e : List Char × List Char} {r : String × ℕ} :
    readEntry e = some r ↔ Parsed e r := by
  rw [readEntry, Option.map_eq_some_iff]
  constructor
  · rintro ⟨n, hn, rfl⟩
    exact ⟨rfl, permitopenPort_eq_some.mp hn⟩
  · rintro ⟨hhost, hport⟩
    exact ⟨r.2, permitopenPort_eq_some.mpr hport, Prod.ext hhost.symm rfl⟩

theorem mapM_readEntry {entries : List (List Char × List Char)} {list : List (String × ℕ)} :
    entries.mapM readEntry = some list ↔ List.Forall₂ Parsed entries list := by
  induction entries generalizing list with
  | nil =>
    rw [List.mapM_nil, List.forall₂_nil_left_iff]
    exact ⟨fun h => (Option.some.inj h).symm, fun h => by rw [h]; rfl⟩
  | cons e entries ih =>
    rw [List.mapM_cons, List.forall₂_cons_left_iff]
    simp only [Option.bind_eq_bind, Option.bind_eq_some_iff, Option.pure_def, Option.some.injEq,
      readEntry_eq_some, ih]
    constructor
    · rintro ⟨r, hr, rs, hrs, rfl⟩
      exact ⟨r, rs, hr, hrs, rfl⟩
    · rintro ⟨r, rs, hr, hrs, rfl⟩
      exact ⟨r, hr, rs, hrs, rfl⟩

/-! ### The walk -/

/-- The walk goes through when the strings it takes for ports are ports. -/
theorem walk_isSome {n : ℕ} {pieces : List (List Char)} (h : 2 * n ≤ pieces.length) :
    (walk n pieces).isSome ↔ ∀ p ∈ (everySecond pieces).take n, ∃ k, IsPort p k := by
  induction n generalizing pieces with
  | zero => simp [walk]
  | succ n ih =>
    rcases pieces with _ | ⟨host, _ | ⟨port, rest⟩⟩
    · exact absurd h (by simp)
    · exact absurd h (by rw [List.length_singleton]; omega)
    · have hrest : 2 * n ≤ rest.length := by
        rw [List.length_cons, List.length_cons] at h
        omega
      rw [everySecond, List.take_succ_cons, List.forall_mem_cons, ← ih hrest, walk]
      simp only [← permitopenPort_eq_some, ← Option.isSome_iff_exists]
      cases permitopenPort port with
      | none => simp
      | some k => simp

/-! ### Entries, and the empty ones among them -/

/-- An entry as the walk meets it: empty, or a host and a port. -/
abbrev Cell := Option (List Char × List Char)

def cellText : Cell → List Char
  | none => []
  | some e => entryText e

def cellPieces : Cell → List (List Char)
  | none => [[]]
  | some e => [e.1, e.2]

/-- The cells of an input. -/
structure Cells (input : List Char) (cells : List Cell) : Prop where
  cut : segments input = cells.map cellText
  colonless : ∀ e, some e ∈ cells → ':' ∉ e.1 ∧ ':' ∉ e.2

theorem entryText_ne_nil (e : List Char × List Char) : entryText e ≠ [] :=
  List.append_ne_nil_of_right_ne_nil e.1 (List.cons_ne_nil ':' e.2)

theorem entryText_inj {e f : List Char × List Char} (he : ':' ∉ e.1 ∧ ':' ∉ e.2)
    (hf : ':' ∉ f.1 ∧ ':' ∉ f.2) (h : entryText e = entryText f) : e = f := by
  have hsplit := congrArg (List.splitOn ':') h
  rw [entryText, entryText, splitOn_colon_entry he.1 he.2, splitOn_colon_entry hf.1 hf.2] at hsplit
  simp only [List.cons.injEq, and_true] at hsplit
  exact Prod.ext hsplit.1 hsplit.2

theorem map_entryText_inj {es fs : List (List Char × List Char)}
    (he : ∀ e ∈ es, ':' ∉ e.1 ∧ ':' ∉ e.2) (hf : ∀ f ∈ fs, ':' ∉ f.1 ∧ ':' ∉ f.2)
    (h : es.map entryText = fs.map entryText) : es = fs := by
  induction es generalizing fs with
  | nil => exact (List.map_eq_nil_iff.mp h.symm).symm
  | cons e es ih =>
    cases fs with
    | nil => cases h
    | cons f fs =>
      rw [List.map_cons, List.map_cons, List.cons.injEq] at h
      rw [List.forall_mem_cons] at he hf
      rw [entryText_inj he.1 hf.1 h.1, ih he.2 hf.2 h.2]

/-- An input of which every entry has its shape is a row of cells. -/
theorem exists_cells {input : List Char} (h : (segments input).all entryShape = true) :
    ∃ cells, Cells input cells := by
  suffices hsegs : ∀ segs : List (List Char), segs.all entryShape = true →
      ∃ cells : List Cell, segs = cells.map cellText ∧
        ∀ e, some e ∈ cells → ':' ∉ e.1 ∧ ':' ∉ e.2 by
    obtain ⟨cells, hcells, hcolonless⟩ := hsegs _ h
    exact ⟨cells, hcells, hcolonless⟩
  intro segs hshape
  induction segs with
  | nil => exact ⟨[], rfl, fun e he => absurd he List.not_mem_nil⟩
  | cons seg segs ih =>
    rw [List.all_cons, Bool.and_eq_true] at hshape
    obtain ⟨cells, rfl, hcolonless⟩ := ih hshape.2
    rcases Bool.or_eq_true_iff.mp hshape.1 with hempty | hone
    · refine ⟨none :: cells, by rw [eq_of_beq hempty]; rfl, fun e he => ?_⟩
      exact hcolonless e ((List.mem_cons.mp he).resolve_left (Option.some_ne_none e))
    · obtain ⟨host, port, rfl, hhost, hport⟩ := count_colon_one (eq_of_beq hone)
      refine ⟨some (host, port) :: cells, rfl, fun e he => ?_⟩
      rcases List.mem_cons.mp he with heq | he
      · cases heq
        exact ⟨hhost, hport⟩
      · exact hcolonless e he

section
variable {input : List Char} {cells : List Cell}

theorem filter_cellText (cells : List Cell) :
    (cells.map cellText).filter (· ≠ []) = cells.reduceOption.map entryText := by
  induction cells with
  | nil => rfl
  | cons cell cells ih =>
    cases cell with
    | none => exact ih
    | some e =>
      have hne : decide (cellText (some e) ≠ []) = true := decide_eq_true (entryText_ne_nil e)
      rw [List.map_cons, List.filter_cons, if_pos hne, ih]
      rfl

theorem Cells.filter (h : Cells input cells) :
    (segments input).filter (· ≠ []) = cells.reduceOption.map entryText := by
  rw [h.cut, filter_cellText]

theorem Cells.pieces (h : Cells input cells) :
    (trimBy isQuote input).splitOnP isSeparator = cells.flatMap cellPieces := by
  have hsegs := h.cut
  rw [segments] at hsegs
  rw [isSeparator_eq, splitOnP_or, ← List.splitOn_eq_splitOnP, hsegs, List.flatMap_map]
  refine List.flatMap_congr fun cell hcell => ?_
  cases cell with
  | none => rfl
  | some e => exact splitOn_colon_entry (h.colonless e hcell).1 (h.colonless e hcell).2

theorem Cells.count (h : Cells input cells) :
    (trimBy isQuote input).count ':' = cells.reduceOption.length := by
  have hsegs := h.cut
  rw [segments] at hsegs
  have hcolonless := h.colonless
  rw [← count_flatten_splitOn (a := ',') (by decide), hsegs, List.count_flatten, List.map_map]
  clear h hsegs
  induction cells with
  | nil => rfl
  | cons cell cells ih =>
    have hrest := ih fun e he => hcolonless e (List.mem_cons_of_mem cell he)
    rw [List.map_cons, List.sum_cons, hrest]
    cases cell with
    | none => exact Nat.zero_add _
    | some e =>
      obtain ⟨hhost, hport⟩ := hcolonless e List.mem_cons_self
      rw [List.reduceOption_cons_of_some, List.length_cons, Nat.add_comm]
      exact congrArg _ (count_colon_entry hhost hport)

/-- There are two strings for each colon. -/
theorem two_mul_le_pieces (cells : List Cell) :
    2 * cells.reduceOption.length ≤ (cells.flatMap cellPieces).length := by
  induction cells with
  | nil => exact Nat.zero_le _
  | cons cell cells ih =>
    rw [List.flatMap_cons, List.length_append]
    cases cell with
    | none =>
      rw [List.reduceOption_cons_of_none]
      exact Nat.le_trans ih (Nat.le_add_left _ _)
    | some e =>
      rw [List.reduceOption_cons_of_some, List.length_cons]
      have htwo : (cellPieces (some e)).length = 2 := rfl
      omega

theorem Cells.parsePermitopen_eq (h : Cells input cells)
    (hshape : (segments input).all entryShape = true) (hne : cells.reduceOption ≠ []) :
    parsePermitopen input = walk cells.reduceOption.length (cells.flatMap cellPieces) := by
  have hlen : cells.reduceOption.length ≠ 0 := fun h => hne (List.length_eq_zero_iff.mp h)
  rw [segments] at hshape
  simp only [parsePermitopen, hshape, if_true, h.count, hlen, if_false, h.pieces]

/-- What the cells of a stated input state. -/
theorem Cells.states_iff (h : Cells input cells) {list : List (String × ℕ)} :
    States input list ↔ cells.reduceOption ≠ [] ∧ (∀ e ∈ cells.reduceOption, e.1 ≠ []) ∧
      List.Forall₂ Parsed cells.reduceOption list := by
  have hcolonless : ∀ e ∈ cells.reduceOption, ':' ∉ e.1 ∧ ':' ∉ e.2 :=
    fun e he => h.colonless e (List.reduceOption_mem_iff.mp he)
  constructor
  · rintro ⟨entries, hne, hfilter, hentries, hparsed⟩
    have heq : cells.reduceOption = entries :=
      map_entryText_inj hcolonless (fun e he => (hentries e he).2) (h.filter.symm.trans hfilter)
    rw [heq]
    exact ⟨hne, fun e he => (hentries e he).1, hparsed⟩
  · rintro ⟨hne, hhosts, hparsed⟩
    exact ⟨_, hne, h.filter, fun e he => ⟨hhosts e he, hcolonless e he⟩, hparsed⟩

end

/-- A walk that reads a host with every port has met no empty entry before another one. -/
theorem emptyLast_of_walk {cells : List Cell} {list : List (String × ℕ)}
    (h : walk cells.reduceOption.length (cells.flatMap cellPieces) = some list)
    (hhosts : ∀ r ∈ list, r.1 ≠ "") : EmptyLast (cells.map cellText) := by
  induction cells generalizing list with
  | nil => exact List.prefix_rfl
  | cons cell cells ih =>
    cases cell with
    | none =>
      rw [List.reduceOption_cons_of_none] at h
      by_cases hnone : cells.reduceOption = []
      · rw [EmptyLast, filter_cellText, List.reduceOption_cons_of_none, hnone]
        exact List.nil_prefix
      · -- the empty entry is taken for a host
        obtain ⟨e, rest, hrest⟩ := List.exists_cons_of_ne_nil hnone
        rw [hrest, List.length_cons, List.flatMap_cons] at h
        simp only [cellPieces, List.cons_append, List.nil_append] at h
        cases hpieces : cells.flatMap cellPieces with
        | nil =>
          rw [hpieces] at h
          cases h
        | cons port pieces =>
          rw [hpieces, walk] at h
          cases hport : permitopenPort port with
          | none =>
            rw [hport] at h
            cases h
          | some k =>
            rw [hport] at h
            obtain ⟨list', -, rfl⟩ := Option.map_eq_some_iff.mp h
            exact absurd rfl (hhosts _ List.mem_cons_self)
    | some e =>
      rw [List.reduceOption_cons_of_some, List.length_cons, List.flatMap_cons] at h
      simp only [cellPieces, List.cons_append, List.nil_append, walk] at h
      cases hport : permitopenPort e.2 with
      | none =>
        rw [hport] at h
        cases h
      | some k =>
        rw [hport] at h
        obtain ⟨list', hlist', rfl⟩ := Option.map_eq_some_iff.mp h
        have hrest := ih hlist' fun r hr => hhosts r (List.mem_cons_of_mem _ hr)
        rw [EmptyLast, filter_cellText] at hrest
        rw [EmptyLast, filter_cellText, List.reduceOption_cons_of_some]
        exact List.cons_prefix_cons.mpr ⟨rfl, hrest⟩

/-! ### When the parse is exact -/

theorem States.shape {input : List Char} {list : List (String × ℕ)} (h : States input list) :
    (segments input).all entryShape = true := by
  obtain ⟨entries, -, hfilter, hentries, -⟩ := h
  rw [List.all_eq_true]
  intro seg hseg
  by_cases hempty : seg = []
  · rw [hempty]
    rfl
  · have hmem : seg ∈ entries.map entryText := by
      rw [← hfilter]
      exact List.mem_filter.mpr ⟨hseg, decide_eq_true hempty⟩
    obtain ⟨e, he, rfl⟩ := List.mem_map.mp hmem
    obtain ⟨-, hhost, hport⟩ := hentries e he
    rw [entryShape, entryText, count_colon_entry hhost hport]
    exact Bool.or_true _

/-- Something is parsed exactly when what stands where a port is looked for is one. -/
theorem parsePermitopen_isSome {input : List Char} :
    (parsePermitopen input).isSome ↔ ReadsAsPorts input := by
  by_cases hshape : (segments input).all entryShape = true
  · obtain ⟨cells, hcells⟩ := exists_cells hshape
    by_cases hne : cells.reduceOption = []
    · have hcount : (trimBy isQuote input).count ':' = 0 := by
        rw [hcells.count, hne, List.length_nil]
      refine iff_of_false ?_ fun h => h.colons hcount
      rw [segments] at hshape
      simp only [parsePermitopen, hshape, if_true, hcount, Option.isSome_none, Bool.false_eq_true,
        not_false_eq_true]
    · have hcount : (trimBy isQuote input).count ':' ≠ 0 := by
        rw [hcells.count]
        exact fun h => hne (List.length_eq_zero_iff.mp h)
      rw [hcells.parsePermitopen_eq hshape hne, walk_isSome (two_mul_le_pieces cells)]
      have hplaces : portPlaces input =
          (everySecond (cells.flatMap cellPieces)).take cells.reduceOption.length := by
        rw [portPlaces, hcells.pieces, hcells.count]
      rw [← hplaces]
      exact ⟨fun h => ⟨hshape, hcount, h⟩, fun h => h.ports⟩
  · refine iff_of_false ?_ fun h => hshape h.shape
    rw [segments] at hshape
    simp only [parsePermitopen, hshape, if_false, Option.isSome_none, Bool.false_eq_true,
      not_false_eq_true]

/-- An input that states a list is parsed to it when no empty entry stands before another one. -/
theorem States.parsesExactly {input : List Char} {stated : List (String × ℕ)}
    (h : States input stated) (hlast : EmptyLast (segments input)) : ParsesExactly input := by
  obtain ⟨cells, hcells⟩ := exists_cells h.shape
  obtain ⟨hne, hhosts, -⟩ := hcells.states_iff.mp h
  obtain ⟨n, hsplit⟩ := hlast.split
  rw [hcells.filter] at hsplit
  have hparse := parsePermitopen_entries hsplit
    (fun e he => hcells.colonless e (List.reduceOption_mem_iff.mp he)) hne
  intro list
  rw [hparse, mapM_readEntry, hcells.states_iff]
  exact ⟨fun hparsed => ⟨hne, hhosts, hparsed⟩, fun hstates => hstates.2.2⟩

/-- An input that states a list is parsed to it only then. -/
theorem States.emptyLast {input : List Char} {stated : List (String × ℕ)}
    (h : States input stated) (hexact : ParsesExactly input) : EmptyLast (segments input) := by
  obtain ⟨cells, hcells⟩ := exists_cells h.shape
  obtain ⟨hne, hhosts, hparsed⟩ := hcells.states_iff.mp h
  have hwalk := (hexact stated).mpr h
  rw [hcells.parsePermitopen_eq h.shape hne] at hwalk
  have hnamed : ∀ r ∈ stated, r.1 ≠ "" := by
    intro r hr hempty
    obtain ⟨e, he, hread⟩ := exists_of_forall₂ hparsed hr
    exact hhosts e he (String.ofList_eq_empty_iff.mp (hread.1.symm.trans hempty))
  rw [hcells.cut]
  exact emptyLast_of_walk hwalk hnamed

/-- The parse is exact of an input that states a list and has no empty entry before another
one, and of an input that states none and does not read as ports either. -/
theorem parsesExactly_iff (input : List Char) :
    ParsesExactly input ↔
      (∃ list, States input list) ∧ EmptyLast (segments input) ∨
        (¬∃ list, States input list) ∧ ¬ReadsAsPorts input := by
  constructor
  · intro hexact
    by_cases hstates : ∃ list, States input list
    · obtain ⟨list, hlist⟩ := hstates
      exact Or.inl ⟨⟨list, hlist⟩, hlist.emptyLast hexact⟩
    · refine Or.inr ⟨hstates, fun hreads => hstates ?_⟩
      obtain ⟨list, hlist⟩ := Option.isSome_iff_exists.mp (parsePermitopen_isSome.mpr hreads)
      exact ⟨list, (hexact list).mp hlist⟩
  · rintro (⟨⟨list, hlist⟩, hlast⟩ | ⟨hstates, hreads⟩)
    · exact hlist.parsesExactly hlast
    · intro list
      refine iff_of_false (fun h => hreads ?_) fun h => hstates ⟨list, h⟩
      exact parsePermitopen_isSome.mp (by rw [h]; rfl)

/-- An empty entry before `*:22` makes the wildcard host a wildcard port of the empty host. -/
theorem shifted_by_comma : parsePermitopen ",*:22".toList = some [("", 0)] ∧
    ¬ParsesExactly ",*:22".toList := by
  have hparse : parsePermitopen ",*:22".toList = some [("", 0)] := by decide +kernel
  refine ⟨hparse, fun hexact => ?_⟩
  obtain ⟨entries, -, -, hentries, hparsed⟩ := (hexact _).mp hparse
  obtain ⟨e, he, hhost, -⟩ := exists_of_forall₂ hparsed (List.mem_singleton_self _)
  exact (hentries e he).1 (String.ofList_eq_empty_iff.mp hhost.symm)

end NoPorts.CDaemon
