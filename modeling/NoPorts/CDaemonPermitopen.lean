import Mathlib.Data.List.TakeWhile
import NoPorts.CDaemonPolicy

/-! `--permit-open` as the C daemon reads it: `parse_permitopen` cuts the text at
its commas and colons and takes the pieces two at a time, `should_permitopen` asks
the list it leaves. -/
namespace NoPorts.CDaemon
open Lib

/-- One more than the greatest `long`. -/
def longRange : ℕ := 9223372036854775808

/-- The number a text starts with and what follows it, `none` when it starts with
none or with one out of range. -/
def strtol (s : List Char) : Option (ℤ × List Char) :=
  let text := s.dropWhile isAsciiSpace
  let negative := text.head? == some '-'
  let digits := if negative then text.drop 1 else dropPrefix ['+'] text
  let num := digits.takeWhile Char.isDigit
  let value := num.foldl (fun n c => 10 * n + (c.toNat - 48)) 0
  if num = [] ∨ (if negative then longRange < value else longRange ≤ value) then none
  else some (if negative then -(value : ℤ) else value, digits.dropWhile Char.isDigit)

def isQuote (c : Char) : Bool := c == '"' || c == '\''

def isSeparator (c : Char) : Bool := c == ',' || c == ':'

/-- The port of one entry, 0 for `*`. -/
def permitopenPort : List Char → Option ℕ
  | '*' :: rest => if rest = [] then some 0 else none
  | port =>
    match strtol port with
    | some (num, []) => if num < 1 ∨ 65535 < num then none else some num.toNat
    | _ => none

/-- The walk over the strings the separators leave: a host, then its port. -/
def walk : ℕ → List (List Char) → Option (List (String × ℕ))
  | 0, _ => some []
  | n + 1, host :: port :: rest =>
    match permitopenPort port with
    | none => none
    | some port => (walk n rest).map ((String.ofList host, port) :: ·)
  | _ + 1, _ => none

/-- An entry has its shape when it is empty or has exactly one colon. -/
def entryShape (entry : List Char) : Bool := entry == [] || entry.count ':' == 1

def parsePermitopen (input : List Char) : Option (List (String × ℕ)) :=
  let text := trimBy isQuote input
  if (text.splitOn ',').all entryShape then
    let sepCount := text.count ':'
    if sepCount = 0 then none else walk sepCount (text.splitOnP isSeparator)
  else none

/-- What the daemon opens when it is started with `input`. It does not start, and
opens nothing, with an input that cannot be parsed. -/
def permitopenOpens (input : List Char) (host : String) (port : ℕ) : Bool :=
  match parsePermitopen input with
  | none => false
  | some permitopen => shouldPermitopen permitopen host port

/-! ### What the walk reads -/

theorem isSeparator_eq : isSeparator = fun c => (c == ',') || (c == ':') := rfl

/-- An entry with exactly one colon is a host and a port. -/
theorem count_colon_one {entry : List Char} (h : entry.count ':' = 1) :
    ∃ host port, entry = host ++ ':' :: port ∧ ':' ∉ host ∧ ':' ∉ port := by
  have hmem : ':' ∈ entry := List.count_pos_iff.mp (by omega)
  obtain ⟨host, port, rfl, hhost⟩ := List.eq_append_cons_of_mem hmem
  refine ⟨host, port, rfl, hhost, fun hport => ?_⟩
  have hpos := List.count_pos_iff.mpr hport
  rw [List.count_append, List.count_cons_self] at h
  omega

theorem count_colon_entry {host port : List Char} (hh : ':' ∉ host) (hp : ':' ∉ port) :
    (host ++ ':' :: port).count ':' = 1 := by
  rw [List.count_append, List.count_cons_self, List.count_eq_zero.mpr hh,
    List.count_eq_zero.mpr hp]

theorem splitOn_colon_entry {host port : List Char} (hh : ':' ∉ host) (hp : ':' ∉ port) :
    (host ++ ':' :: port).splitOn ':' = [host, port] := by
  rw [List.splitOn_append_cons_self, List.splitOn_eq_singleton hh, List.splitOn_eq_singleton hp]
  rfl

/-- The text of a host and a port, as one entry. -/
def entryText (e : List Char × List Char) : List Char := e.1 ++ ':' :: e.2

/-- What is kept of an entry. -/
def readEntry (e : List Char × List Char) : Option (String × ℕ) :=
  (permitopenPort e.2).map fun port => (String.ofList e.1, port)

/-- Over the strings of entries that each have a host and a port, the walk reads
every port once. -/
theorem walk_entries (entries : List (List Char × List Char)) (rest : List (List Char)) :
    walk entries.length (entries.flatMap (fun e => [e.1, e.2]) ++ rest) =
      entries.mapM readEntry := by
  induction entries with
  | nil => rfl
  | cons e entries ih =>
    simp only [List.flatMap_cons, List.cons_append, List.nil_append, List.length_cons, walk,
      List.mapM_cons, ih, readEntry]
    cases permitopenPort e.2 with
    | none => rfl
    | some port =>
      cases entries.mapM readEntry with
      | none => rfl
      | some _ => rfl

/-- What is read of a text whose non-empty entries come first and have their shape. -/
theorem parsePermitopen_entries {input : List Char} {entries : List (List Char × List Char)}
    {n : ℕ} (hsplit : (trimBy isQuote input).splitOn ',' =
      entries.map entryText ++ List.replicate n [])
    (hcolon : ∀ e ∈ entries, ':' ∉ e.1 ∧ ':' ∉ e.2) (hne : entries ≠ []) :
    parsePermitopen input = entries.mapM readEntry := by
  have hshape : ((trimBy isQuote input).splitOn ',').all entryShape = true := by
    rw [hsplit, List.all_eq_true]
    intro entry hentry
    rcases List.mem_append.mp hentry with h | h
    · obtain ⟨e, he, rfl⟩ := List.mem_map.mp h
      have hone := count_colon_entry (hcolon e he).1 (hcolon e he).2
      simp only [entryShape, entryText, hone, beq_self_eq_true, Bool.or_true]
    · rw [(List.mem_replicate.mp h).2]
      rfl
  have hempty (n : ℕ) : (List.replicate n ([] : List Char)).flatMap (List.splitOnP (· == ':')) =
      List.replicate n [] := by
    induction n with
    | zero => rfl
    | succ n ih =>
      rw [List.replicate_succ, List.flatMap_cons, ih]
      rfl
  have htokens : (trimBy isQuote input).splitOnP isSeparator =
      entries.flatMap (fun e => [e.1, e.2]) ++ List.replicate n [] := by
    rw [isSeparator_eq, splitOnP_or, ← List.splitOn_eq_splitOnP, hsplit, List.flatMap_append,
      hempty, List.flatMap_map]
    congr 1
    apply List.flatMap_congr
    intro e he
    exact splitOn_colon_entry (hcolon e he).1 (hcolon e he).2
  have hcount : (trimBy isQuote input).count ':' = entries.length := by
    have hcolons : (entries.map entryText).map (List.count ':') = entries.map fun _ => 1 := by
      rw [List.map_map]
      apply List.map_congr_left
      intro e he
      exact count_colon_entry (hcolon e he).1 (hcolon e he).2
    rw [← count_flatten_splitOn (a := ',') (by decide), hsplit, List.flatten_append,
      List.count_append, List.count_flatten, hcolons]
    simp
  have hpos : entries.length ≠ 0 := fun h => hne (List.length_eq_zero_iff.mp h)
  simp only [parsePermitopen, hshape, if_true, hcount, hpos, if_false, htokens, walk_entries]

/-! ### Malformed entries -/

/-- An entry that is not empty and is no host and port, or whose port is no port. -/
def MalformedSegment (seg : List Char) : Prop :=
  seg ≠ [] ∧ ∀ host port, seg = host ++ ':' :: port → ':' ∉ host → ':' ∉ port →
    permitopenPort port = none

/-- No empty entry stands before one that is not. -/
def EmptyLast (segs : List (List Char)) : Prop := segs.filter (· ≠ []) <+: segs

theorem EmptyLast.split {segs : List (List Char)} (h : EmptyLast segs) :
    ∃ n, segs = segs.filter (· ≠ []) ++ List.replicate n [] := by
  obtain ⟨rest, hrest⟩ := h
  have hempty : rest.filter (· ≠ []) = [] := by
    have hfilter := congrArg (List.filter (· ≠ [])) hrest
    rw [List.filter_append, List.filter_filter] at hfilter
    simp only [Bool.and_self] at hfilter
    exact List.append_right_eq_self.mp hfilter
  have hrep : rest = List.replicate rest.length [] := by
    refine List.eq_replicate_iff.mpr ⟨rfl, fun seg hseg => ?_⟩
    have hnot := List.filter_eq_nil_iff.mp hempty seg hseg
    simpa only [ne_eq, decide_not, Bool.not_eq_true', decide_eq_false_iff_not, not_not] using hnot
  exact ⟨rest.length, by rw [← hrep, hrest]⟩

theorem mapM_none {α β : Type*} {f : α → Option β} {l : List α} {a : α} (ha : a ∈ l)
    (hf : f a = none) : l.mapM f = none := by
  induction l with
  | nil => exact absurd ha List.not_mem_nil
  | cons b l ih =>
    rw [List.mapM_cons]
    rcases List.mem_cons.mp ha with rfl | ha
    · rw [hf]
      rfl
    · rw [ih ha]
      cases f b with
      | none => rfl
      | some _ => rfl

/-- An input with a malformed entry and no empty one before another is refused as a
whole. -/
theorem parsePermitopen_malformed {input seg : List Char}
    (hlast : EmptyLast ((trimBy isQuote input).splitOn ','))
    (hseg : seg ∈ (trimBy isQuote input).splitOn ',') (hbad : MalformedSegment seg) :
    parsePermitopen input = none := by
  by_cases hshape : ((trimBy isQuote input).splitOn ',').all entryShape = true
  · obtain ⟨n, hn⟩ := hlast.split
    generalize hF : ((trimBy isQuote input).splitOn ',').filter (· ≠ []) = F at hn
    have hentries : ∀ f ∈ F, ∃ e : List Char × List Char,
        f = entryText e ∧ ':' ∉ e.1 ∧ ':' ∉ e.2 := by
      intro f hf
      rw [← hF, List.mem_filter] at hf
      have hfshape := List.all_eq_true.mp hshape f hf.1
      have hne : f ≠ [] := of_decide_eq_true hf.2
      have hone : f.count ':' = 1 := by
        simpa only [entryShape, Bool.or_eq_true, beq_iff_eq, hne, false_or] using hfshape
      obtain ⟨host, port, rfl, hh, hp⟩ := count_colon_one hone
      exact ⟨(host, port), rfl, hh, hp⟩
    obtain ⟨entries, rfl, hcolon⟩ : ∃ entries : List (List Char × List Char),
        F = entries.map entryText ∧ ∀ e ∈ entries, ':' ∉ e.1 ∧ ':' ∉ e.2 := by
      clear hF hn
      induction F with
      | nil => exact ⟨[], rfl, fun e he => absurd he List.not_mem_nil⟩
      | cons f F ih =>
        obtain ⟨e, rfl, he⟩ := hentries f List.mem_cons_self
        obtain ⟨entries, rfl, hcolon⟩ := ih fun f hf => hentries f (List.mem_cons_of_mem _ hf)
        exact ⟨e :: entries, rfl, List.forall_mem_cons.mpr ⟨he, hcolon⟩⟩
    have hmem : seg ∈ entries.map entryText := by
      rw [← hF, List.mem_filter]
      exact ⟨hseg, decide_eq_true hbad.1⟩
    obtain ⟨e, he, rfl⟩ := List.mem_map.mp hmem
    have hread : readEntry e = none := by
      rw [readEntry, hbad.2 e.1 e.2 rfl (hcolon e he).1 (hcolon e he).2]
      rfl
    rw [parsePermitopen_entries hn hcolon (List.ne_nil_of_mem he)]
    exact mapM_none he hread
  · simp only [parsePermitopen, hshape, if_false, Bool.false_eq_true]

/-- The entries of an input as `parse_permitopen` sees them when it is alone. -/
def entriesOf (entry : String) : List (List Char) := (trimBy isQuote entry.toList).splitOn ','

/-- Entries the daemon considers malformed. -/
def MalformedEntry (entry : String) : Prop := ∃ seg ∈ entriesOf entry, MalformedSegment seg

/-- A number that runs to the end of a text leaves no quotation mark in it. -/
theorem strtol_no_quote {s : List Char} {num : ℤ} (h : strtol s = some (num, [])) {c : Char}
    (hc : c ∈ s) : isQuote c = false := by
  by_contra hquote
  have hquote : c = '"' ∨ c = '\'' := by
    simpa only [isQuote, Bool.not_eq_false, Bool.or_eq_true, beq_iff_eq] using hquote
  have hspace : isAsciiSpace c = false := by rcases hquote with rfl | rfl <;> decide
  have hdigit : c.isDigit = false := by rcases hquote with rfl | rfl <;> decide
  have hminus : c ≠ '-' := by rcases hquote with rfl | rfl <;> decide
  have hplus : c ≠ '+' := by rcases hquote with rfl | rfl <;> decide
  have htext : c ∈ s.dropWhile isAsciiSpace := mem_dropWhile hc hspace
  simp only [strtol] at h
  generalize s.dropWhile isAsciiSpace = text at h htext
  generalize hdigits : (if (text.head? == some '-') = true then text.drop 1
    else dropPrefix ['+'] text) = digits at h
  have hmem : c ∈ digits := by
    rw [← hdigits]
    split
    · rename_i hneg
      cases text with
      | nil => exact absurd htext List.not_mem_nil
      | cons d ds =>
        have hd : d = '-' := by simpa using hneg
        rcases List.mem_cons.mp htext with rfl | hds
        · exact absurd hd hminus
        · exact hds
    · exact mem_dropPrefix_one htext hplus
  obtain ⟨-, hsome⟩ := Option.ite_none_left_eq_some.mp h
  have hrest : digits.dropWhile Char.isDigit = [] := congrArg Prod.snd (Option.some.inj hsome)
  have hleft := mem_dropWhile (p := Char.isDigit) hmem hdigit
  rw [hrest] at hleft
  exact absurd hleft List.not_mem_nil

theorem permitopenPort_quoted {port r : List Char} (hr : ∀ c ∈ r, isQuote c = true)
    (h : permitopenPort port = none) : permitopenPort (port ++ r) = none := by
  cases r with
  | nil => rwa [List.append_nil]
  | cons q r =>
    have hq : isQuote q = true := hr q List.mem_cons_self
    have hqmem : q ∈ port ++ q :: r := List.mem_append_right _ List.mem_cons_self
    generalize hs : port ++ q :: r = s at hqmem
    unfold permitopenPort
    split
    · rename_i rest
      refine if_neg fun hrest => ?_
      rw [hrest, List.mem_singleton] at hqmem
      rw [hqmem] at hq
      cases hq
    · split
      · rename_i hnum
        rw [strtol_no_quote hnum hqmem] at hq
        cases hq
      · rfl

/-- Quotation marks around a malformed entry do not mend it. -/
theorem MalformedSegment.quoted {l seg r : List Char} (h : MalformedSegment seg)
    (hl : ∀ c ∈ l, isQuote c = true) (hr : ∀ c ∈ r, isQuote c = true) :
    MalformedSegment (l ++ seg ++ r) := by
  have hcolon {q : List Char} (hq : ∀ c ∈ q, isQuote c = true) : ':' ∉ q := by
    intro hmem
    have := hq ':' hmem
    cases this
  refine ⟨by simp only [ne_eq, List.append_eq_nil_iff, h.1, and_false, false_and,
    not_false_eq_true], fun host port heq hhost hport => ?_⟩
  have hmem : ':' ∈ seg := by
    have hall : ':' ∈ l ++ seg ++ r := by
      rw [heq]
      exact List.mem_append_right _ List.mem_cons_self
    rcases List.mem_append.mp hall with hls | hmem
    · exact (List.mem_append.mp hls).resolve_left (hcolon hl)
    · exact absurd hmem (hcolon hr)
  obtain ⟨h', p', rfl, hh'⟩ := List.eq_append_cons_of_mem hmem
  have hcut : (l ++ h') ++ ':' :: (p' ++ r) = host ++ ':' :: port := by
    rw [← heq]
    simp only [List.append_assoc, List.cons_append]
  have hlh : ':' ∉ l ++ h' := by
    rw [List.mem_append]
    exact fun hor => hor.elim (hcolon hl) hh'
  -- the first colon is the same in both readings
  have hsplit := congrArg (List.takeWhile (· ≠ ':')) hcut
  have htake {x y : List Char} (hx : ':' ∉ x) : (x ++ ':' :: y).takeWhile (· ≠ ':') = x := by
    have hall : ∀ c ∈ x, decide (c ≠ ':') = true := by
      intro c hc
      refine decide_eq_true fun hcc => hx ?_
      rwa [hcc] at hc
    rw [List.takeWhile_append_of_pos hall]
    simp
  rw [htake hlh, htake hhost] at hsplit
  rw [hsplit] at hcut
  have hpp : p' ++ r = port := List.tail_eq_of_cons_eq (List.append_cancel_left hcut)
  have hp' : ':' ∉ p' := fun hc => hport (by rw [← hpp]; exact List.mem_append_left _ hc)
  rw [← hpp]
  exact permitopenPort_quoted hr (h.2 h' p' rfl hh' hp')

/-- The text the daemon is started with for a list of entries. -/
def joined (entries : List String) : List Char := [','].intercalate (entries.map String.toList)

theorem joined_insert (pre post : List String) (e : String) : ∃ a b,
    joined (pre ++ e :: post) = a ++ e.toList ++ b ∧ (a = [] ∨ ∃ a', a = a' ++ [',']) ∧
      (b = [] ∨ ∃ b', b = ',' :: b') := by
  have hpost : ∃ b, joined (e :: post) = e.toList ++ b ∧ (b = [] ∨ ∃ b', b = ',' :: b') := by
    cases post with
    | nil => exact ⟨[], by simp [joined], Or.inl rfl⟩
    | cons f post => exact ⟨',' :: joined (f :: post), by simp [joined], Or.inr ⟨_, rfl⟩⟩
  obtain ⟨b, hb, hb'⟩ := hpost
  induction pre with
  | nil => exact ⟨[], b, hb, Or.inl rfl, hb'⟩
  | cons p pre ih =>
    obtain ⟨a, b, hab, ha, hb'⟩ := ih
    have hne : (pre ++ e :: post).map String.toList ≠ [] := by simp
    refine ⟨p.toList ++ ',' :: a, b, ?_, Or.inr ?_, hb'⟩
    · rw [joined, List.cons_append, List.map_cons, List.intercalate_cons_of_ne_nil hne]
      rw [joined] at hab
      rw [hab]
      simp
    · rcases ha with rfl | ⟨a', rfl⟩
      · exact ⟨p.toList, rfl⟩
      · exact ⟨p.toList ++ ',' :: a', by simp⟩

/-- An entry that is malformed by itself is so in every list it is put in. -/
theorem MalformedEntry.in_list {e : String} (h : MalformedEntry e) (pre post : List String) :
    ∃ seg ∈ (trimBy isQuote (joined (pre ++ e :: post))).splitOn ',', MalformedSegment seg := by
  obtain ⟨seg, hseg, hbad⟩ := h
  obtain ⟨b₁, b₂, hbody, hb₁, hb₂, hcomma⟩ := mem_splitOn_iff.mp hseg
  obtain ⟨q₁, q₂, he, hq₁, hq₂, hends⟩ := trimBy_spec isQuote e.toList
  obtain ⟨a, b, hjoin, ha, hb⟩ := joined_insert pre post e
  have hne : trimBy isQuote e.toList ≠ [] := by
    intro hnil
    rw [hbody, List.append_eq_nil_iff, List.append_eq_nil_iff] at hnil
    exact hbad.1 hnil.1.2
  have hquote : isQuote ',' = false := rfl
  -- what stands before the entry ends in a comma or is trimmed off
  have hleft : (a ++ q₁).dropWhile isQuote = [] ∨
      ∃ a', (a ++ q₁).dropWhile isQuote = a' ++ ',' :: q₁ := by
    rcases ha with rfl | ⟨a', rfl⟩
    · exact Or.inl (List.dropWhile_eq_nil_iff.mpr hq₁)
    · refine Or.inr ⟨a'.dropWhile isQuote, ?_⟩
      rw [List.append_assoc]
      exact dropWhile_append_of_head ⟨',', rfl, hquote⟩
  have hright : ((q₂ ++ b).reverse.dropWhile isQuote).reverse = [] ∨
      ∃ b', ((q₂ ++ b).reverse.dropWhile isQuote).reverse = q₂ ++ ',' :: b' := by
    rcases hb with rfl | ⟨b', rfl⟩
    · left
      rw [List.append_nil, List.reverse_eq_nil_iff, List.dropWhile_eq_nil_iff]
      exact fun c hc => hq₂ c (List.mem_reverse.mp hc)
    · refine Or.inr ⟨(b'.reverse.dropWhile isQuote).reverse, ?_⟩
      have hrev : (q₂ ++ ',' :: b').reverse = b'.reverse ++ ',' :: q₂.reverse := by simp
      rw [hrev, dropWhile_append_of_head ⟨',', rfl, hquote⟩]
      simp
  have htrim : trimBy isQuote (joined (pre ++ e :: post)) =
      (a ++ q₁).dropWhile isQuote ++ (b₁ ++ seg ++ b₂) ++
        ((q₂ ++ b).reverse.dropWhile isQuote).reverse := by
    rw [hjoin, he, ← hbody]
    have hassoc (t : List Char) : a ++ (q₁ ++ t ++ q₂) ++ b = (a ++ q₁) ++ t ++ (q₂ ++ b) := by
      simp only [List.append_assoc]
    rw [hassoc]
    exact trimBy_append (hends hne).1 (hends hne).2
  generalize (a ++ q₁).dropWhile isQuote = x at hleft htrim
  generalize ((q₂ ++ b).reverse.dropWhile isQuote).reverse = y at hright htrim
  obtain ⟨l, l', hl, hl', hlq⟩ : ∃ l l', x ++ b₁ = l ++ l' ∧ (l = [] ∨ ∃ c, l = c ++ [',']) ∧
      ∀ c ∈ l', isQuote c = true := by
    rcases hb₁ with rfl | ⟨b', rfl⟩
    · rcases hleft with rfl | ⟨a', rfl⟩
      · exact ⟨[], [], rfl, Or.inl rfl, fun c hc => absurd hc List.not_mem_nil⟩
      · exact ⟨a' ++ [','], q₁, by simp, Or.inr ⟨a', rfl⟩, hq₁⟩
    · exact ⟨x ++ (b' ++ [',']), [], by simp, Or.inr ⟨x ++ b', by simp⟩,
        fun c hc => absurd hc List.not_mem_nil⟩
  obtain ⟨r', r, hr, hr', hrq⟩ : ∃ r' r, b₂ ++ y = r' ++ r ∧ (r = [] ∨ ∃ c, r = ',' :: c) ∧
      ∀ c ∈ r', isQuote c = true := by
    rcases hb₂ with rfl | ⟨b', rfl⟩
    · rcases hright with rfl | ⟨b'', rfl⟩
      · exact ⟨[], [], rfl, Or.inl rfl, fun c hc => absurd hc List.not_mem_nil⟩
      · exact ⟨q₂, ',' :: b'', rfl, Or.inr ⟨b'', rfl⟩, hq₂⟩
    · exact ⟨[], ',' :: b' ++ y, rfl, Or.inr ⟨b' ++ y, rfl⟩,
        fun c hc => absurd hc List.not_mem_nil⟩
  have hnot {q : List Char} (hq : ∀ c ∈ q, isQuote c = true) : ',' ∉ q := by
    intro hmem
    have hcq := hq ',' hmem
    rw [hquote] at hcq
    cases hcq
  refine ⟨l' ++ seg ++ r', mem_splitOn_iff.mpr ⟨l, r, ?_, hl', hr', ?_⟩, hbad.quoted hlq hrq⟩
  · calc trimBy isQuote (joined (pre ++ e :: post))
        = (x ++ b₁) ++ seg ++ (b₂ ++ y) := by rw [htrim]; simp only [List.append_assoc]
      _ = l ++ (l' ++ seg ++ r') ++ r := by rw [hl, hr]; simp only [List.append_assoc]
  · rw [List.mem_append, List.mem_append]
    rintro ((h | h) | h)
    · exact hnot hlq h
    · exact hcomma h
    · exact hnot hrq h

end NoPorts.CDaemon
