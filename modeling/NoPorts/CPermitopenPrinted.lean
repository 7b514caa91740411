import Mathlib.Algebra.Order.Group.Nat
import NoPorts.CPermitopenExact
import NoPorts.PermitOpenAgreement

/-! Texts that say a permit-open list: how they are parsed, and how short they can be. -/
namespace NoPorts.CDaemon
open Lib

/-- A list of entries as one text. -/
def commaJoined (entries : List (List Char)) : List Char := [','].intercalate entries

/-- Entries as they are printed: no separators but the colons, no mark that would be trimmed. -/
structure Printable (entries : List (List Char × List Char)) : Prop where
  some_entry : entries ≠ []
  host : ∀ e ∈ entries, ',' ∉ e.1 ∧ ':' ∉ e.1
  port : ∀ e ∈ entries, e.2 ≠ [] ∧ ∀ c ∈ e.2, isSeparator c = false ∧ isQuote c = false
  unquoted : ∀ e ∈ entries.head?, ∀ c ∈ e.1.head?, isQuote c = false

/-- The shortest text of a port. -/
def starPort (port : ℕ) : List Char := if port = 0 then ['*'] else (toString port).toList

/-- The entries of a list as they are printed, with the wildcard port as it is parsed. -/
def starEntries (permitopen : List (String × ℕ)) : List (List Char × List Char) :=
  permitopen.map fun e => (e.1.toList, starPort e.2)

/-- What a text of entries takes, with a comma behind each. -/
def weight : List (List Char) → ℕ
  | [] => 0
  | e :: entries => e.length + 1 + weight entries

theorem not_isSeparator {c : Char} : isSeparator c = false ↔ c ≠ ',' ∧ c ≠ ':' := by
  rw [isSeparator, Bool.or_eq_false_iff, beq_eq_false_iff_ne, beq_eq_false_iff_ne]

theorem weight_commaJoined {entries : List (List Char)} (h : entries ≠ []) :
    (commaJoined entries).length + 1 = weight entries := by
  induction entries with
  | nil => exact absurd rfl h
  | cons e entries ih =>
    cases entries with
    | nil => simp [commaJoined, weight]
    | cons f entries =>
      have hrest := ih (List.cons_ne_nil f entries)
      rw [commaJoined, List.intercalate_cons_of_ne_nil (List.cons_ne_nil f entries)]
      rw [commaJoined] at hrest
      rw [weight, ← hrest]
      simp only [List.length_append, List.length_cons, List.length_nil]
      omega

/-! ### Printed lists are parsed -/

/-- What is printed begins with the first host and ends with the last port. -/
theorem Printable.ends {entries : List (List Char × List Char)} (h : Printable entries) :
    (∃ c ∈ (commaJoined (entries.map entryText)).head?, isQuote c = false) ∧
      ∃ c ∈ (commaJoined (entries.map entryText)).getLast?, isQuote c = false := by
  have hfirst (e : List Char × List Char) (es : List (List Char × List Char)) :
      ∃ rest, commaJoined ((e :: es).map entryText) = e.1 ++ ':' :: rest := by
    cases es with
    | nil => exact ⟨e.2, by simp [commaJoined, entryText]⟩
    | cons f es =>
      refine ⟨e.2 ++ ',' :: commaJoined ((f :: es).map entryText), ?_⟩
      rw [commaJoined, List.map_cons, List.intercalate_cons_of_ne_nil (by simp), entryText]
      simp [commaJoined]
  have hlast (e : List Char × List Char) (es : List (List Char × List Char))
      (hport : ∀ e' ∈ e :: es, e'.2 ≠ [] ∧ ∀ c ∈ e'.2, isSeparator c = false ∧ isQuote c = false) :
      ∃ c ∈ (commaJoined ((e :: es).map entryText)).getLast?, isQuote c = false := by
    induction es generalizing e with
    | nil =>
      obtain ⟨hne, hchars⟩ := hport e List.mem_cons_self
      have hget := List.getLast?_eq_some_getLast hne
      refine ⟨e.2.getLast hne, ?_, (hchars _ (List.getLast_mem hne)).2⟩
      have hone : commaJoined ([e].map entryText) = e.1 ++ ':' :: e.2 := by
        simp [commaJoined, entryText]
      rw [hone, List.getLast?_append, List.getLast?_cons, hget]
      rfl
    | cons f es ih =>
      obtain ⟨c, hc, hquote⟩ := ih f fun e' he' => hport e' (List.mem_cons_of_mem e he')
      refine ⟨c, ?_, hquote⟩
      have hcons : commaJoined ((e :: f :: es).map entryText) =
          entryText e ++ ',' :: commaJoined ((f :: es).map entryText) := by
        rw [commaJoined, List.map_cons, List.intercalate_cons_of_ne_nil (by simp)]
        simp [commaJoined]
      rw [hcons, List.getLast?_append, List.getLast?_cons, Option.mem_def.mp hc]
      rfl
  cases entries with
  | nil => exact absurd rfl h.some_entry
  | cons e es =>
    refine ⟨?_, hlast e es h.port⟩
    obtain ⟨rest, hrest⟩ := hfirst e es
    rw [hrest]
    cases hhost : e.1 with
    | nil => exact ⟨':', rfl, rfl⟩
    | cons c cs => exact ⟨c, rfl, h.unquoted e rfl c (by rw [hhost]; rfl)⟩

theorem parsePermitopen_printed {entries : List (List Char × List Char)} (h : Printable entries) :
    parsePermitopen (commaJoined (entries.map entryText)) = entries.mapM readEntry := by
  obtain ⟨hhead, hlast⟩ := h.ends
  have htrim : trimBy isQuote (commaJoined (entries.map entryText)) =
      commaJoined (entries.map entryText) := by
    have happend := trimBy_append (l := []) (r := []) hhead hlast
    simpa using happend
  refine parsePermitopen_entries (n := 0) ?_ (fun e he => ⟨(h.host e he).2, fun hmem => ?_⟩)
    h.some_entry
  · have hcomma : ∀ t ∈ entries.map entryText, ',' ∉ t := by
      intro t ht hmem
      obtain ⟨e, he, rfl⟩ := List.mem_map.mp ht
      rcases List.mem_append.mp hmem with hhost | hrest
      · exact (h.host e he).1 hhost
      · rcases List.mem_cons.mp hrest with hcolon | hport
        · exact absurd hcolon (by decide)
        · exact absurd (((h.port e he).2 ',' hport).1) (by decide)
    rw [htrim, commaJoined, List.splitOn_intercalate ',' hcomma (by simpa using h.some_entry),
      List.replicate_zero, List.append_nil]
  · exact absurd (((h.port e he).2 ':' hmem).1) (by decide)

/-! ### What a parsed text holds -/

/-- A walk that goes through reads hosts and ports off the front of its strings. -/
theorem walk_eq_some {n : ℕ} {pieces : List (List Char)} {list : List (String × ℕ)}
    (h : walk n pieces = some list) : ∃ pairs rest,
      pieces = pairs.flatMap (fun e => [e.1, e.2]) ++ rest ∧ pairs.length = n ∧
        List.Forall₂ Parsed pairs list := by
  induction n generalizing pieces list with
  | zero =>
    rw [walk, Option.some.injEq] at h
    exact ⟨[], pieces, rfl, rfl, h ▸ List.Forall₂.nil⟩
  | succ n ih =>
    rcases pieces with _ | ⟨host, _ | ⟨port, pieces⟩⟩
    · cases h
    · cases h
    · rw [walk] at h
      cases hport : permitopenPort port with
      | none =>
        rw [hport] at h
        cases h
      | some k =>
        rw [hport] at h
        obtain ⟨list', hlist, rfl⟩ := Option.map_eq_some_iff.mp h
        obtain ⟨pairs, rest, rfl, hlen, hparsed⟩ := ih hlist
        refine ⟨(host, port) :: pairs, rest, rfl, by rw [List.length_cons, hlen], ?_⟩
        exact .cons ⟨rfl, permitopenPort_eq_some.mp hport⟩ hparsed

theorem weight_splitOnP (p : Char → Bool) (s : List Char) :
    weight (s.splitOnP p) = s.length + 1 := by
  induction s with
  | nil => rfl
  | cons c cs ih =>
    obtain ⟨hd, tl, hcs⟩ := List.exists_cons_of_ne_nil (List.splitOnP_ne_nil p cs)
    rw [hcs, weight] at ih
    rw [List.splitOnP_cons_eq_if_modifyHead, hcs]
    split
    · rw [weight, weight, ih, List.length_cons, List.length_nil]
      omega
    · rw [List.modifyHead_cons, weight, List.length_cons, List.length_cons]
      omega

theorem not_mem_splitOnP {p : Char → Bool} {s piece : List Char} (h : piece ∈ s.splitOnP p) :
    (∀ c ∈ piece, p c = false) ∧ ∀ c ∈ piece, c ∈ s := by
  induction s generalizing piece with
  | nil =>
    obtain rfl := List.mem_singleton.mp h
    exact ⟨fun c hc => absurd hc List.not_mem_nil, fun c hc => absurd hc List.not_mem_nil⟩
  | cons c cs ih =>
    obtain ⟨hd, tl, hcs⟩ := List.exists_cons_of_ne_nil (List.splitOnP_ne_nil p cs)
    rw [List.splitOnP_cons_eq_if_modifyHead, hcs] at h
    rw [hcs] at ih
    split at h
    · rcases List.mem_cons.mp h with rfl | h
      · exact ⟨fun c hc => absurd hc List.not_mem_nil, fun c hc => absurd hc List.not_mem_nil⟩
      · obtain ⟨hsep, hmem⟩ := ih h
        exact ⟨hsep, fun x hx => List.mem_cons_of_mem c (hmem x hx)⟩
    · rename_i hc
      rcases List.mem_cons.mp h with rfl | h
      · obtain ⟨hsep, hmem⟩ := ih List.mem_cons_self
        refine ⟨fun x hx => ?_, fun x hx => ?_⟩ <;> rcases List.mem_cons.mp hx with rfl | hx
        · exact Bool.eq_false_iff.mpr hc
        · exact hsep x hx
        · exact List.mem_cons_self
        · exact List.mem_cons_of_mem c (hmem x hx)
      · obtain ⟨hsep, hmem⟩ := ih (List.mem_cons_of_mem hd h)
        exact ⟨hsep, fun x hx => List.mem_cons_of_mem c (hmem x hx)⟩

/-- A first piece that is not empty begins where the string does. -/
theorem head_of_splitOnP {p : Char → Bool} {s hd : List Char} {tl : List (List Char)}
    (h : s.splitOnP p = hd :: tl) : ∀ c ∈ hd.head?, c ∈ s.head? := by
  intro c hc
  cases s with
  | nil =>
    obtain ⟨rfl, -⟩ := List.cons.inj h
    cases hc
  | cons a cs =>
    obtain ⟨hd', tl', hcs⟩ := List.exists_cons_of_ne_nil (List.splitOnP_ne_nil p cs)
    rw [List.splitOnP_cons_eq_if_modifyHead, hcs] at h
    split at h
    · obtain ⟨rfl, -⟩ := List.cons.inj h
      cases hc
    · obtain ⟨rfl, -⟩ := List.cons.inj h
      exact hc

/-! ### The shortest text of a port -/

theorem foldl_digits_lt {digits : List Char} (h : ∀ c ∈ digits, c.isDigit = true) (n : ℕ) :
    digits.foldl (fun n c => 10 * n + (c.toNat - 48)) n < (n + 1) * 10 ^ digits.length := by
  induction digits generalizing n with
  | nil => simp
  | cons c cs ih =>
    have hc : c.toNat ≤ 57 := (Char.isDigit_iff_toNat.mp (h c List.mem_cons_self)).2
    have hrest := ih (fun d hd => h d (List.mem_cons_of_mem c hd)) (10 * n + (c.toNat - 48))
    calc (c :: cs).foldl (fun n c => 10 * n + (c.toNat - 48)) n
        < (10 * n + (c.toNat - 48) + 1) * 10 ^ cs.length := hrest
      _ ≤ (n + 1) * 10 * 10 ^ cs.length := Nat.mul_le_mul_right _ (by omega)
      _ = (n + 1) * 10 ^ (c :: cs).length := by rw [List.length_cons, Nat.pow_succ', Nat.mul_assoc]

theorem dropPrefix_length_le (pre s : List Char) : (dropPrefix pre s).length ≤ s.length := by
  rw [dropPrefix]
  cases h : stripPrefix? pre s with
  | none => exact le_refl _
  | some r =>
    rw [stripPrefix?_eq_some.mp h, List.length_append, Option.getD_some]
    omega

/-- A text that `strtol` reads as a positive number is no shorter than that number. -/
theorem strtol_length {port : List Char} {num : ℤ} (h : strtol port = some (num, []))
    (hpos : 1 ≤ num) : (toString num.toNat).toList.length ≤ port.length := by
  simp only [strtol] at h
  have htext : (port.dropWhile isAsciiSpace).length ≤ port.length := (List.dropWhile_sublist _).length_le
  generalize port.dropWhile isAsciiSpace = text at h htext
  generalize hneg : (text.head? == some '-') = negative at h
  obtain ⟨hcond, hsome⟩ := Option.ite_none_left_eq_some.mp h
  have hnum := congrArg Prod.fst (Option.some.inj hsome)
  cases negative with
  | true =>
    simp only [if_true] at hnum
    omega
  | false =>
    simp only [Bool.false_eq_true, if_false] at hnum hcond
    generalize hdigits : dropPrefix ['+'] text = digits at hnum hcond
    have hlen : (digits.takeWhile Char.isDigit).length ≤ port.length := by
      have htake := (List.takeWhile_sublist (l := digits) Char.isDigit).length_le
      have hdrop := dropPrefix_length_le ['+'] text
      rw [hdigits] at hdrop
      omega
    have hall : ∀ c ∈ digits.takeWhile Char.isDigit, c.isDigit = true :=
      List.all_eq_true.mp List.all_takeWhile
    generalize digits.takeWhile Char.isDigit = ds at hnum hcond hlen hall
    have hlt := foldl_digits_lt hall 0
    generalize ds.foldl (fun n c => 10 * n + (c.toNat - 48)) 0 = value at hnum hcond hlt
    have hvalue : num.toNat = value := by
      rw [← hnum]
      exact Int.toNat_natCast value
    have hne : 0 < ds.length := List.length_pos_of_ne_nil fun hnil => hcond (Or.inl hnil)
    have hshort : (toString value).toList.length ≤ ds.length := by
      rw [toString_toList, Nat.length_toDigits_le_iff (by decide) hne]
      simpa using hlt
    rw [hvalue]
    exact le_trans hshort hlen

theorem IsPort.starPort_length {port : List Char} {n : ℕ} (h : IsPort port n) :
    (starPort n).length ≤ port.length := by
  rcases h with ⟨rfl, rfl⟩ | ⟨num, hnum, hlow, -, rfl⟩
  · exact le_refl _
  · rw [starPort, if_neg (by omega)]
    exact strtol_length hnum hlow

theorem IsPort.le {port : List Char} {n : ℕ} (h : IsPort port n) : n ≤ 65535 := by
  rcases h with ⟨-, rfl⟩ | ⟨num, -, -, hhigh, rfl⟩
  · exact Nat.zero_le _
  · omega

/-! ### Parsed lists -/

/-- A list that a text without a null was parsed to. -/
structure IsParsed (permitopen : List (String × ℕ)) : Prop where
  some_entry : permitopen ≠ []
  host : ∀ e ∈ permitopen, ∀ c ∈ e.1.toList, isSeparator c = false ∧ c ≠ '\x00'
  port : ∀ e ∈ permitopen, e.2 ≤ 65535
  unquoted : ∀ e ∈ permitopen.head?, ∀ c ∈ e.1.toList.head?, isQuote c = false

theorem weight_append (xs ys : List (List Char)) : weight (xs ++ ys) = weight xs + weight ys := by
  induction xs with
  | nil => rw [List.nil_append, weight, Nat.zero_add]
  | cons x xs ih => rw [List.cons_append, weight, weight, ih, ← Nat.add_assoc]

/-- Shorter entries, one at least, take less. -/
theorem weight_map_lt {α : Type*} {f g : α → List Char} {l : List α}
    (hle : ∀ a ∈ l, (f a).length ≤ (g a).length) (hlt : ∃ a ∈ l, (f a).length < (g a).length) :
    weight (l.map f) < weight (l.map g) := by
  have hmono (l : List α) (hle : ∀ a ∈ l, (f a).length ≤ (g a).length) :
      weight (l.map f) ≤ weight (l.map g) := by
    induction l with
    | nil => exact le_refl _
    | cons a l ih =>
      have hhead := hle a List.mem_cons_self
      have htail := ih fun b hb => hle b (List.mem_cons_of_mem a hb)
      rw [List.map_cons, List.map_cons, weight, weight]
      omega
  induction l with
  | nil =>
    obtain ⟨a, ha, -⟩ := hlt
    exact absurd ha List.not_mem_nil
  | cons a l ih =>
    have hhead := hle a List.mem_cons_self
    have htail := hmono l fun b hb => hle b (List.mem_cons_of_mem a hb)
    rw [List.map_cons, List.map_cons, weight, weight]
    obtain ⟨b, hb, hshort⟩ := hlt
    rcases List.mem_cons.mp hb with rfl | hb
    · omega
    · have hrest := ih (fun b hb => hle b (List.mem_cons_of_mem a hb)) ⟨b, hb, hshort⟩
      omega

/-- Hosts and ports read are no shorter than they are printed. -/
theorem weight_starEntries {pairs : List (List Char × List Char)} {list : List (String × ℕ)}
    (h : List.Forall₂ Parsed pairs list) :
    weight ((starEntries list).map entryText) ≤ weight (pairs.flatMap fun e => [e.1, e.2]) := by
  induction h with
  | nil => exact le_refl _
  | @cons e r pairs list hparsed _ ih =>
    have hport := hparsed.2.starPort_length
    have hhost : r.1.toList = e.1 := by rw [hparsed.1, String.toList_ofList]
    have hhead : weight ((starEntries (r :: list)).map entryText) =
        (e.1.length + 1 + (starPort r.2).length + 1) + weight ((starEntries list).map entryText) := by
      simp only [starEntries, weight, List.map_cons, entryText, hhost, List.length_append,
        List.length_cons]
      omega
    have htail : weight ((e :: pairs).flatMap fun e => [e.1, e.2]) =
        (e.1.length + 1 + (e.2.length + 1)) + weight (pairs.flatMap fun e => [e.1, e.2]) := by
      rw [List.flatMap_cons, weight_append]
      simp only [weight]
    rw [hhead, htail]
    omega

theorem parsePermitopen_walk {input : List Char} {permitopen : List (String × ℕ)}
    (h : parsePermitopen input = some permitopen) :
    walk ((trimBy isQuote input).count ':') ((trimBy isQuote input).splitOnP isSeparator) =
      some permitopen ∧ (trimBy isQuote input).count ':' ≠ 0 := by
  simp only [parsePermitopen] at h
  split at h
  · split at h
    · cases h
    · rename_i hcount
      exact ⟨h, hcount⟩
  · cases h

/-- No text that is parsed to a list is shorter than the list is printed. -/
theorem weight_of_parse {input : List Char} {permitopen : List (String × ℕ)}
    (h : parsePermitopen input = some permitopen) :
    weight ((starEntries permitopen).map entryText) ≤ input.length + 1 := by
  obtain ⟨pairs, rest, hpieces, -, hparsed⟩ := walk_eq_some (parsePermitopen_walk h).1
  obtain ⟨l, r, hinput, -⟩ := trimBy_spec isQuote input
  have hweight := weight_splitOnP isSeparator (trimBy isQuote input)
  rw [hpieces, weight_append] at hweight
  have hlen := congrArg List.length hinput
  rw [List.length_append, List.length_append] at hlen
  have hstar := weight_starEntries hparsed
  omega

theorem isParsed {input : List Char} {permitopen : List (String × ℕ)} (hnul : '\x00' ∉ input)
    (h : parsePermitopen input = some permitopen) : IsParsed permitopen := by
  obtain ⟨hwalk, hcount⟩ := parsePermitopen_walk h
  obtain ⟨pairs, rest, hpieces, hlen, hparsed⟩ := walk_eq_some hwalk
  obtain ⟨l, r, hinput, -, -, hends⟩ := trimBy_spec isQuote input
  have hmem (e : String × ℕ) (he : e ∈ permitopen) :
      e.1.toList ∈ (trimBy isQuote input).splitOnP isSeparator := by
    obtain ⟨pair, hpair, hread⟩ := exists_of_forall₂ hparsed he
    rw [hread.1, String.toList_ofList, hpieces]
    exact List.mem_append_left _ (List.mem_flatMap.mpr ⟨pair, hpair, List.mem_cons_self⟩)
  refine ⟨?_, fun e he c hc => ?_, fun e he => ?_, ?_⟩
  · rintro rfl
    obtain rfl := List.forall₂_nil_right_iff.mp hparsed
    exact hcount hlen.symm
  · obtain ⟨hsep, hfrom⟩ := not_mem_splitOnP (hmem e he)
    refine ⟨hsep c hc, ?_⟩
    rintro rfl
    refine hnul ?_
    rw [hinput]
    exact List.mem_append_left _ (List.mem_append_right _ (hfrom _ hc))
  · obtain ⟨pair, -, hread⟩ := exists_of_forall₂ hparsed he
    exact hread.2.le
  · intro e he c hc
    cases hparsed with
    | nil => cases he
    | @cons pair _ pairs list hread _ =>
      obtain rfl := Option.some.inj he
      rw [hread.1, String.toList_ofList] at hc
      have hfirst := head_of_splitOnP (by rw [hpieces]; rfl) c hc
      have htrimmed : trimBy isQuote input ≠ [] := by
        intro hnil
        rw [hnil] at hfirst
        cases hfirst
      obtain ⟨d, hd, hquote⟩ := (hends htrimmed).1
      rwa [Option.mem_unique hfirst hd]

end NoPorts.CDaemon
