import NoPorts.CPermitopenAdvertised
import NoPorts.Lib.CAppend

/-! The lists that tell a client what is permitted, each in a buffer of a fixed size. A character of a text is a byte of
a C string. -/
namespace NoPorts.CDaemon.FormatList
open Lib
open Lib.CAppend (intMax)

/-- A C string. -/
abbrev CChars := { s : List Char // '\x00' ∉ s }

section
variable {α : Type*} (scrap : List Char → List Char) (entry : α → List Char) (bufsize : ℕ)

/-- `pos += snprintf(buf + pos, bufsize - pos, ...)`. Where a text's length is no `int`, `snprintf` returns -1 and
leaves what `scrap` says. -/
def printText (text buf : List Char) (pos : ℕ) : Option (List Char × ℕ) :=
  if text.length ≤ intMax then
    (snprintf buf pos (sizeSub bufsize pos) text).map fun buf => (buf, (pos + text.length) % ulongRange)
  else (store buf pos ((scrap text).take (sizeSub bufsize pos))).map fun buf => (buf, sizeSub pos 1)

/-- An entry, behind its comma. -/
def item (first : Bool) (a : α) : List Char := (if first then [] else [',', ' ']) ++ entry a

def formatLoop : List α → Bool → List Char → ℕ → Option (List Char × ℕ)
  | [], _, buf, pos => some (buf, pos)
  | a :: list, first, buf, pos =>
    if pos < sizeSub bufsize 1 then
      (printText scrap bufsize (item entry first a) buf pos).bind fun (buf, pos) => formatLoop list false buf pos
    else some (buf, pos)

/-- What the two functions do alike; none when a byte would fall outside of the buffer. -/
def formatList (list : List α) (buf : List Char) : Option (List Char) :=
  (printText scrap bufsize ['['] buf 0).bind fun (buf, pos) =>
    (formatLoop scrap entry bufsize list true buf pos).bind fun (buf, pos) =>
      if pos < sizeSub bufsize 1 then (printText scrap bufsize [']'] buf pos).map Prod.fst
      else (store buf (sizeSub bufsize 2) [']']).bind fun buf => store buf (sizeSub bufsize 1) ['\x00']

end

/-- What `"%s:*"` or `"%s:%u"` prints. -/
def permitopenEntry (e : CChars × UInt16) : List Char := entryText (e.1.val, starPort e.2.toNat)

def formatPermitopenList (scrap : List Char → List Char) (permitopen : List (CChars × UInt16)) (buf : List Char)
    (bufsize : ℕ) : Option (List Char) :=
  formatList scrap permitopenEntry bufsize permitopen buf

def formatStringList (scrap : List Char → List Char) (items : List CChars) (buf : List Char) (bufsize : ℕ) :
    Option (List Char) :=
  formatList scrap Subtype.val bufsize items buf

/-- The entries in order, between brackets. -/
def listing (entries : List (List Char)) : List Char := '[' :: [',', ' '].intercalate entries ++ [']']

/-- Nothing is written outside of the buffer, and what it holds then is as the entries ask. -/
structure Formats (result : Option (List Char)) (entries : List (List Char)) (bufsize : ℕ) : Prop where
  safe : ∃ buf, result = some buf ∧ buf.length = bufsize ∧ '\x00' ∈ buf
  ends : (∀ e ∈ entries, e.length + 2 ≤ intMax) → ∀ buf ∈ result, (bufferText buf).getLast? = some ']'
  starts : (∀ e ∈ entries, e.length + 2 ≤ intMax) → 3 ≤ bufsize → ∀ buf ∈ result, (bufferText buf).head? = some '['
  lists : (∀ e ∈ entries, e.length + 2 ≤ intMax) → (listing entries).length + 1 ≤ bufsize →
    ∀ buf ∈ result, bufferText buf = listing entries

/-! ### Any entries at all -/

section
variable {α : Type*} (scrap : List Char → List Char) (entry : α → List Char) {bufsize : ℕ}

/-- Where there is room for a byte and a null, nothing is printed outside of the buffer. -/
theorem printText_safe (hrange : bufsize < ulongRange) {buf : List Char} (hbuf : buf.length = bufsize) {pos : ℕ}
    (hpos : pos + 1 < bufsize) (text : List Char) :
    ∃ buf' pos', printText scrap bufsize text buf pos = some (buf', pos') ∧ buf'.length = bufsize ∧
      (text.length ≤ intMax → '\x00' ∈ buf') := by
  have hsize : sizeSub bufsize pos = bufsize - pos := sizeSub_eq (by omega) hrange
  unfold printText
  rw [hsize]
  split
  · have hfits : pos + (text.take (bufsize - pos - 1) ++ ['\x00']).length ≤ buf.length := by
      rw [List.length_append, List.length_take, List.length_singleton]
      omega
    obtain ⟨buf', hstore, hlen, htake⟩ := store_of_le hfits
    refine ⟨buf', _, by rw [snprintf, if_neg (by omega), hstore]; rfl, hlen.trans hbuf, fun _ => ?_⟩
    apply List.mem_of_mem_take
    rw [htake]
    exact List.mem_append_right _ (List.mem_append_right _ (List.mem_singleton.mpr rfl))
  · rename_i hlong
    have hfits : pos + ((scrap text).take (bufsize - pos)).length ≤ buf.length := by
      rw [List.length_take]
      omega
    obtain ⟨buf', hstore, hlen, -⟩ := store_of_le hfits
    exact ⟨buf', _, by rw [hstore]; rfl, hlen.trans hbuf, fun hint => absurd hint hlong⟩

theorem formatLoop_safe (hsize : 2 ≤ bufsize) (hrange : bufsize < ulongRange) (list : List α) (first : Bool)
    {buf : List Char} (hbuf : buf.length = bufsize) (pos : ℕ) :
    ∃ buf' pos', formatLoop scrap entry bufsize list first buf pos = some (buf', pos') ∧ buf'.length = bufsize := by
  -- where `snprintf` fails `pos` goes back, even below 0: the loop's guard is all that is known of it
  induction list generalizing first buf pos with
  | nil => exact ⟨buf, pos, rfl, hbuf⟩
  | cons a list ih =>
    by_cases hpos : pos < sizeSub bufsize 1
    · have hroom : pos + 1 < bufsize := by
        rw [sizeSub_eq (by omega) hrange] at hpos
        omega
      obtain ⟨buf₁, pos₁, hprint, hlen, -⟩ := printText_safe scrap hrange hbuf hroom (item entry first a)
      obtain ⟨buf', pos', hloop, hlen'⟩ := ih false hlen pos₁
      refine ⟨buf', pos', ?_, hlen'⟩
      rw [formatLoop, if_pos hpos, hprint, Option.bind_some]
      exact hloop
    · exact ⟨buf, pos, by rw [formatLoop, if_neg hpos], hbuf⟩

/-- Whatever the entries, the buffer holds a string in the end. -/
theorem formatList_safe (hsize : 2 ≤ bufsize) (hrange : bufsize < ulongRange) (list : List α) {buf : List Char}
    (hbuf : buf.length = bufsize) :
    ∃ buf', formatList scrap entry bufsize list buf = some buf' ∧ buf'.length = bufsize ∧ '\x00' ∈ buf' := by
  obtain ⟨buf₁, pos₁, hopen, hlen₁, -⟩ := printText_safe scrap hrange hbuf (by omega : 0 + 1 < bufsize) ['[']
  obtain ⟨buf₂, pos₂, hloop, hlen₂⟩ := formatLoop_safe scrap entry hsize hrange list true hlen₁ pos₁
  simp only [formatList, hopen, hloop, Option.bind_some, sizeSub_eq (by omega : 1 ≤ bufsize) hrange, sizeSub_eq hsize hrange]
  -- the bracket is printed with its null, or both are stored at the end
  by_cases hpos : pos₂ < bufsize - 1
  · obtain ⟨buf', pos', hclose, hlen', hnul⟩ := printText_safe scrap hrange hlen₂ (by omega : pos₂ + 1 < bufsize) [']']
    refine ⟨buf', ?_, hlen', hnul (by rw [List.length_singleton]; decide)⟩
    rw [if_pos hpos, hclose]
    rfl
  · have hmark : bufsize - 2 + [']'].length ≤ buf₂.length := by
      rw [List.length_singleton]
      omega
    obtain ⟨buf₃, hstore, hlen₃, -⟩ := store_of_le hmark
    have hnull : bufsize - 1 + ['\x00'].length ≤ buf₃.length := by
      rw [List.length_singleton]
      omega
    obtain ⟨buf', hstore', hlen', htake⟩ := store_of_le hnull
    refine ⟨buf', ?_, by omega, ?_⟩
    · rw [if_neg hpos, hstore, Option.bind_some, hstore']
    · apply List.mem_of_mem_take
      rw [htake]
      exact List.mem_append_right _ (List.mem_singleton.mpr rfl)

/-! ### Entries whose lengths are ints -/

/-- A text whose length is an `int` is printed behind what is there. -/
theorem printText_printed (hrange : bufsize < 2 ^ 63) {buf text : List Char} (h : Printed buf bufsize text)
    (hroom : text.length + 1 < bufsize) {more : List Char} (hint : more.length ≤ intMax) :
    ∃ buf', printText scrap bufsize more buf text.length = some (buf', (text ++ more).length) ∧
      Printed buf' bufsize (text ++ more) ∧ buf'.length = buf.length := by
  have hulong : ulongRange = 2 ^ 64 := by decide
  have hlimit : intMax < 2 ^ 63 := by decide
  obtain ⟨buf', hprint, hprinted, hlen⟩ := h.snprintf hroom more
  have hsize : sizeSub bufsize text.length = bufsize - text.length := sizeSub_eq (by omega) (by omega)
  refine ⟨buf', ?_, hprinted, hlen⟩
  rw [printText, if_pos hint, hsize, hprint, Option.map_some, Nat.mod_eq_of_lt (by omega), List.length_append]

/-- The items of a list, one behind the other. -/
def items : Bool → List α → List Char
  | _, [] => []
  | first, a :: list => item entry first a ++ items false list

theorem items_true (list : List α) : items entry true list = [',', ' '].intercalate (list.map entry) := by
  have hrest (list : List α) : items entry false list = (list.map entry).flatMap ([',', ' '] ++ ·) := by
    induction list with
    | nil => rfl
    | cons a list ih =>
      rw [items, ih, List.map_cons, List.flatMap_cons]
      rfl
  cases list with
  | nil => rfl
  | cons a list =>
    rw [List.map_cons, intercalate_cons, ← hrest]
    rfl

variable {entry}

theorem length_item_le {a : α} (h : (entry a).length + 2 ≤ intMax) (first : Bool) :
    (item entry first a).length ≤ intMax := by
  cases first with
  | true => exact Nat.le_trans (Nat.le_add_right _ 2) h
  | false =>
    rw [item, List.length_append]
    exact Nat.le_trans (Nat.le_of_eq (Nat.add_comm _ _)) h

/-- The loop prints the items one behind the other, until the buffer is full. -/
theorem formatLoop_spec (hsize : 2 ≤ bufsize) (hrange : bufsize < 2 ^ 63) (list : List α)
    (hint : ∀ a ∈ list, (entry a).length + 2 ≤ intMax) (first : Bool) {buf text : List Char}
    (h : Printed buf bufsize text) :
    ∃ buf' text' rest, formatLoop scrap entry bufsize list first buf text.length = some (buf', text'.length) ∧
      Printed buf' bufsize text' ∧ text ++ items entry first list = text' ++ rest ∧
        (rest = [] ∨ bufsize ≤ text'.length + 1) := by
  have hulong : ulongRange = 2 ^ 64 := by decide
  have hguard : sizeSub bufsize 1 = bufsize - 1 := sizeSub_eq (by omega) (by omega)
  induction list generalizing first buf text with
  | nil => exact ⟨buf, text, [], rfl, h, rfl, Or.inl rfl⟩
  | cons a list ih =>
    by_cases hpos : text.length < sizeSub bufsize 1
    · obtain ⟨buf₁, hprint, hprinted, -⟩ :=
        printText_printed scrap hrange h (by omega) (length_item_le (hint a List.mem_cons_self) first)
      obtain ⟨buf', text', rest, hloop, hprinted', htext, hrest⟩ :=
        ih (fun b hb => hint b (List.mem_cons_of_mem a hb)) false hprinted
      refine ⟨buf', text', rest, ?_, hprinted', ?_, hrest⟩
      · rw [formatLoop, if_pos hpos, hprint, Option.bind_some]
        exact hloop
      · rw [items, ← List.append_assoc, htext]
    · exact ⟨buf, text, _, by rw [formatLoop, if_neg hpos], h, rfl, Or.inr (by omega)⟩

/-- What the buffer holds afterwards: the whole listing, or as much of it as fits before a bracket. -/
theorem formatList_text (hsize : 2 ≤ bufsize) (hrange : bufsize < 2 ^ 63) {list : List α}
    (hint : ∀ a ∈ list, (entry a).length + 2 ≤ intMax) (hnul : '\x00' ∉ listing (list.map entry)) {buf : List Char}
    (hbuf : buf.length = bufsize) :
    ∃ buf', formatList scrap entry bufsize list buf = some buf' ∧
      bufferText buf' = if (listing (list.map entry)).length + 1 ≤ bufsize then listing (list.map entry)
        else (listing (list.map entry)).take (bufsize - 2) ++ [']'] := by
  have hulong : ulongRange = 2 ^ 64 := by decide
  have hguard : sizeSub bufsize 1 = bufsize - 1 := sizeSub_eq (by omega) (by omega)
  obtain ⟨buf₁, hprint, hprinted, -⟩ := printed_first (by omega : 0 < bufsize) (le_of_eq hbuf.symm) ['[']
  have hopen : printText scrap bufsize ['['] buf 0 = some (buf₁, ['['].length) := by
    rw [printText, if_pos (by decide), sizeSub_eq (Nat.zero_le _) (by omega), Nat.sub_zero, hprint]
    rfl
  obtain ⟨buf₂, text, rest, hloop, hprinted₂, htext, hrest⟩ :=
    formatLoop_spec scrap hsize hrange list hint true hprinted
  have hfull : listing (list.map entry) = text ++ rest ++ [']'] := by
    rw [listing, ← items_true, ← htext]
    rfl
  obtain ⟨buf', hfinish, -, htext'⟩ := hprinted₂.finished hsize hrest (hfull ▸ hnul)
  refine ⟨buf', ?_, by rw [htext', hfull]⟩
  -- the last test of `pos` is that of `Printed.finished`
  simp only [formatList, hopen, hloop, Option.bind_some, hguard, sizeSub_eq hsize (by omega)]
  by_cases hpos : text.length < bufsize - 1
  · rw [if_pos hpos] at hfinish ⊢
    rw [printText, if_pos (by decide), sizeSub_eq (by omega) (by omega), hfinish]
    rfl
  · rw [if_neg hpos] at hfinish ⊢
    exact hfinish

end

/-! ### The two lists -/

theorem nul_notMem_listing {entries : List (List Char)} (h : ∀ e ∈ entries, '\x00' ∉ e) : '\x00' ∉ listing entries := by
  have hjoined : '\x00' ∉ [',', ' '].intercalate entries := by
    cases entries with
    | nil => exact List.not_mem_nil
    | cons e es =>
      rw [intercalate_cons, List.mem_append, List.mem_flatMap]
      rintro (hmem | ⟨f, hf, hmem⟩)
      · exact h e List.mem_cons_self hmem
      · rcases List.mem_append.mp hmem with hmem | hmem
        · exact absurd hmem (by decide)
        · exact h f (List.mem_cons_of_mem e hf) hmem
  rw [listing, List.cons_append, List.mem_cons, List.mem_append, List.mem_singleton]
  rintro (hmem | hmem | hmem)
  · exact absurd hmem (by decide)
  · exact hjoined hmem
  · exact absurd hmem (by decide)

theorem formatList_formats {α : Type*} (scrap : List Char → List Char) {entry : α → List Char} {bufsize : ℕ}
    (hsize : 2 ≤ bufsize) (hrange : bufsize < 2 ^ 63) (list : List α) (hnul : ∀ a, '\x00' ∉ entry a) {buf : List Char}
    (hbuf : buf.length = bufsize) :
    Formats (formatList scrap entry bufsize list buf) (list.map entry) bufsize := by
  have hulong : ulongRange = 2 ^ 64 := by decide
  have hheld (hint : ∀ e ∈ list.map entry, e.length + 2 ≤ intMax) {buf' : List Char}
      (hbuf' : buf' ∈ formatList scrap entry bufsize list buf) :
      bufferText buf' = if (listing (list.map entry)).length + 1 ≤ bufsize then listing (list.map entry)
        else (listing (list.map entry)).take (bufsize - 2) ++ [']'] := by
    have hnul' : '\x00' ∉ listing (list.map entry) := by
      apply nul_notMem_listing
      intro e he
      obtain ⟨a, -, rfl⟩ := List.mem_map.mp he
      exact hnul a
    obtain ⟨buf₁, hresult, htext⟩ :=
      formatList_text scrap hsize hrange (fun a ha => hint _ (List.mem_map_of_mem ha)) hnul' hbuf
    obtain rfl := Option.some.inj (hresult.symm.trans hbuf')
    exact htext
  refine ⟨formatList_safe scrap entry hsize (by omega) list hbuf, fun hint buf' hbuf' => ?_,
    fun hint hthree buf' hbuf' => ?_, fun hint hroom buf' hbuf' => ?_⟩
  · rw [hheld hint hbuf']
    split
    · exact List.getLast?_concat
    · exact List.getLast?_concat
  · -- what is cut still has its first byte, from three bytes on
    rw [hheld hint hbuf']
    split
    · rfl
    · rw [show bufsize - 2 = bufsize - 3 + 1 by omega]
      rfl
  · rw [hheld hint hbuf', if_pos hroom]

theorem permitopenEntry_nul (e : CChars × UInt16) : '\x00' ∉ permitopenEntry e := by
  rw [permitopenEntry, entryText, List.mem_append, List.mem_cons]
  rintro (hmem | hmem | hmem)
  · exact e.1.property hmem
  · exact absurd hmem (by decide)
  · exact (port_char (starPort_char hmem)).2.2.2 rfl

/-- Both lists are written within their buffer, and as their entries ask. -/
theorem formatLists_formats (scrap : List Char → List Char) {bufsize : ℕ} (hsize : 2 ≤ bufsize) (hrange : bufsize < 2 ^ 63)
    {buf : List Char} (hbuf : buf.length = bufsize) (permitopen : List (CChars × UInt16)) (items : List CChars) :
    Formats (formatPermitopenList scrap permitopen buf bufsize) (permitopen.map permitopenEntry) bufsize ∧
      Formats (formatStringList scrap items buf bufsize) (items.map Subtype.val) bufsize :=
  ⟨formatList_formats scrap hsize hrange permitopen permitopenEntry_nul hbuf,
    formatList_formats scrap hsize hrange items Subtype.property hbuf⟩

theorem formatLists_formats_sample :
    Formats (formatPermitopenList id [(⟨['h'], by decide⟩, 22)] ['x', 'x', 'x', 'x'] 4)
        ([(⟨['h'], by decide⟩, 22)].map permitopenEntry) 4 ∧
      Formats (formatStringList id [⟨['h'], by decide⟩] ['x', 'x', 'x', 'x'] 4)
        ([(⟨['h'], by decide⟩ : CChars)].map Subtype.val) 4 :=
  formatLists_formats id (by decide) (by decide) rfl [(⟨['h'], by decide⟩, 22)] [⟨['h'], by decide⟩]

/-- An entry whose length is no `int` takes the bracket in front of it away. -/
theorem formatList_overlong {α : Type*} {entry : α → List Char} {a : α} (h : intMax < (entry a).length) :
    formatList (fun _ => []) entry 4 [a] ['x', 'x', 'x', 'x'] = some [']', '\x00', 'x', 'x'] := by
  have hopen : printText (fun _ => []) 4 ['['] ['x', 'x', 'x', 'x'] 0 = some (['[', '\x00', 'x', 'x'], 1) := by decide
  -- -1 takes `pos` back to the bracket
  have hitem : printText (fun _ => []) 4 (item entry true a) ['[', '\x00', 'x', 'x'] 1 =
      some (['[', '\x00', 'x', 'x'], 0) := by
    have hlong : ¬(item entry true a).length ≤ intMax := Nat.not_le.mpr h
    rw [printText, if_neg hlong]
    decide
  have hloop : formatLoop (fun _ => []) entry 4 [a] true ['[', '\x00', 'x', 'x'] 1 =
      some (['[', '\x00', 'x', 'x'], 0) := by
    rw [formatLoop, if_pos (by decide), hitem]
    rfl
  rw [formatList, hopen, Option.bind_some]
  simp only [hloop, Option.bind_some]
  decide

/-- Two bytes have no room for both brackets, and -1 is what `snprintf` returns of a text of more than `INT_MAX`. -/
theorem lists_without_bracket :
    (formatPermitopenList id [] ['x', 'x'] 2 = some [']', '\x00'] ∧
      formatStringList id [] ['x', 'x'] 2 = some [']', '\x00']) ∧
    ∃ host : CChars, host.val.length = 2 ^ 31 ∧
      formatPermitopenList (fun _ => []) [(host, 22)] ['x', 'x', 'x', 'x'] 4 = some [']', '\x00', 'x', 'x'] ∧
      formatStringList (fun _ => []) [host] ['x', 'x', 'x', 'x'] 4 = some [']', '\x00', 'x', 'x'] := by
  have hnul : '\x00' ∉ List.replicate (2 ^ 31) 'a' := by
    intro hmem
    exact absurd (List.eq_of_mem_replicate hmem) (by decide)
  have hlong : intMax < (List.replicate (2 ^ 31) 'a').length := by
    rw [List.length_replicate]
    decide
  refine ⟨by decide, ⟨List.replicate (2 ^ 31) 'a', hnul⟩, List.length_replicate, ?_, formatList_overlong hlong⟩
  apply formatList_overlong
  rw [permitopenEntry, entryText, List.length_append]
  exact Nat.lt_add_right _ hlong

end NoPorts.CDaemon.FormatList
