import NoPorts.CDaemonRequests
import NoPorts.CPermitopenPrinted
import NoPorts.Lib.CPrint

/-! The permit-open entries that the daemons advertise, and what they are parsed to again. A
character of a text is a byte of a C string. -/
namespace NoPorts.CDaemon
open Lib

/-- What `"%s:%u"` prints. -/
def serviceText (e : String × ℕ) : List Char := entryText (e.1.toList, (toString e.2).toList)

/-- `allowedServices` of the device info, each in a buffer of eight bytes more than its host. -/
def allowedServices (permitopen : List (String × ℕ)) : List (List Char) :=
  permitopen.map fun e => (serviceText e).take (e.1.toList.length + 8 - 1)

/-- `allowedServices` of the Arduino daemon's ping response, each in a buffer of 128 bytes. -/
def arduinoAllowedServices (permitopen : List (String × ℕ)) : List (List Char) :=
  permitopen.map fun e => (serviceText e).take (128 - 1)

/-- Subtraction of `size_t`. -/
def sizeSub (a b : ℕ) : ℕ := (a + ulongRange - b) % ulongRange

/-- An item of the list, behind its comma. -/
def listedItem (first : Bool) (e : String × ℕ) : List Char :=
  (if first then [] else [',', ' ']) ++ entryText (e.1.toList, starPort e.2)

/-- The loop of `format_permitopen_list`. -/
def formatItems (bufsize : ℕ) :
    List (String × ℕ) → Bool → List Char → ℕ → Option (List Char × ℕ)
  | [], _, buf, pos => some (buf, pos)
  | e :: permitopen, first, buf, pos =>
    if pos < sizeSub bufsize 1 then
      (snprintf buf pos (sizeSub bufsize pos) (listedItem first e)).bind fun buf =>
        formatItems bufsize permitopen false buf (pos + (listedItem first e).length)
    else some (buf, pos)

/-- `format_permitopen_list`; none when a byte would fall outside of the buffer. -/
def formatPermitopenBuffer (permitopen : List (String × ℕ)) (buf : List Char) (bufsize : ℕ) :
    Option (List Char) :=
  (snprintf buf 0 bufsize ['[']).bind fun buf =>
    (formatItems bufsize permitopen true buf 1).bind fun (buf, pos) =>
      if pos < sizeSub bufsize 1 then snprintf buf pos (sizeSub bufsize pos) [']']
      else (store buf (sizeSub bufsize 2) [']']).bind fun buf =>
        store buf (sizeSub bufsize 1) ['\x00']

/-- A text without the space behind each comma. -/
def unspace : List Char → List Char
  | ',' :: ' ' :: rest => ',' :: unspace rest
  | c :: rest => c :: unspace rest
  | [] => []

/-- The entries of a listed text, between its brackets. -/
def listedEntries (text : List Char) : List Char := unspace (text.drop 1).dropLast

/-- The items of a list, one behind the other. -/
def listedItems : Bool → List (String × ℕ) → List Char
  | _, [] => []
  | first, e :: permitopen => listedItem first e ++ listedItems false permitopen

/-- The whole text of a list. -/
def listedText (permitopen : List (String × ℕ)) : List Char :=
  '[' :: listedItems true permitopen ++ [']']

/-- What is advertised for a list is parsed to the list. -/
structure SurvivesAdvertising (permitopen : List (String × ℕ)) (bufsize : ℕ) : Prop where
  device : parsePermitopen (commaJoined (allowedServices permitopen)) = some permitopen
  arduino : permitopen.length ≤ 255 →
    parsePermitopen (commaJoined (arduinoAllowedServices permitopen)) = some permitopen
  listed : ∀ buf : List Char, bufsize ≤ buf.length →
    ∃ buf', formatPermitopenBuffer permitopen buf bufsize = some buf' ∧
      parsePermitopen (listedEntries (bufferText buf')) = some permitopen

/-- No port is the wildcard, and every text has its room. -/
structure Advertisable (permitopen : List (String × ℕ)) (bufsize : ℕ) : Prop where
  port : ∀ e ∈ permitopen, e.2 ≠ 0
  arduino : permitopen.length ≤ 255 → ∀ e ∈ permitopen, (serviceText e).length ≤ 127
  listed : (listedText permitopen).length + 1 ≤ bufsize

/-! ### The list in its buffer -/

theorem sizeSub_eq {a b : ℕ} (hle : b ≤ a) (ha : a < ulongRange) : sizeSub a b = a - b := by
  rw [sizeSub, show a + ulongRange - b = a - b + ulongRange by omega, Nat.add_mod_right,
    Nat.mod_eq_of_lt (by omega)]

/-- The loop prints the items one behind the other, until the buffer is full. -/
theorem formatItems_spec {bufsize : ℕ} (hsize : 2 ≤ bufsize) (hrange : bufsize < ulongRange)
    (permitopen : List (String × ℕ)) (first : Bool) {buf text : List Char} {pos : ℕ}
    (h : Printed buf bufsize text) (hlen : text.length = pos) :
    ∃ buf' text' rest, formatItems bufsize permitopen first buf pos = some (buf', text'.length) ∧
      Printed buf' bufsize text' ∧ buf'.length = buf.length ∧
        text ++ listedItems first permitopen = text' ++ rest ∧
          (rest = [] ∨ bufsize ≤ text'.length + 1) := by
  subst hlen
  induction permitopen generalizing first buf text with
  | nil => exact ⟨buf, text, [], rfl, h, rfl, rfl, Or.inl rfl⟩
  | cons e permitopen ih =>
    by_cases hpos : text.length < sizeSub bufsize 1
    · have hroom : text.length + 1 < bufsize := by
        rw [sizeSub_eq (by omega) hrange] at hpos
        omega
      obtain ⟨buf₁, hprint, hprinted, hlen⟩ := h.snprintf hroom (listedItem first e)
      obtain ⟨buf', text', rest, hloop, hprinted', hlen', htext, hrest⟩ := ih false hprinted
      refine ⟨buf', text', rest, ?_, hprinted', hlen'.trans hlen, ?_, hrest⟩
      · rw [formatItems, if_pos hpos, sizeSub_eq (by omega) hrange, hprint, Option.bind_some,
          ← List.length_append, hloop]
      · rw [listedItems, ← List.append_assoc, htext]
    · have hfull : bufsize ≤ text.length + 1 := by
        rw [sizeSub_eq (by omega) hrange] at hpos
        omega
      exact ⟨buf, text, _, by rw [formatItems, if_neg hpos], h, rfl, rfl, Or.inr hfull⟩

/-- What the buffer holds afterwards: the whole text, or as much of it as fits before a bracket. -/
theorem formatPermitopenBuffer_text {permitopen : List (String × ℕ)} {bufsize : ℕ}
    (hsize : 2 ≤ bufsize) (hrange : bufsize < ulongRange) {buf : List Char}
    (hbuf : bufsize ≤ buf.length) (hnul : '\x00' ∉ listedText permitopen) :
    ∃ buf', formatPermitopenBuffer permitopen buf bufsize = some buf' ∧
      buf'.length = buf.length ∧
        bufferText buf' = if (listedText permitopen).length + 1 ≤ bufsize then
          listedText permitopen else (listedText permitopen).take (bufsize - 2) ++ [']'] := by
  obtain ⟨buf₁, hopen, hprinted₁, hlen₁⟩ := printed_first (by omega : 0 < bufsize) hbuf ['[']
  obtain ⟨buf₂, text, rest, hloop, hprinted₂, hlen₂, htext, hrest⟩ :=
    formatItems_spec hsize hrange permitopen true hprinted₁ List.length_singleton
  have hfull : listedText permitopen = text ++ rest ++ [']'] := by
    rw [← htext, listedText]
    rfl
  obtain ⟨buf', hclose, hlen', htext'⟩ := hprinted₂.finished hsize hrest (hfull ▸ hnul)
  refine ⟨buf', ?_, by rw [hlen', hlen₂, hlen₁], by rw [htext', hfull]⟩
  rw [formatPermitopenBuffer, hopen, Option.bind_some, hloop, Option.bind_some]
  simp only [sizeSub_eq (by omega : 1 ≤ bufsize) hrange, sizeSub_eq hsize hrange]
  by_cases hpos : text.length < bufsize - 1
  · rw [if_pos hpos] at hclose ⊢
    rw [sizeSub_eq (by omega) hrange, hclose]
  · rw [if_neg hpos] at hclose ⊢
    exact hclose

/-! ### The list read again -/

theorem unspace_cons {c : Char} (h : c ≠ ',') (rest : List Char) :
    unspace (c :: rest) = c :: unspace rest := by
  rw [unspace]
  intro rest' hc
  exact absurd hc h

theorem unspace_append {s : List Char} (h : ',' ∉ s) (rest : List Char) :
    unspace (s ++ rest) = s ++ unspace rest := by
  induction s with
  | nil => rfl
  | cons c cs ih =>
    have hc : c ≠ ',' := fun heq => h (heq ▸ List.mem_cons_self)
    rw [List.cons_append, unspace_cons hc, ih fun hmem => h (List.mem_cons_of_mem c hmem),
      List.cons_append]

theorem unspace_pos {s : List Char} (h : s ≠ []) : 0 < (unspace s).length := by
  unfold unspace
  split
  · exact Nat.succ_pos _
  · exact Nat.succ_pos _
  · exact absurd rfl h

/-- A text cut short is shorter without its spaces too, if it did not end in one. -/
theorem unspace_take_lt {s : List Char} {k : ℕ} (hlast : s.getLast? ≠ some ' ')
    (hk : k < s.length) : (unspace (s.take k)).length < (unspace s).length := by
  induction s using unspace.induct generalizing k with
  | case1 rest ih =>
    have hrest : rest ≠ [] := by
      rintro rfl
      exact hlast rfl
    obtain ⟨c, cs, rfl⟩ := List.exists_cons_of_ne_nil hrest
    have hpos := unspace_pos hrest
    rcases k with _ | _ | k
    · exact Nat.succ_pos _
    · simp only [unspace, List.take_succ_cons, List.take_zero, List.length_cons, List.length_nil]
      omega
    · rw [List.getLast?_cons_cons, List.getLast?_cons_cons] at hlast
      have htail := ih hlast (k := k) (by simp only [List.length_cons] at hk ⊢; omega)
      simp only [unspace, List.take_succ_cons, List.length_cons] at htail ⊢
      omega
  | case2 c rest hne ih =>
    rcases k with _ | k
    · exact unspace_pos (List.cons_ne_nil c rest)
    · have hk' : k < rest.length := by
        rw [List.length_cons] at hk
        omega
      obtain ⟨d, ds, rfl⟩ :=
        List.exists_cons_of_ne_nil (List.ne_nil_of_length_pos (Nat.zero_lt_of_lt hk'))
      rw [List.getLast?_cons_cons] at hlast
      have htail := ih hlast hk'
      have hcons (s : List Char) (hs : ∀ x ∈ s.head?, x = d) :
          unspace (c :: s) = c :: unspace s := by
        rw [unspace]
        rintro rest' rfl rfl
        exact hne ds rfl (congrArg (· :: ds) (hs ' ' rfl).symm)
      have hhead (s : List Char) (hs : s <+: d :: ds) : ∀ x ∈ s.head?, x = d := by
        intro x hx
        obtain ⟨xs, rfl⟩ := List.head?_eq_some_iff.mp hx
        exact (List.cons_prefix_cons.mp hs).1
      rw [List.take_succ_cons, hcons _ (hhead _ (List.take_prefix _ _)),
        hcons _ (hhead _ (List.prefix_refl _)), List.length_cons, List.length_cons]
      omega
  | case3 => exact absurd hk (Nat.not_lt_zero k)

theorem commaJoined_cons (t : List Char) (ts : List (List Char)) :
    commaJoined (t :: ts) = t ++ ts.flatMap fun u => ',' :: u := intercalate_cons [','] t ts

/-- What the text of a port is made of. -/
theorem port_char {c : Char} (h : c = '*' ∨ c.isDigit = true) :
    isSeparator c = false ∧ isQuote c = false ∧ c ≠ ' ' ∧ c ≠ '\x00' := by
  rcases h with rfl | h
  · decide
  · have hne (d : Char) (hd : d.isDigit = false) : c ≠ d := by
      rintro rfl
      rw [hd] at h
      cases h
    refine ⟨not_isSeparator.mpr ⟨hne ',' rfl, hne ':' rfl⟩, ?_, hne ' ' rfl, hne _ rfl⟩
    rw [isQuote, Bool.or_eq_false_iff, beq_eq_false_iff_ne, beq_eq_false_iff_ne]
    exact ⟨hne '"' rfl, hne '\'' rfl⟩

theorem starPort_char {n : ℕ} {c : Char} (h : c ∈ starPort n) : c = '*' ∨ c.isDigit = true := by
  unfold starPort at h
  split at h
  · exact Or.inl (List.mem_singleton.mp h)
  · exact Or.inr (isDigit_of_mem_toString n c h)

theorem starPort_ne_nil (n : ℕ) : starPort n ≠ [] := by
  unfold starPort
  split
  · exact List.cons_ne_nil _ _
  · exact toString_ne_nil n

/-- A parsed list is printable, however its ports are printed. -/
theorem IsParsed.printable {permitopen : List (String × ℕ)} (h : IsParsed permitopen)
    {portText : ℕ → List Char} (hne : ∀ n, portText n ≠ [])
    (hchar : ∀ n, ∀ c ∈ portText n, c = '*' ∨ c.isDigit = true) :
    Printable (permitopen.map fun e => (e.1.toList, portText e.2)) := by
  refine ⟨fun hnil => h.some_entry (List.map_eq_nil_iff.mp hnil), ?_, ?_, ?_⟩
  · intro e' he'
    obtain ⟨e, he, rfl⟩ := List.mem_map.mp he'
    have hsep (c : Char) (hc : c ∈ e.1.toList) := not_isSeparator.mp (h.host e he c hc).1
    exact ⟨fun hmem => (hsep ',' hmem).1 rfl, fun hmem => (hsep ':' hmem).2 rfl⟩
  · intro e' he'
    obtain ⟨e, -, rfl⟩ := List.mem_map.mp he'
    refine ⟨hne e.2, fun c hc => ?_⟩
    have hplain := port_char (hchar e.2 c hc)
    exact ⟨hplain.1, hplain.2.1⟩
  · intro e' he'
    rw [List.head?_map] at he'
    obtain ⟨e, he, rfl⟩ := Option.map_eq_some_iff.mp he'
    exact h.unquoted e he

theorem IsParsed.entry_char {permitopen : List (String × ℕ)} (h : IsParsed permitopen)
    {e : String × ℕ} (he : e ∈ permitopen) {c : Char}
    (hc : c ∈ entryText (e.1.toList, starPort e.2)) : c ≠ ',' ∧ c ≠ '\x00' := by
  rcases List.mem_append.mp hc with hc | hc
  · have hhost := h.host e he c hc
    exact ⟨(not_isSeparator.mp hhost.1).1, hhost.2⟩
  · rcases List.mem_cons.mp hc with rfl | hc
    · decide
    · have hplain := port_char (starPort_char hc)
      exact ⟨(not_isSeparator.mp hplain.1).1, hplain.2.2.2⟩

/-- The listed items are the entries, from comma to comma. -/
theorem unspace_listedItems {permitopen : List (String × ℕ)} (h : IsParsed permitopen) :
    unspace (listedItems true permitopen) = commaJoined ((starEntries permitopen).map entryText) := by
  have hcomma (e : String × ℕ) (he : e ∈ permitopen) :
      ',' ∉ entryText (e.1.toList, starPort e.2) := fun hmem => (h.entry_char he hmem).1 rfl
  have htail (list : List (String × ℕ)) (hlist : ∀ e ∈ list, e ∈ permitopen) :
      unspace (listedItems false list) =
        ((starEntries list).map entryText).flatMap fun u => ',' :: u := by
    induction list with
    | nil => rfl
    | cons e list ih =>
      have hrest := ih fun e' he' => hlist e' (List.mem_cons_of_mem e he')
      have hitem := unspace_append (hcomma e (hlist e List.mem_cons_self)) (listedItems false list)
      calc unspace (listedItems false (e :: list))
          = ',' :: unspace (entryText (e.1.toList, starPort e.2) ++ listedItems false list) := rfl
        _ = ',' :: (entryText (e.1.toList, starPort e.2) ++
              ((starEntries list).map entryText).flatMap fun u => ',' :: u) := by rw [hitem, hrest]
  cases permitopen with
  | nil => exact absurd rfl h.some_entry
  | cons e list =>
    have hfirst : listedItems true (e :: list) =
        entryText (e.1.toList, starPort e.2) ++ listedItems false list := rfl
    rw [hfirst, unspace_append (hcomma e List.mem_cons_self),
      htail list fun e' he' => List.mem_cons_of_mem e he']
    exact (commaJoined_cons _ _).symm

/-- The last item ends in the text of a port. -/
theorem getLast_listedItems (first : Bool) {permitopen : List (String × ℕ)} (h : permitopen ≠ []) :
    ∃ c, (listedItems first permitopen).getLast? = some c ∧ (c = '*' ∨ c.isDigit = true) := by
  induction permitopen generalizing first with
  | nil => exact absurd rfl h
  | cons e list ih =>
    rw [listedItems, List.getLast?_append]
    cases list with
    | nil =>
      have hget := List.getLast?_eq_some_getLast (starPort_ne_nil e.2)
      refine ⟨_, ?_, starPort_char (List.getLast_mem (starPort_ne_nil e.2))⟩
      rw [listedItem, entryText, List.getLast?_append, List.getLast?_append, List.getLast?_cons,
        hget]
      rfl
    | cons f list =>
      obtain ⟨c, hc, hchar⟩ := ih false (List.cons_ne_nil f list)
      exact ⟨c, by rw [hc]; rfl, hchar⟩

theorem listedText_nul {permitopen : List (String × ℕ)} (h : IsParsed permitopen) :
    '\x00' ∉ listedText permitopen := by
  have hitems (first : Bool) (list : List (String × ℕ)) (hlist : ∀ e ∈ list, e ∈ permitopen) :
      '\x00' ∉ listedItems first list := by
    induction list generalizing first with
    | nil => exact List.not_mem_nil
    | cons e list ih =>
      intro hmem
      rcases List.mem_append.mp hmem with hmem | hmem
      · rcases List.mem_append.mp hmem with hmem | hmem
        · cases first <;> exact absurd hmem (by decide)
        · exact (h.entry_char (hlist e List.mem_cons_self) hmem).2 rfl
      · exact ih false (fun e' he' => hlist e' (List.mem_cons_of_mem e he')) hmem
  intro hmem
  rcases List.mem_append.mp hmem with hmem | hmem
  · rcases List.mem_cons.mp hmem with hmem | hmem
    · exact absurd hmem (by decide)
    · exact hitems true permitopen (fun _ he => he) hmem
  · exact absurd hmem (by decide)

/-! ### What is advertised -/

/-- A port but the wildcard is printed as a number. -/
theorem entryText_starPort {e : String × ℕ} (h : e.2 ≠ 0) :
    entryText (e.1.toList, starPort e.2) = serviceText e := by
  rw [starPort, if_neg h, serviceText]

theorem isPort_starPort {n : ℕ} (h : n ≤ 65535) : IsPort (starPort n) n := by
  unfold starPort
  split
  · rename_i hzero
    exact Or.inl ⟨rfl, hzero⟩
  · exact permitopenPort_eq_some.mp (PermitOpen.permitopenPort_toString (by omega))

/-- A list is parsed from its shortest text. -/
theorem IsParsed.parse_star {permitopen : List (String × ℕ)} (h : IsParsed permitopen) :
    parsePermitopen (commaJoined ((starEntries permitopen).map entryText)) = some permitopen := by
  rw [starEntries, parsePermitopen_printed (h.printable starPort_ne_nil fun n c => starPort_char),
    mapM_readEntry, List.forall₂_map_left_iff, List.forall₂_same]
  intro e he
  exact ⟨String.ofList_toList.symm, isPort_starPort (h.port e he)⟩

/-- A list is parsed from the texts of its services if none is a wildcard, else they are refused. -/
theorem IsParsed.parse_services {permitopen : List (String × ℕ)} (h : IsParsed permitopen) :
    parsePermitopen (commaJoined (permitopen.map serviceText)) = some permitopen ↔
      ∀ e ∈ permitopen, e.2 ≠ 0 := by
  constructor
  · intro hparse e he hzero
    have hprintable : Printable (permitopen.map fun e => (e.1.toList, (toString e.2).toList)) :=
      h.printable toString_ne_nil fun n c hc => Or.inr (isDigit_of_mem_toString n c hc)
    have hmap : (permitopen.map fun e => (e.1.toList, (toString e.2).toList)).map entryText =
        permitopen.map serviceText := List.map_map
    rw [← hmap, parsePermitopen_printed hprintable,
      mapM_none (List.mem_map_of_mem he) (by rw [hzero, readEntry]; rfl)] at hparse
    cases hparse
  · intro hports
    have hmap : (starEntries permitopen).map entryText = permitopen.map serviceText := by
      rw [starEntries, List.map_map]
      exact List.map_congr_left fun e he => entryText_starPort (hports e he)
    rw [← hmap, h.parse_star]

theorem toString_length_le {n : ℕ} (h : n ≤ 65535) : (toString n).toList.length ≤ 5 := by
  rw [toString_toList, Nat.length_toDigits_le_iff (by decide) (by decide)]
  omega

/-- The device info's buffers have room for every service. -/
theorem IsParsed.allowedServices_eq {permitopen : List (String × ℕ)} (h : IsParsed permitopen) :
    allowedServices permitopen = permitopen.map serviceText := by
  refine List.map_congr_left fun e he => List.take_of_length_le ?_
  have hport := toString_length_le (h.port e he)
  simp only [serviceText, entryText, List.length_append, List.length_cons]
  omega

/-- The Arduino daemon's buffers have room for every service, or what they hold is too little. -/
theorem IsParsed.parse_arduino {permitopen : List (String × ℕ)} (h : IsParsed permitopen)
    (hports : ∀ e ∈ permitopen, e.2 ≠ 0) :
    parsePermitopen (commaJoined (arduinoAllowedServices permitopen)) = some permitopen ↔
      ∀ e ∈ permitopen, (serviceText e).length ≤ 127 := by
  constructor
  · intro hparse
    by_contra hlong
    push Not at hlong
    have hne : arduinoAllowedServices permitopen ≠ [] :=
      fun hnil => h.some_entry (List.map_eq_nil_iff.mp hnil)
    have hweight := weight_of_parse hparse
    rw [weight_commaJoined hne] at hweight
    -- the texts that were cut are shorter than what they stand for
    have hcut : weight (arduinoAllowedServices permitopen) <
        weight ((starEntries permitopen).map entryText) := by
      rw [arduinoAllowedServices, starEntries, List.map_map]
      refine weight_map_lt (fun e he => ?_) ?_
      · simp only [Function.comp, entryText_starPort (hports e he), List.length_take]
        omega
      · obtain ⟨e, he, hlen⟩ := hlong
        refine ⟨e, he, ?_⟩
        simp only [Function.comp, entryText_starPort (hports e he), List.length_take]
        omega
    omega
  · intro hshort
    have hmap : arduinoAllowedServices permitopen = permitopen.map serviceText :=
      List.map_congr_left fun e he => List.take_of_length_le (hshort e he)
    rw [hmap]
    exact h.parse_services.mpr hports

/-- A list that is listed is parsed to the list if and only if its buffer has room for all of it. -/
theorem IsParsed.parse_listed {permitopen : List (String × ℕ)} (h : IsParsed permitopen)
    {bufsize : ℕ} (hsize : 2 ≤ bufsize) (hrange : bufsize < ulongRange) {buf : List Char}
    (hbuf : bufsize ≤ buf.length) :
    (∃ buf', formatPermitopenBuffer permitopen buf bufsize = some buf' ∧
      parsePermitopen (listedEntries (bufferText buf')) = some permitopen) ↔
        (listedText permitopen).length + 1 ≤ bufsize := by
  obtain ⟨buf', hformat, -, htext⟩ :=
    formatPermitopenBuffer_text hsize hrange hbuf (listedText_nul h)
  rw [hformat]
  simp only [Option.some.injEq, exists_eq_left', htext]
  have hlength : (listedText permitopen).length = (listedItems true permitopen).length + 2 := by
    rw [listedText, List.length_append, List.length_cons, List.length_singleton]
  constructor
  · intro hparse
    by_contra hlong
    rw [if_neg hlong] at hparse
    have hentries : listedEntries ((listedText permitopen).take (bufsize - 2) ++ [']']) =
        unspace ((listedItems true permitopen).take (bufsize - 3)) := by
      rw [listedEntries, listedText, List.cons_append]
      rcases Nat.eq_or_lt_of_le hsize with rfl | hthree
      · rfl
      · rw [show bufsize - 2 = bufsize - 3 + 1 by omega, List.take_succ_cons, List.cons_append,
          List.drop_succ_cons, List.drop_zero, List.dropLast_concat,
          List.take_append_of_le_length (by omega)]
    obtain ⟨c, hc, hchar⟩ := getLast_listedItems true h.some_entry
    have hpos : 0 < (listedItems true permitopen).length :=
      List.length_pos_of_mem (List.mem_of_getLast? hc)
    have hlast : (listedItems true permitopen).getLast? ≠ some ' ' := by
      rw [hc]
      exact fun heq => (port_char hchar).2.2.1 (Option.some.inj heq)
    have hcut := unspace_take_lt (k := bufsize - 3) hlast (by omega)
    have hne : (starEntries permitopen).map entryText ≠ [] :=
      fun hnil => h.some_entry (List.map_eq_nil_iff.mp (List.map_eq_nil_iff.mp hnil))
    have hwhole := weight_commaJoined hne
    have hweight := weight_of_parse hparse
    rw [hentries] at hweight
    rw [unspace_listedItems h] at hcut
    omega
  · intro hroom
    rw [if_pos hroom, listedEntries, listedText, List.cons_append, List.drop_succ_cons,
      List.drop_zero, List.dropLast_concat, unspace_listedItems h, h.parse_star]

/-- A list that was parsed survives being advertised if and only if no port is the wildcard and
every text has its room. -/
theorem survivesAdvertising_iff {input : List Char} {permitopen : List (String × ℕ)}
    (hnul : '\x00' ∉ input) (hparse : parsePermitopen input = some permitopen) {bufsize : ℕ}
    (hsize : 2 ≤ bufsize) (hrange : bufsize < ulongRange) :
    SurvivesAdvertising permitopen bufsize ↔ Advertisable permitopen bufsize := by
  have h := isParsed hnul hparse
  constructor
  · intro hsurvives
    have hports : ∀ e ∈ permitopen, e.2 ≠ 0 := by
      have hdevice := hsurvives.device
      rw [h.allowedServices_eq] at hdevice
      exact h.parse_services.mp hdevice
    refine ⟨hports, fun hcount => (h.parse_arduino hports).mp (hsurvives.arduino hcount), ?_⟩
    have hbuf : bufsize ≤ (List.replicate bufsize '\x00').length :=
      le_of_eq List.length_replicate.symm
    exact (h.parse_listed hsize hrange hbuf).mp (hsurvives.listed _ hbuf)
  · intro hroom
    refine ⟨?_, fun hcount => (h.parse_arduino hroom.port).mpr (hroom.arduino hcount),
      fun buf hbuf => (h.parse_listed hsize hrange hbuf).mpr hroom.listed⟩
    rw [h.allowedServices_eq]
    exact h.parse_services.mpr hroom.port

theorem survivesAdvertising_ssh :
    SurvivesAdvertising [("localhost", 22), ("*", 3389)] 256 :=
  have hnul : '\x00' ∉ "localhost:22,*:3389".toList := by decide
  (survivesAdvertising_iff hnul (by decide) (by decide) (by decide)).mpr
    ⟨by decide, by decide, by decide⟩

/-- Any port of a host is advertised as its port 0, which no list may hold. -/
theorem wildcard_advertised_as_zero :
    parsePermitopen "localhost:*".toList = some [("localhost", 0)] ∧
      allowedServices [("localhost", 0)] = ["localhost:0".toList] ∧
        arduinoAllowedServices [("localhost", 0)] = ["localhost:0".toList] ∧
          parsePermitopen "localhost:0".toList = none ∧
            ¬SurvivesAdvertising [("localhost", 0)] 256 := by
  have hadvertised : commaJoined (allowedServices [("localhost", 0)]) = "localhost:0".toList := by
    decide
  have hrefused : parsePermitopen "localhost:0".toList = none := by decide
  refine ⟨by decide, by decide, by decide, hrefused, fun hsurvives => ?_⟩
  have hdevice := hsurvives.device
  rw [hadvertised, hrefused] at hdevice
  cases hdevice

end NoPorts.CDaemon
