import NoPorts.Lib.CString

/-! `snprintf` into a buffer, one text after another. -/
namespace NoPorts.Lib

/-- `snprintf` of a text to `pos`, with room for `size` bytes; none when a byte would fall
outside of the buffer. -/
def snprintf (buf : List Char) (pos size : ℕ) (text : List Char) : Option (List Char) :=
  if size = 0 then some buf else store buf pos (text.take (size - 1) ++ ['\x00'])

/-- The string that ends at the first null. -/
def bufferText (buf : List Char) : List Char := buf.takeWhile (· ≠ '\x00')

/-- The first `size` bytes of the buffer hold a text, cut to fit, and its terminating null. -/
structure Printed (buf : List Char) (size : ℕ) (text : List Char) : Prop where
  room : size ≤ buf.length
  held : ∃ rest, buf = text.take (size - 1) ++ '\x00' :: rest

theorem store_eq {buf data : List Char} {pos : ℕ} {front mid back : List Char}
    (hbuf : buf = front ++ mid ++ back) (hpos : pos = front.length)
    (hlen : mid.length = data.length) : store buf pos data = some (front ++ data ++ back) := by
  subst hbuf hpos
  have hle : front.length + data.length ≤ (front ++ mid ++ back).length := by
    rw [List.length_append, List.length_append]
    omega
  have htake : (front ++ mid ++ back).take front.length = front := by
    rw [List.append_assoc, List.take_left]
  have hdrop : (front ++ mid ++ back).drop (front.length + data.length) = back := by
    rw [← hlen, ← List.length_append, List.drop_left]
  rw [store, if_pos hle, htake, hdrop]

/-- What follows a text printed is printed after it. -/
theorem Printed.snprintf {buf text : List Char} {size : ℕ} (h : Printed buf size text)
    (hpos : text.length + 1 < size) (more : List Char) :
    ∃ buf', Lib.snprintf buf text.length (size - text.length) more = some buf' ∧
      Printed buf' size (text ++ more) ∧ buf'.length = buf.length := by
  obtain ⟨hroom, rest, hbuf⟩ := h
  rw [List.take_of_length_le (by omega)] at hbuf
  have hlen : buf.length = text.length + (rest.length + 1) := by
    rw [hbuf, List.length_append, List.length_cons]
  -- the bytes that the new text and its null take
  have hwritten : (more.take (size - text.length - 1) ++ ['\x00']).length ≤ rest.length + 1 := by
    rw [List.length_append, List.length_take, List.length_singleton]
    omega
  have hmid : (('\x00' :: rest).take (more.take (size - text.length - 1) ++ ['\x00']).length).length =
      (more.take (size - text.length - 1) ++ ['\x00']).length := by
    rw [List.length_take, List.length_cons]
    omega
  have hsplit : buf = text ++
      ('\x00' :: rest).take (more.take (size - text.length - 1) ++ ['\x00']).length ++
        ('\x00' :: rest).drop (more.take (size - text.length - 1) ++ ['\x00']).length := by
    rw [List.append_assoc, List.take_append_drop, hbuf]
  have hstore := store_eq hsplit rfl hmid
  have hcut : (text ++ more).take (size - 1) = text ++ more.take (size - text.length - 1) := by
    rw [List.take_append, List.take_of_length_le (by omega), Nat.sub_right_comm]
  refine ⟨_, by rw [Lib.snprintf, if_neg (by omega), hstore], ⟨?_,
    ('\x00' :: rest).drop (more.take (size - text.length - 1) ++ ['\x00']).length, ?_⟩, ?_⟩
  · rw [List.length_append, List.length_append, List.length_drop, List.length_cons]
    omega
  · rw [hcut]
    simp only [List.append_assoc, List.singleton_append]
  · rw [List.length_append, List.length_append, List.length_drop, List.length_cons, hlen]
    omega

/-- The first text printed into a buffer. -/
theorem printed_first {buf : List Char} {size : ℕ} (hpos : 0 < size) (hroom : size ≤ buf.length)
    (text : List Char) : ∃ buf', snprintf buf 0 size text = some buf' ∧ Printed buf' size text ∧
      buf'.length = buf.length := by
  have hmid : (buf.take (text.take (size - 1) ++ ['\x00']).length).length =
      (text.take (size - 1) ++ ['\x00']).length := by
    rw [List.length_take, List.length_append, List.length_take, List.length_singleton]
    omega
  have hsplit : buf = [] ++ buf.take (text.take (size - 1) ++ ['\x00']).length ++
      buf.drop (text.take (size - 1) ++ ['\x00']).length := by
    rw [List.nil_append, List.take_append_drop]
  have hstore := store_eq hsplit rfl hmid
  rw [List.length_nil] at hstore
  have hlen : ([] ++ (text.take (size - 1) ++ ['\x00']) ++
      buf.drop (text.take (size - 1) ++ ['\x00']).length).length = buf.length := by
    rw [List.nil_append, List.length_append, List.length_drop, ← hmid, List.length_take]
    omega
  refine ⟨_, by rw [snprintf, if_neg (by omega), hstore], ⟨?_,
    buf.drop (text.take (size - 1) ++ ['\x00']).length, ?_⟩, hlen⟩
  · rw [hlen]
    exact hroom
  · simp only [List.nil_append, List.append_assoc, List.singleton_append]

theorem bufferText_append {text rest : List Char} (h : '\x00' ∉ text) :
    bufferText (text ++ '\x00' :: rest) = text := by
  have hall : ∀ c ∈ text, decide (c ≠ '\x00') = true := by
    intro c hc
    refine decide_eq_true fun hzero => h ?_
    rwa [hzero] at hc
  rw [bufferText, List.takeWhile_append_of_pos hall]
  simp

/-- The string in a buffer that a text was printed into. -/
theorem Printed.bufferText {buf text : List Char} {size : ℕ} (h : Printed buf size text)
    (hnul : '\x00' ∉ text) : Lib.bufferText buf = text.take (size - 1) := by
  obtain ⟨-, rest, rfl⟩ := h
  exact bufferText_append fun hmem => hnul (List.mem_of_mem_take hmem)

/-- The last two bytes of a full buffer close its text with another one. -/
theorem Printed.closed {buf text : List Char} {size : ℕ} (h : Printed buf size text)
    (hsize : 2 ≤ size) (hfull : size ≤ text.length + 1) {c : Char}
    (hnul : '\x00' ∉ text.take (size - 2) ++ [c]) :
    ∃ buf', ((store buf (size - 2) [c]).bind fun buf => store buf (size - 1) ['\x00']) =
        some buf' ∧
      buf'.length = buf.length ∧ Lib.bufferText buf' = text.take (size - 2) ++ [c] := by
  obtain ⟨-, tail, hheld⟩ := h
  have hfront : (text.take (size - 2)).length = size - 2 := by
    rw [List.length_take]
    omega
  have hlast : text.take (size - 1) = text.take (size - 2) ++ [text.get ⟨size - 2, by omega⟩] := by
    rw [show size - 1 = size - 2 + 1 by omega, List.take_succ_eq_append_getElem (by omega)]
    rfl
  have hbuf : buf = text.take (size - 2) ++ [text.get ⟨size - 2, by omega⟩] ++ '\x00' :: tail := by
    rw [hheld, hlast]
  have hmark : store buf (size - 2) [c] =
      some (text.take (size - 2) ++ [c] ++ '\x00' :: tail) := store_eq hbuf hfront.symm rfl
  have hnull : store (text.take (size - 2) ++ [c] ++ '\x00' :: tail) (size - 1) ['\x00'] =
      some (text.take (size - 2) ++ [c] ++ ['\x00'] ++ tail) := by
    have hsplit : text.take (size - 2) ++ [c] ++ '\x00' :: tail =
        text.take (size - 2) ++ [c] ++ ['\x00'] ++ tail := by
      rw [List.append_assoc _ ['\x00'] tail]
      rfl
    refine store_eq hsplit ?_ rfl
    rw [List.length_append, hfront, List.length_singleton]
    omega
  refine ⟨text.take (size - 2) ++ [c] ++ ['\x00'] ++ tail, ?_, ?_, ?_⟩
  · rw [hmark, Option.bind_some, hnull]
  · rw [hbuf]
    simp only [List.length_append, List.length_cons, List.length_nil]
    omega
  · rw [List.append_assoc _ ['\x00'] tail]
    exact bufferText_append hnul

/-- The last text, one byte, closes what has been printed: behind all of it, or in place of what doesn't fit. -/
theorem Printed.finished {buf text rest : List Char} {size : ℕ} (h : Printed buf size text) (hsize : 2 ≤ size)
    (hrest : rest = [] ∨ size ≤ text.length + 1) {c : Char} (hnul : '\x00' ∉ text ++ rest ++ [c]) :
    ∃ buf', (if text.length < size - 1 then Lib.snprintf buf text.length (size - text.length) [c]
        else (store buf (size - 2) [c]).bind fun buf => store buf (size - 1) ['\x00']) = some buf' ∧
      buf'.length = buf.length ∧ Lib.bufferText buf' = if (text ++ rest ++ [c]).length + 1 ≤ size then text ++ rest ++ [c]
        else (text ++ rest ++ [c]).take (size - 2) ++ [c] := by
  have hlength : (text ++ rest ++ [c]).length = text.length + rest.length + 1 := by
    rw [List.length_append, List.length_append, List.length_singleton]
  by_cases hpos : text.length < size - 1
  · -- all of it has been printed
    obtain rfl : rest = [] := hrest.resolve_right (by omega)
    rw [List.length_nil] at hlength
    rw [List.append_nil] at hnul hlength ⊢
    obtain ⟨buf', hclose, hprinted, hlen⟩ := h.snprintf (by omega) [c]
    refine ⟨buf', by rw [if_pos hpos, hclose], hlen, ?_⟩
    rw [hprinted.bufferText hnul, if_pos (by omega)]
    exact List.take_of_length_le (by omega)
  · -- the buffer is full: its last two bytes close the text
    have hcut : (text ++ rest ++ [c]).take (size - 2) = text.take (size - 2) := by
      rw [List.append_assoc, List.take_append_of_le_length (by omega)]
    have hshort : '\x00' ∉ text.take (size - 2) ++ [c] := by
      intro hmem
      rcases List.mem_append.mp hmem with hmem | hmem
      · exact hnul (List.mem_of_mem_take (hcut ▸ hmem))
      · exact hnul (List.mem_append_right _ hmem)
    obtain ⟨buf', hclose, hlen, htext⟩ := h.closed hsize (by omega) hshort
    exact ⟨buf', by rw [if_neg hpos, hclose], hlen, by rw [htext, if_neg (by omega), hcut]⟩

end NoPorts.Lib
