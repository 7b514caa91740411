import NoPorts.Lib.CString
import NoPorts.Lib.Machine
import NoPorts.Lib.Text

/-! The control channel of the C srv: bytes accumulate in a line buffer, and the complete
lines are cut up in place into requests. -/
namespace NoPorts.CSrv
open Lib

def srvControlLineCap : ℕ := 8192

def newline : UInt8 := 10

def space : UInt8 := 32

def colon : UInt8 := 58

def isBlank (c : UInt8) : Bool := c == space || c == newline

/-- Pointers to the parts of a control message. -/
structure ControlMessage where
  message_type : ℕ
  new_session_aes_key_c2d_string : ℕ
  new_session_aes_iv_c2d_string : ℕ
  /-- The key and IV of the other direction, when the keys are twinned. -/
  d2c : Option (ℕ × ℕ)

/-- The string at `p` without blanks at its end, which are overwritten. -/
def trimEnd (mem : List UInt8) (p : ℕ) : List UInt8 :=
  let kept := p + ((cstring mem p).reverse.dropWhile isBlank).length
  let stop := p + (cstring mem p).length
  mem.take kept ++ List.replicate (stop - kept) 0 ++ mem.drop stop

/-- The message at `original`, and what is left in memory. -/
def parse_control_message (mem : List UInt8) (original : ℕ) : Option ControlMessage × List UInt8 :=
  let saveptr := original + ((cstring mem original).takeWhile isBlank).length
  let mem := trimEnd mem saveptr
  if cstring mem saveptr = [] then (none, mem)
  else
    match strtok_r colon mem saveptr with
    | none => (none, mem)
    | some (message_type, saveptr, mem) =>
      match strtok_r colon mem saveptr with
      | none => (none, mem)
      | some (key_c2d, saveptr, mem) =>
        match strtok_r colon mem saveptr with
        | none => (none, mem)
        | some (iv_c2d, saveptr, mem) =>
          match strtok_r colon mem saveptr with
          | none => (some ⟨message_type, key_c2d, iv_c2d, none⟩, mem)
          | some (key_d2c, saveptr, mem) =>
            match strtok_r colon mem saveptr with
            | none => (none, mem)
            | some (iv_d2c, _, mem) =>
              (some ⟨message_type, key_c2d, iv_c2d, some (key_d2c, iv_d2c)⟩, mem)

/-- `process_multiple_requests`: the requests in `work`, cut up in place. -/
def process_multiple_requests (work : List UInt8) : List ℕ × List UInt8 :=
  strtokAll newline (work.length + 1) work 0

structure ControlLoop where
  line_buf : List UInt8
  line_len : ℕ
  work : List UInt8
  /-- The requests `parse_control_message` has been given, as it found them. -/
  processed : List (List UInt8)

/-- The requests, one after the other, each as the ones before it have left it. -/
def processRequests : List ℕ → List UInt8 → List (List UInt8) × List UInt8
  | [], mem => ([], mem)
  | request :: requests, mem =>
    let rest := processRequests requests (parse_control_message mem request).2
    (cstring mem request :: rest.1, rest.2)

/-- The length of the part of `line_buf` up to its last newline. -/
def completeLen (line_buf : List UInt8) : ℕ → ℕ
  | 0 => 0
  | j + 1 => if line_buf[j]? = some newline then j + 1 else completeLen line_buf j

namespace ControlLoop

/-- One turn of the loop with `buffer` received and decrypted; none when a write would fall
outside a buffer. -/
def receive (s : ControlLoop) (buffer : List UInt8) : Option ControlLoop :=
  let overlong := srvControlLineCap < s.line_len + buffer.length
  if overlong ∧ srvControlLineCap < buffer.length then some { s with line_len := 0 }
  else do
    let line_len := if overlong then 0 else s.line_len
    let line_buf ← store s.line_buf line_len buffer
    let line_len := line_len + buffer.length
    let complete_len := completeLen line_buf line_len
    if complete_len = 0 then return { s with line_buf := line_buf, line_len := line_len }
    else
      let work ← store s.work 0 (line_buf.take complete_len)
      let work ← store work complete_len [0]
      let line_buf ← store line_buf 0 ((line_buf.drop complete_len).take (line_len - complete_len))
      let requests := process_multiple_requests work
      let done := processRequests requests.1 requests.2
      return ⟨line_buf, line_len - complete_len, done.2, s.processed ++ done.1⟩

def machine : Machine ControlLoop (List UInt8) := ⟨receive⟩

/-- The loop at its start, with whatever `malloc` gave it. -/
structure Fresh (s : ControlLoop) : Prop where
  line_buf : s.line_buf.length = srvControlLineCap
  work : s.work.length = srvControlLineCap + 1
  line_len : s.line_len = 0
  processed : s.processed = []

end ControlLoop

/-! ### What the parsing of a request leaves in memory -/

/-- `mem'` is `mem` after writes before `stop`. -/
structure Within (stop : ℕ) (mem mem' : List UInt8) : Prop where
  length : mem'.length = mem.length
  drop : mem'.drop stop = mem.drop stop

theorem Within.trans {stop : ℕ} {mem mem' mem'' : List UInt8} (h : Within stop mem mem')
    (h' : Within stop mem' mem'') : Within stop mem mem'' :=
  ⟨h'.length.trans h.length, h'.drop.trans h.drop⟩

theorem trimEnd_within (mem : List UInt8) (p : ℕ) :
    Within (p + (cstring mem p).length) mem (trimEnd mem p) := by
  have hkept : ((cstring mem p).reverse.dropWhile isBlank).length ≤ (cstring mem p).length := by
    have hle := (List.dropWhile_suffix (l := (cstring mem p).reverse) isBlank).length_le
    rwa [List.length_reverse] at hle
  have hfits := length_cstring_le mem p
  simp only [trimEnd]
  by_cases hempty : cstring mem p = []
  · constructor
    · simp [hempty]
    · simp [hempty]
  · have hpos := List.length_pos_iff.mpr hempty
    have hlen : (mem.take (p + ((cstring mem p).reverse.dropWhile isBlank).length) ++
        List.replicate (p + (cstring mem p).length -
          (p + ((cstring mem p).reverse.dropWhile isBlank).length)) 0).length =
            p + (cstring mem p).length := by
      rw [List.length_append, List.length_take, List.length_replicate]
      omega
    constructor
    · rw [List.length_append, hlen, List.length_drop]
      omega
    · exact List.drop_left' hlen

/-- Tokens are cut off within the bytes of the string they are cut from. -/
theorem strtok_r_within {mem mem' : List UInt8} {p start rest stop : ℕ}
    (h : strtok_r colon mem p = some (start, rest, mem')) (hstop : p + (cstring mem p).length ≤ stop) :
    Within stop mem mem' ∧ rest + (cstring mem' rest).length ≤ stop := by
  obtain ⟨hlength, hdrop, hend⟩ := strtok_r_frame (by decide : colon ≠ 0) h
  exact ⟨⟨hlength, drop_of_drop hdrop hstop⟩, by omega⟩

/-- A request is parsed within its own bytes. -/
theorem parse_control_message_within (mem : List UInt8) (p : ℕ) :
    Within (p + (cstring mem p).length) mem (parse_control_message mem p).2 := by
  have hskip : ((cstring mem p).takeWhile isBlank).length ≤ (cstring mem p).length :=
    (List.takeWhile_prefix _).length_le
  have hend := add_length_cstring_later (Nat.le_add_right p _) (Nat.add_le_add_left hskip p)
  simp only [parse_control_message]
  generalize p + ((cstring mem p).takeWhile isBlank).length = first at hend
  rw [← hend]
  have htrim := trimEnd_within mem first
  have hstop : first + (cstring (trimEnd mem first) first).length ≤
      first + (cstring mem first).length := by
    apply length_cstring_le_of_stop (Nat.le_add_right _ _)
    intro c hc
    rw [← Nat.add_zero (first + _), ← List.getElem?_drop, htrim.drop, List.getElem?_drop,
      Nat.add_zero] at hc
    exact getElem?_cstring_end hc
  generalize first + (cstring mem first).length = stop at htrim hstop
  refine htrim.trans ?_
  generalize trimEnd mem first = trimmed at hstop
  -- each token is cut from what the one before it left
  split
  · exact ⟨rfl, rfl⟩
  · split
    · exact ⟨rfl, rfl⟩
    · rename_i h₁
      obtain ⟨hw₁, hstop₁⟩ := strtok_r_within h₁ hstop
      split
      · exact hw₁
      · rename_i h₂
        obtain ⟨hw₂, hstop₂⟩ := strtok_r_within h₂ hstop₁
        split
        · exact hw₁.trans hw₂
        · rename_i h₃
          obtain ⟨hw₃, hstop₃⟩ := strtok_r_within h₃ hstop₂
          split
          · exact (hw₁.trans hw₂).trans hw₃
          · rename_i h₄
            obtain ⟨hw₄, hstop₄⟩ := strtok_r_within h₄ hstop₃
            split
            · exact ((hw₁.trans hw₂).trans hw₃).trans hw₄
            · rename_i h₅
              exact (((hw₁.trans hw₂).trans hw₃).trans hw₄).trans (strtok_r_within h₅ hstop₄).1

/-- Requests that lie apart are each found as they were cut up. -/
theorem processRequests_eq {requests : List ℕ} {mem : List UInt8}
    (hapart : requests.Pairwise fun p q => p + (cstring mem p).length < q) :
    (processRequests requests mem).1 = requests.map (cstring mem) := by
  induction requests generalizing mem with
  | nil => rfl
  | cons p requests ih =>
    obtain ⟨hfirst, hrest⟩ := List.pairwise_cons.mp hapart
    have hsame (q : ℕ) (hq : q ∈ requests) :
        cstring (parse_control_message mem p).2 q = cstring mem q :=
      cstring_of_drop (parse_control_message_within mem p).drop (Nat.le_of_lt (hfirst q hq))
    have hapart' : requests.Pairwise fun q r =>
        q + (cstring (parse_control_message mem p).2 q).length < r := by
      refine hrest.imp_of_mem fun hq _ hlt => ?_
      rwa [hsame _ hq]
    simp only [processRequests, List.map_cons, ih hapart']
    exact congrArg _ (List.map_congr_left hsame)

theorem length_processRequests (requests : List ℕ) (mem : List UInt8) :
    (processRequests requests mem).2.length = mem.length := by
  induction requests generalizing mem with
  | nil => rfl
  | cons p requests ih =>
    calc (processRequests requests (parse_control_message mem p).2).2.length
        = (parse_control_message mem p).2.length := ih _
      _ = mem.length := (parse_control_message_within mem p).length

/-! ### One turn of the loop -/

theorem completeLen_none {line_buf : List UInt8} {n : ℕ} (h : newline ∉ line_buf.take n) :
    completeLen line_buf n = 0 := by
  induction n with
  | zero => rfl
  | succ n ih =>
    have hn : line_buf[n]? ≠ some newline := by
      intro hat
      refine h (List.mem_of_getElem? (i := n) ?_)
      rw [List.getElem?_take_of_lt (Nat.lt_succ_self n)]
      exact hat
    rw [completeLen, if_neg hn]
    apply ih
    intro hmem
    exact h ((List.take_prefix_take_left (Nat.le_succ n)).mem hmem)

theorem completeLen_some {line_buf complete left : List UInt8} {n : ℕ}
    (h : line_buf.take n = complete ++ newline :: left) (hn : n = complete.length + 1 + left.length)
    (hleft : newline ∉ left) : completeLen line_buf n = complete.length + 1 := by
  induction left using List.reverseRecOn generalizing n with
  | nil =>
    obtain rfl : n = complete.length + 1 := hn
    have hat : line_buf[complete.length]? = some newline := by
      rw [← List.getElem?_take_of_lt (Nat.lt_succ_self complete.length), h]
      simp
    rw [completeLen, if_pos hat]
  | append_singleton left c ih =>
    obtain ⟨m, rfl⟩ : ∃ m, n = m + 1 := ⟨complete.length + 1 + left.length, by
      rw [hn, List.length_append, List.length_singleton]
      omega⟩
    have hm : m = complete.length + 1 + left.length := by
      rw [List.length_append, List.length_singleton] at hn
      omega
    have hat : line_buf[m]? = some c := by
      rw [← List.getElem?_take_of_lt (Nat.lt_succ_self m), h, hm]
      rw [List.getElem?_append_right (by omega)]
      have hoff : complete.length + 1 + left.length - complete.length = left.length + 1 := by omega
      rw [hoff, List.getElem?_cons_succ]
      simp
    have hne : c ≠ newline := by
      rintro rfl
      exact hleft (List.mem_append_right _ (List.mem_singleton_self _))
    rw [completeLen, hat, if_neg fun heq => hne (Option.some.inj heq)]
    refine ih ?_ hm fun hmem => hleft (List.mem_append_left _ hmem)
    have hlonger : line_buf.take m = (line_buf.take (m + 1)).take m := by
      rw [List.take_take, Nat.min_eq_left (Nat.le_succ m)]
    have hsplit : complete ++ newline :: (left ++ [c]) = (complete ++ newline :: left) ++ [c] := by simp
    rw [hlonger, h, hsplit]
    exact List.take_left' (by simp [hm]; omega)

/-- The loop has processed the requests of `complete`, and holds `left` for later. -/
structure Holds (s : ControlLoop) (complete left : List UInt8) : Prop where
  line_buf : s.line_buf.length = srvControlLineCap
  work : s.work.length = srvControlLineCap + 1
  line_len : s.line_len = left.length
  held : s.line_buf.take s.line_len = left
  noNewline : newline ∉ left
  ends : complete = [] ∨ ∃ lines, complete = lines ++ [newline]
  processed : s.processed = tokens newline complete

theorem Holds.fresh {s : ControlLoop} (h : s.Fresh) : Holds s [] [] where
  line_buf := h.line_buf
  work := h.work
  line_len := h.line_len
  held := by rw [h.line_len, List.take_zero]
  noNewline := List.not_mem_nil
  ends := Or.inl rfl
  processed := h.processed

/-- Complete lines in `work` are cut up into their tokens. -/
theorem process_spec {work s back : List UInt8} (hwork : work = s ++ 0 :: back) (h0 : 0 ∉ s) :
    (processRequests (process_multiple_requests work).1 (process_multiple_requests work).2).1 =
      tokens newline s ∧
    (processRequests (process_multiple_requests work).1
      (process_multiple_requests work).2).2.length = work.length := by
  have hfuel : s.length < work.length + 1 := by
    rw [hwork, List.length_append]
    omega
  have hspec := @strtokAll_spec newline [] back s (by decide) (work.length + 1) h0 hfuel
  rw [List.nil_append, ← hwork] at hspec
  obtain ⟨s', hlen, hframe⟩ := hspec.frame
  constructor
  · exact (processRequests_eq hspec.apart).trans hspec.strings
  · rw [length_processRequests]
    change (strtokAll newline (work.length + 1) work 0).2.length = _
    rw [← List.length_nil (α := UInt8), hframe, hwork]
    simp [hlen]

theorem tokens_complete {complete : List UInt8}
    (h : complete = [] ∨ ∃ lines, complete = lines ++ [newline]) (more : List UInt8) :
    tokens newline (complete ++ more) = tokens newline complete ++ tokens newline more := by
  rcases h with rfl | ⟨lines, rfl⟩
  · rfl
  · rw [List.append_assoc, List.singleton_append, tokens_cut, tokens_cut, tokens_nil, List.append_nil]

theorem Holds.receive {s : ControlLoop} {complete left buffer : List UInt8} (h : Holds s complete left)
    (hfits : left.length + buffer.length ≤ srvControlLineCap) (h0 : 0 ∉ left ++ buffer) :
    ∃ t complete' left', s.receive buffer = some t ∧ Holds t complete' left' ∧
      complete' ++ left' = complete ++ left ++ buffer := by
  have hnot : ¬srvControlLineCap < s.line_len + buffer.length := by
    rw [h.line_len]
    omega
  obtain ⟨line_buf, hstore, hlen, htake⟩ := @store_of_le _ s.line_buf buffer s.line_len
    (by rw [h.line_buf, h.line_len]; exact hfits)
  rw [h.held] at htake
  by_cases hnewline : newline ∈ left ++ buffer
  · obtain ⟨lines, left', hcut, hleft'⟩ := exists_cut_last hnewline
    have hsplit : left ++ buffer = (lines ++ [newline]) ++ left' := by rw [hcut]; simp
    have htotal : s.line_len + buffer.length = lines.length + 1 + left'.length := by
      have hlength := congrArg List.length hsplit
      simp only [List.length_append, List.length_singleton] at hlength
      rw [h.line_len, hlength]
    have hcap : lines.length + 1 + left'.length ≤ srvControlLineCap := by
      rw [← htotal, h.line_len]
      exact hfits
    have hlast : (lines ++ [newline]).length = lines.length + 1 := by
      rw [List.length_append, List.length_singleton]
    have hcomplete : completeLen line_buf (s.line_len + buffer.length) = lines.length + 1 :=
      completeLen_some (htake.trans hcut) htotal hleft'
    have hbuf : line_buf.take (lines.length + 1 + left'.length) = lines ++ [newline] ++ left' := by
      rw [← htotal, htake, hsplit]
    have hlines : line_buf.take (lines.length + 1) = lines ++ [newline] := by
      have hshorter := congrArg (List.take (lines.length + 1)) hbuf
      rwa [List.take_take, Nat.min_eq_left (Nat.le_add_right _ _),
        List.take_left' hlast] at hshorter
    have hmoved : (line_buf.drop (lines.length + 1)).take (s.line_len + buffer.length -
        (lines.length + 1)) = left' := by
      have hlonger := congrArg (List.drop (lines.length + 1)) hbuf
      rw [List.drop_take, Nat.add_sub_cancel_left, List.drop_left' hlast] at hlonger
      rw [htotal, Nat.add_sub_cancel_left, hlonger]
    -- the lines go to `work`, and a NUL after them
    obtain ⟨work₁, hstore₁, hlen₁, htake₁⟩ := @store_of_le _ s.work (lines ++ [newline]) 0
      (by rw [h.work, List.length_append, List.length_singleton]; omega)
    obtain ⟨work₂, hstore₂, hlen₂, htake₂⟩ := @store_of_le _ work₁ [0] (lines.length + 1)
      (by rw [hlen₁, h.work, List.length_singleton]; omega)
    obtain ⟨moved, hstore₃, hlen₃, htake₃⟩ := @store_of_le _ line_buf left' 0
      (by rw [hlen, h.line_buf]; omega)
    rw [Nat.zero_add, hlast, List.take_zero, List.nil_append] at htake₁
    rw [List.length_singleton, htake₁] at htake₂
    rw [Nat.zero_add, List.take_zero, List.nil_append] at htake₃
    have hwork : work₂ = (lines ++ [newline]) ++ 0 :: work₂.drop (lines.length + 1 + 1) := by
      calc work₂ = work₂.take (lines.length + 1 + 1) ++ work₂.drop (lines.length + 1 + 1) :=
            (List.take_append_drop _ _).symm
        _ = _ := by rw [htake₂, List.append_assoc, List.singleton_append]
    have h0lines : (0 : UInt8) ∉ lines ++ [newline] := by
      intro hmem
      apply h0
      rw [hsplit]
      exact List.mem_append_left _ hmem
    obtain ⟨hdone, hworkLen⟩ := process_spec hwork h0lines
    refine ⟨⟨moved, s.line_len + buffer.length - (lines.length + 1),
      (processRequests (process_multiple_requests work₂).1 (process_multiple_requests work₂).2).2,
      s.processed ++ (processRequests (process_multiple_requests work₂).1
        (process_multiple_requests work₂).2).1⟩, complete ++ (lines ++ [newline]), left', ?_, ?_, ?_⟩
    · simp only [ControlLoop.receive, hnot, false_and, if_false, hstore, Option.bind_eq_bind,
        Option.bind_some, hcomplete, Nat.add_one_ne_zero, hlines, hstore₁, hstore₂, hmoved, hstore₃,
        Option.pure_def]
    · refine ⟨?_, ?_, ?_, ?_, hleft', Or.inr ⟨complete ++ lines, (List.append_assoc _ _ _).symm⟩, ?_⟩
      · exact hlen₃.trans (hlen.trans h.line_buf)
      · exact hworkLen.trans (hlen₂.trans (hlen₁.trans h.work))
      · simp only
        omega
      · simp only
        rwa [htotal, Nat.add_sub_cancel_left]
      · rw [tokens_complete h.ends, ← h.processed, ← hdone]
    · rw [List.append_assoc, ← hsplit, List.append_assoc]
  · have hcomplete : completeLen line_buf (s.line_len + buffer.length) = 0 :=
      completeLen_none (by rwa [htake])
    refine ⟨{ s with line_buf := line_buf, line_len := s.line_len + buffer.length }, complete,
      left ++ buffer, ?_, ?_, (List.append_assoc _ _ _).symm⟩
    · simp only [ControlLoop.receive, hnot, false_and, if_false, hstore, Option.bind_eq_bind,
        Option.bind_some, hcomplete, if_true, Option.pure_def]
    · exact ⟨hlen.trans h.line_buf, h.work, by simp [h.line_len], htake, hnewline, h.ends, h.processed⟩

/-- A line still incomplete is the beginning of a line of the whole stream. -/
theorem Holds.left_le {s : ControlLoop} {complete left : List UInt8} (h : Holds s complete left)
    (rest : List UInt8) :
    ∃ line ∈ (complete ++ left ++ rest).splitOn newline, left.length ≤ line.length := by
  have hends : complete = [] ∨ ∃ b, complete = b ++ [newline] := h.ends
  by_cases hrest : newline ∈ rest
  · obtain ⟨r, more, rfl, hr⟩ := List.eq_append_cons_of_mem hrest
    refine ⟨left ++ r, mem_splitOn_iff.mpr ⟨complete, newline :: more, by simp, hends,
      Or.inr ⟨more, rfl⟩, ?_⟩, by simp⟩
    simp [h.noNewline, hr]
  · refine ⟨left ++ rest, mem_splitOn_iff.mpr ⟨complete, [], by simp, hends, Or.inl rfl, ?_⟩, by simp⟩
    simp [h.noNewline, hrest]

theorem Holds.run {s : ControlLoop} {complete left : List UInt8} (h : Holds s complete left)
    {chunks : List (List UInt8)} (h0 : 0 ∉ complete ++ left ++ chunks.flatten)
    (hlines : ∀ line ∈ (complete ++ left ++ chunks.flatten).splitOn newline, line.length ≤ 4096)
    (hchunks : ∀ chunk ∈ chunks, chunk.length ≤ 4095) :
    ∃ t complete' left', ControlLoop.machine.run s chunks = some t ∧ Holds t complete' left' ∧
      complete' ++ left' = complete ++ left ++ chunks.flatten := by
  induction chunks generalizing s complete left with
  | nil => exact ⟨s, complete, left, rfl, h, by rw [List.flatten_nil, List.append_nil]⟩
  | cons chunk chunks ih =>
    rw [List.flatten_cons] at h0 hlines
    obtain ⟨line, hline, hle⟩ := h.left_le (chunk ++ chunks.flatten)
    have hshort := hlines line hline
    have hchunk := hchunks chunk List.mem_cons_self
    have hfits : left.length + chunk.length ≤ srvControlLineCap := by
      rw [srvControlLineCap]
      omega
    obtain ⟨t, complete', left', hstep, ht, heq⟩ := h.receive hfits fun hmem => h0 (by
      rcases List.mem_append.mp hmem with hmem | hmem
      · simp [hmem]
      · simp [hmem])
    have hsame : complete' ++ left' ++ chunks.flatten =
        complete ++ left ++ (chunk ++ chunks.flatten) := by rw [heq, List.append_assoc]
    obtain ⟨u, complete'', left'', hrun, hu, heq'⟩ := ih ht (by rwa [hsame]) (by rwa [hsame])
      fun c hc => hchunks c (List.mem_cons_of_mem _ hc)
    refine ⟨u, complete'', left'', ?_, hu, ?_⟩
    · rw [Machine.run_step _ hstep, hrun]
    · rw [heq', hsame, List.flatten_cons]

/-- The requests processed are the complete non-empty lines of what was received, and what
follows the last of them is held, however it was divided. -/
theorem control_loop_requests {s : ControlLoop} (hs : s.Fresh) {stream : List UInt8}
    {chunks : List (List UInt8)} (h0 : 0 ∉ stream)
    (hlines : ∀ line ∈ stream.splitOn newline, line.length ≤ 4096)
    (hchunks : ∀ chunk ∈ chunks, 1 ≤ chunk.length ∧ chunk.length ≤ 4095)
    (hstream : chunks.flatten = stream) :
    ∃ t, ControlLoop.machine.run s chunks = some t ∧
      t.processed = (stream.splitOn newline).dropLast.filter (· ≠ []) ∧
        some (t.line_buf.take t.line_len) = (stream.splitOn newline).getLast? := by
  subst hstream
  obtain ⟨t, complete, left, hrun, ht, heq⟩ := (Holds.fresh hs).run h0 hlines
    fun chunk hchunk => (hchunks chunk hchunk).2
  rw [List.append_nil, List.nil_append] at heq
  have hsplit : ∃ lines, chunks.flatten.splitOn newline = lines ++ [left] ∧
      tokens newline complete = lines.filter (· ≠ []) := by
    rw [← heq]
    rcases ht.ends with rfl | ⟨lines, rfl⟩
    · exact ⟨[], by rw [List.nil_append, List.splitOn_eq_singleton ht.noNewline]; rfl, rfl⟩
    · refine ⟨lines.splitOn newline, ?_, ?_⟩
      · rw [List.append_assoc, List.singleton_append, List.splitOn_append_cons_self,
          List.splitOn_eq_singleton ht.noNewline]
      · rw [tokens_cut, tokens_nil, List.append_nil]
        rfl
  obtain ⟨lines, hlines', htokens⟩ := hsplit
  refine ⟨t, hrun, ?_, ?_⟩
  · rw [hlines', List.dropLast_concat, ht.processed, htokens]
  · rw [hlines', List.getLast?_concat, ht.held]

def sampleLoop : ControlLoop :=
  ⟨List.replicate srvControlLineCap 0, 0, List.replicate (srvControlLineCap + 1) 0, []⟩

/-- Two newlines in a row, and a division inside the second line. -/
theorem control_loop_requests_sample :
    ∃ t, ControlLoop.machine.run sampleLoop [[97], [98, 10, 10, 99]] = some t ∧
      t.processed = [[97, 98]] ∧ some (t.line_buf.take t.line_len) = some [99] :=
  control_loop_requests ⟨List.length_replicate, List.length_replicate, rfl, rfl⟩ (by decide)
    (by decide) (by decide) rfl

/-! ### Lines of any length -/

/-- The sizes of the buffers, and how far the first is filled. -/
structure Sized (s : ControlLoop) : Prop where
  line_buf : s.line_buf.length = srvControlLineCap
  work : s.work.length = srvControlLineCap + 1
  line_len : s.line_len ≤ srvControlLineCap

theorem completeLen_le (line_buf : List UInt8) (n : ℕ) : completeLen line_buf n ≤ n := by
  induction n with
  | zero => exact Nat.le_refl 0
  | succ n ih =>
    rw [completeLen]
    split
    · exact Nat.le_refl _
    · exact Nat.le_succ_of_le ih

theorem Sized.receive {s : ControlLoop} (h : Sized s) {buffer : List UInt8}
    (hbuffer : buffer.length ≤ srvControlLineCap) : ∃ t, s.receive buffer = some t ∧ Sized t := by
  have hnot : ¬srvControlLineCap < buffer.length := by omega
  obtain ⟨line_len, hline, hfits⟩ : ∃ n, n = (if srvControlLineCap < s.line_len + buffer.length then 0
      else s.line_len) ∧ n + buffer.length ≤ srvControlLineCap := by
    refine ⟨_, rfl, ?_⟩
    split
    · omega
    · omega
  obtain ⟨line_buf, hstore, hlen, -⟩ := @store_of_le _ s.line_buf buffer line_len
    (by rw [h.line_buf]; exact hfits)
  rw [h.line_buf] at hlen
  simp only [ControlLoop.receive, hnot, and_false, if_false, ← hline, hstore, Option.bind_eq_bind,
    Option.bind_some]
  split
  · exact ⟨_, rfl, hlen, h.work, hfits⟩
  · have hcomplete := completeLen_le line_buf (line_len + buffer.length)
    generalize completeLen line_buf (line_len + buffer.length) = complete_len at hcomplete
    have hlines : (line_buf.take complete_len).length = complete_len := by
      rw [List.length_take, hlen]
      omega
    have hrest : ((line_buf.drop complete_len).take
        (line_len + buffer.length - complete_len)).length ≤ srvControlLineCap := by
      rw [List.length_take]
      omega
    obtain ⟨work₁, hstore₁, hlen₁, -⟩ := @store_of_le _ s.work (line_buf.take complete_len) 0
      (by rw [h.work, hlines]; omega)
    obtain ⟨work₂, hstore₂, hlen₂, -⟩ := @store_of_le _ work₁ [0] complete_len
      (by rw [hlen₁, h.work, List.length_singleton]; omega)
    obtain ⟨moved, hstore₃, hlen₃, -⟩ := @store_of_le _ line_buf ((line_buf.drop complete_len).take
      (line_len + buffer.length - complete_len)) 0 (by rw [hlen]; omega)
    simp only [hstore₁, hstore₂, hstore₃, Option.bind_some]
    refine ⟨_, rfl, hlen₃.trans hlen, ?_, ?_⟩
    · rw [length_processRequests]
      calc (process_multiple_requests work₂).2.length = work₂.length :=
            length_strtokAll (by decide) _ _ _
        _ = srvControlLineCap + 1 := hlen₂.trans (hlen₁.trans h.work)
    · simp only
      omega

/-- No write falls outside a buffer, however long a line grows. -/
theorem control_loop_never_overruns {s : ControlLoop} (hs : s.Fresh) {chunks : List (List UInt8)}
    (hchunks : ∀ chunk ∈ chunks, chunk.length ≤ srvControlLineCap) :
    ∃ t, ControlLoop.machine.run s chunks = some t := by
  have hsized : Sized s := ⟨hs.line_buf, hs.work, by rw [hs.line_len]; exact Nat.zero_le _⟩
  clear hs
  induction chunks generalizing s with
  | nil => exact ⟨s, rfl⟩
  | cons chunk chunks ih =>
    obtain ⟨t, hstep, ht⟩ := hsized.receive (hchunks chunk List.mem_cons_self)
    obtain ⟨u, hu⟩ := ih (fun c hc => hchunks c (List.mem_cons_of_mem _ hc)) ht
    refine ⟨u, ?_⟩
    rw [Machine.run_step _ hstep, hu]

end NoPorts.CSrv
