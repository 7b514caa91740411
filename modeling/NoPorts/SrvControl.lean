import NoPorts.EnrollmentSignature
import NoPorts.Lib.Machine

/-! The control channel of the daemon's Dart srv: bytes accumulate in a buffer, and a newline
ends a message; until the first one, so may the length of an older client's message. -/
namespace NoPorts.Srv
open Lib

def newLineCodeUnit : UInt8 := 10

/-- `oldMagic`, the length of `connect:$socketAESKey:$socketIV`. -/
def oldMagic : ℕ := 7 + 1 + 44 + 1 + 24

/-- What the listener calls: `utf8.decode`, none where it throws, and `addByte` of the
receive buffer, none where the buffer overflows. -/
structure Platform where
  utf8Decode : List UInt8 → Option String
  addByte : List UInt8 → UInt8 → Option (List UInt8)

/-- What the listeners of the chunks share; each holds the mutex for the whole of its chunk. -/
structure ControlListener where
  rcvBuffer : List UInt8
  receivedNewline : Bool
  /-- The messages `_handleControlMessage` has been called with. -/
  handled : List String
  deriving DecidableEq, Repr

namespace Platform
variable (pf : Platform)

def controlMsg (bytes : List UInt8) : Option String := (pf.utf8Decode bytes).map Signing.trim

/-- The messages of older clients in `toProcess`, up to one that does not decode. -/
def oldMessages : ℕ → List UInt8 → List String
  | 0, _ => []
  | n + 1, toProcess =>
    if toProcess = [] then []
    else
      match pf.controlMsg (toProcess.take oldMagic) with
      | none => []
      | some controlMsg => controlMsg :: oldMessages n (toProcess.drop oldMagic)

/-- The end of a chunk that leaves a multiple of `oldMagic` in the buffer. -/
def onOldMessages (s : ControlListener) (rcvBuffer : List UInt8) : ControlListener := { s with
  rcvBuffer := []
  handled := s.handled ++ pf.oldMessages (rcvBuffer.length / oldMagic) rcvBuffer }

/-- The listener, from one byte of a chunk to its end. -/
def onBytes (s : ControlListener) : List UInt8 → ControlListener
  | [] => s
  | element :: rest =>
    if element = newLineCodeUnit then
      match pf.controlMsg s.rcvBuffer with
      | none => onBytes { s with rcvBuffer := [], receivedNewline := true } rest
      | some controlMsg =>
        -- an empty message returns from the listener, whatever else the chunk holds
        if controlMsg = "" then { s with rcvBuffer := [], receivedNewline := true }
        else onBytes { s with
          rcvBuffer := [], receivedNewline := true, handled := s.handled ++ [controlMsg] } rest
    else
      match pf.addByte s.rcvBuffer element with
      | none => s
      | some rcvBuffer =>
        if s.receivedNewline = false ∧ rest = [] ∧ rcvBuffer.length % oldMagic = 0 then
          pf.onOldMessages s rcvBuffer
        else onBytes { s with rcvBuffer := rcvBuffer } rest

/-- A listener that has been given `chunks`. -/
def listen (s : ControlListener) (chunks : List (List UInt8)) : ControlListener :=
  chunks.foldl pf.onBytes s

end Platform

def start : ControlListener := ⟨[], false, []⟩

/-- The bytes of messages that each end with a newline. -/
def terminated (msgs : List (List UInt8)) : List UInt8 := msgs.flatMap (· ++ [newLineCodeUnit])

/-- A message the listener takes for one: on one line, no longer than the buffer, not blank. -/
structure Platform.IsMessage (pf : Platform) (m : List UInt8) : Prop where
  line : newLineCodeUnit ∉ m
  fits : m.length ≤ 4096
  notBlank : pf.controlMsg m ≠ some ""

/-- No chunk before the first newline ends where older clients' messages would. -/
def NoOldEnd (chunks : List (List UInt8)) : Prop :=
  ∀ pre post, chunks = pre ++ post → newLineCodeUnit ∉ pre.flatten → pre.flatten ≠ [] →
    pre.flatten.length % oldMagic ≠ 0

/-! ### One chunk -/

theorem terminated_line {line rest : List UInt8} {msgs : List (List UInt8)}
    (hmsgs : ∀ m ∈ msgs, newLineCodeUnit ∉ m) (hline : newLineCodeUnit ∉ line)
    (h : line ++ newLineCodeUnit :: rest = terminated msgs) :
    ∃ msgs', msgs = line :: msgs' ∧ rest = terminated msgs' := by
  cases msgs with
  | nil => simp [terminated] at h
  | cons m msgs =>
    have hm := hmsgs m List.mem_cons_self
    have heq : line ++ newLineCodeUnit :: rest = m ++ newLineCodeUnit :: terminated msgs := by
      rw [h]
      simp [terminated]
    rcases List.append_eq_append_iff.mp heq with ⟨mid, hmid, hrest⟩ | ⟨mid, hmid, hrest⟩
    · cases mid with
      | nil =>
        rw [List.append_nil] at hmid
        rw [List.nil_append] at hrest
        exact ⟨msgs, by rw [hmid], (List.cons.inj hrest).2⟩
      | cons c mid =>
        obtain rfl : newLineCodeUnit = c := (List.cons.inj hrest).1
        exact absurd (by simp [hmid]) hm
    · cases mid with
      | nil =>
        rw [List.append_nil] at hmid
        rw [List.nil_append] at hrest
        exact ⟨msgs, by rw [hmid], (List.cons.inj hrest).2.symm⟩
      | cons c mid =>
        obtain rfl : newLineCodeUnit = c := (List.cons.inj hrest).1
        exact absurd (by simp [hmid]) hline

/-- What is short of a newline is short of the end of a message. -/
theorem terminated_start {start rest : List UInt8} {msgs : List (List UInt8)} (hne : start ≠ [])
    (hstart : newLineCodeUnit ∉ start) (h : start ++ rest = terminated msgs) :
    ∃ m ∈ msgs, start.length ≤ m.length := by
  cases msgs with
  | nil => simp [terminated, hne] at h
  | cons m msgs =>
    refine ⟨m, List.mem_cons_self, ?_⟩
    have heq : start ++ rest = m ++ newLineCodeUnit :: terminated msgs := by
      rw [h]
      simp [terminated]
    rcases List.append_eq_append_iff.mp heq with ⟨mid, rfl, -⟩ | ⟨mid, rfl, hrest⟩
    · simp
    · cases mid with
      | nil => simp
      | cons c mid =>
        obtain rfl : newLineCodeUnit = c := (List.cons.inj hrest).1
        simp at hstart

/-- The listener has handled `done`, and holds `buffer`. -/
structure Platform.Reading (pf : Platform) (s : ControlListener) (done : List (List UInt8))
    (buffer : List UInt8) : Prop where
  rcvBuffer : s.rcvBuffer = buffer
  receivedNewline : s.receivedNewline = !done.isEmpty
  handled : s.handled = done.filterMap pf.controlMsg
  line : newLineCodeUnit ∉ buffer

variable {pf : Platform}

theorem Platform.Reading.onBytes
    (hadd : ∀ buffer b, buffer.length < 4096 → pf.addByte buffer b = some (buffer ++ [b]))
    {s : ControlListener} {done todo : List (List UInt8)} {buffer bytes later : List UInt8}
    (h : pf.Reading s done buffer) (htodo : ∀ m ∈ todo, pf.IsMessage m)
    (hbytes : buffer ++ bytes ++ later = terminated todo)
    (hold : done = [] → newLineCodeUnit ∉ buffer ++ bytes → bytes ≠ [] →
      (buffer ++ bytes).length % oldMagic ≠ 0) :
    ∃ done' todo' buffer', pf.Reading (pf.onBytes s bytes) done' buffer' ∧
      done' ++ todo' = done ++ todo ∧ buffer' ++ later = terminated todo' := by
  induction bytes generalizing s done todo buffer with
  | nil => exact ⟨done, todo, buffer, h, rfl, by simpa using hbytes⟩
  | cons element rest ih =>
    by_cases hnewline : element = newLineCodeUnit
    · subst hnewline
      have hcut : buffer ++ newLineCodeUnit :: (rest ++ later) = terminated todo := by
        rw [← hbytes]
        simp
      obtain ⟨todo', rfl, hrest⟩ := terminated_line (fun m hm => (htodo m hm).line) h.line hcut
      have hmessage := htodo buffer List.mem_cons_self
      have hnext (handled : List String)
          (hhandled : handled = (done ++ [buffer]).filterMap pf.controlMsg) :
          ∃ done' todo'' buffer', pf.Reading (pf.onBytes ⟨[], true, handled⟩ rest) done' buffer' ∧
            done' ++ todo'' = done ++ buffer :: todo' ∧ buffer' ++ later = terminated todo'' := by
        have hreading : pf.Reading ⟨[], true, handled⟩ (done ++ [buffer]) [] :=
          ⟨rfl, by simp, hhandled, List.not_mem_nil⟩
        obtain ⟨done', todo'', buffer', hr, hsame, hlater⟩ := ih hreading
          (fun m hm => htodo m (List.mem_cons_of_mem _ hm)) (by simpa using hrest)
          fun hnil => absurd hnil (by simp)
        exact ⟨done', todo'', buffer', hr, by rw [hsame]; simp, hlater⟩
      rw [Platform.onBytes, if_pos rfl, h.rcvBuffer]
      split
      · rename_i hdecode
        exact hnext _ (by rw [h.handled]; simp [hdecode])
      · rename_i controlMsg hdecode
        split
        · rename_i hempty
          exact absurd (hempty ▸ hdecode) hmessage.notBlank
        · exact hnext _ (by rw [h.handled]; simp [hdecode])
    · have hline : newLineCodeUnit ∉ buffer ++ [element] := by
        intro hmem
        rcases List.mem_append.mp hmem with hmem | hmem
        · exact h.line hmem
        · exact hnewline (List.mem_singleton.mp hmem).symm
      have hbytes' : buffer ++ [element] ++ rest ++ later = terminated todo := by
        rw [← hbytes]
        simp
      obtain ⟨m, hm, hle⟩ := terminated_start (by simp) hline
        (by rwa [List.append_assoc (buffer ++ [element])] at hbytes')
      have hroom : buffer.length < 4096 := by
        have hfits := (htodo m hm).fits
        rw [List.length_append, List.length_singleton] at hle
        omega
      rw [Platform.onBytes, if_neg hnewline, h.rcvBuffer, hadd buffer element hroom]
      simp only
      rw [if_neg]
      · refine ih ⟨rfl, h.receivedNewline, h.handled, hline⟩ htodo hbytes' fun hdone hno _ => ?_
        rw [List.append_assoc, List.singleton_append] at hno ⊢
        exact hold hdone hno (List.cons_ne_nil _ _)
      · rintro ⟨hfirst, rfl, hmagic⟩
        have hdone : done = [] := by
          rw [h.receivedNewline] at hfirst
          simpa using hfirst
        exact hold hdone hline (List.cons_ne_nil _ _) hmagic

/-! ### Any division into chunks -/

/-- What is left of the chunks, after `done` has been read from those before. -/
theorem Platform.Reading.listen
    (hadd : ∀ buffer b, buffer.length < 4096 → pf.addByte buffer b = some (buffer ++ [b]))
    {msgs : List (List UInt8)} (hmsgs : ∀ m ∈ msgs, pf.IsMessage m) {pre chunks : List (List UInt8)}
    (hdivision : NoOldEnd (pre ++ chunks)) {s : ControlListener} {done todo : List (List UInt8)}
    {buffer : List UInt8} (h : pf.Reading s done buffer) (hsame : done ++ todo = msgs)
    (hpre : terminated done ++ buffer = pre.flatten)
    (hbytes : buffer ++ chunks.flatten = terminated todo) :
    pf.Reading (pf.listen s chunks) msgs [] := by
  induction chunks generalizing pre s done todo buffer with
  | nil =>
    -- what is in the buffer would have to end with a newline
    have hend : buffer = terminated todo := by simpa using hbytes
    cases todo with
    | nil =>
      obtain rfl : done = msgs := by simpa using hsame
      obtain rfl : buffer = [] := hend
      exact h
    | cons m todo => exact absurd h.line (by simp [hend, terminated])
  | cons bytes chunks ih =>
    have htodo : ∀ m ∈ todo, pf.IsMessage m :=
      fun m hm => hmsgs m (hsame ▸ List.mem_append_right done hm)
    have hold : done = [] → newLineCodeUnit ∉ buffer ++ bytes → bytes ≠ [] →
        (buffer ++ bytes).length % oldMagic ≠ 0 := by
      intro hdone hline hne
      obtain rfl : buffer = pre.flatten := by simpa [hdone, terminated] using hpre
      have hflat : (pre ++ [bytes]).flatten = pre.flatten ++ bytes := by simp
      have hpos := hdivision (pre ++ [bytes]) chunks (by simp) (by rwa [hflat]) (by simp [hne])
      rwa [hflat] at hpos
    obtain ⟨done', todo', buffer', hreading, hsame', hbytes'⟩ :=
      h.onBytes hadd htodo (by simpa using hbytes) hold
    have hall : terminated done' ++ terminated todo' = terminated done ++ terminated todo := by
      simp only [terminated, ← List.flatMap_append, hsame']
    have hdivision' : NoOldEnd (pre ++ [bytes] ++ chunks) := by simpa using hdivision
    apply ih hdivision' hreading (hsame'.trans hsame) _ hbytes'
    apply (List.append_left_inj chunks.flatten).mp
    calc terminated done' ++ buffer' ++ chunks.flatten
        = terminated done ++ terminated todo := by rw [List.append_assoc, hbytes', hall]
      _ = terminated done ++ (buffer ++ (bytes ++ chunks.flatten)) := by simp [← hbytes]
      _ = (pre ++ [bytes]).flatten ++ chunks.flatten := by
        rw [← List.append_assoc, hpre]
        simp

theorem Platform.Reading.start : pf.Reading start [] [] :=
  ⟨rfl, rfl, rfl, List.not_mem_nil⟩

theorem Platform.Reading.eq {s : ControlListener} {done : List (List UInt8)}
    (h : pf.Reading s done []) : s = ⟨[], !done.isEmpty, done.filterMap pf.controlMsg⟩ := by
  rw [← h.rcvBuffer, ← h.receivedNewline, ← h.handled]

/-- A message in a chunk of its own ends with a newline before it could pass for an old one. -/
theorem noOldEnd_whole (msgs : List (List UInt8)) : NoOldEnd (msgs.map (· ++ [newLineCodeUnit])) := by
  intro pre post hcut hline hne
  cases pre with
  | nil => exact absurd rfl hne
  | cons bytes pre =>
    cases msgs with
    | nil => simp at hcut
    | cons m msgs =>
      obtain rfl : m ++ [newLineCodeUnit] = bytes := (List.cons.inj hcut).1
      exact absurd (by simp) hline

/-! ### The messages of older clients -/

theorem Platform.onBytes_old
    (hadd : ∀ buffer b, buffer.length < 4096 → pf.addByte buffer b = some (buffer ++ [b]))
    {s : ControlListener} {bytes : List UInt8} (hfirst : s.receivedNewline = false)
    (hline : newLineCodeUnit ∉ bytes) (hfits : (s.rcvBuffer ++ bytes).length ≤ 4096) :
    pf.onBytes s bytes =
      if bytes ≠ [] ∧ (s.rcvBuffer ++ bytes).length % oldMagic = 0 then
        pf.onOldMessages s (s.rcvBuffer ++ bytes)
      else { s with rcvBuffer := s.rcvBuffer ++ bytes } := by
  induction bytes generalizing s with
  | nil => simp [Platform.onBytes]
  | cons element rest ih =>
    have hne : element ≠ newLineCodeUnit := fun h => hline (h ▸ List.mem_cons_self)
    have hroom : s.rcvBuffer.length < 4096 := by
      rw [List.length_append, List.length_cons] at hfits
      omega
    have hcut : s.rcvBuffer ++ [element] ++ rest = s.rcvBuffer ++ element :: rest := by simp
    rw [Platform.onBytes, if_neg hne, hadd _ _ hroom]
    simp only
    by_cases hrest : rest = []
    · subst hrest
      simp only [hfirst, Platform.onBytes, ne_eq, List.cons_ne_nil, not_false_eq_true, true_and]
    · have hnext := @ih { s with rcvBuffer := s.rcvBuffer ++ [element] } hfirst
        (fun h => hline (List.mem_cons_of_mem _ h)) (by rwa [hcut])
      simp only [hcut] at hnext
      rw [if_neg fun h => hrest h.2.1, hnext]
      simp only [ne_eq, hrest, List.cons_ne_nil, not_false_eq_true, true_and]
      rfl

/-- Nothing is done while neither a newline nor the length of an old message ends a chunk. -/
theorem Platform.listen_waiting
    (hadd : ∀ buffer b, buffer.length < 4096 → pf.addByte buffer b = some (buffer ++ [b]))
    {pre chunks : List (List UInt8)} (hdivision : NoOldEnd (pre ++ chunks))
    (hline : newLineCodeUnit ∉ (pre ++ chunks).flatten) (hfits : (pre ++ chunks).flatten.length ≤ 4096) :
    pf.listen ⟨pre.flatten, false, []⟩ chunks = ⟨(pre ++ chunks).flatten, false, []⟩ := by
  induction chunks generalizing pre with
  | nil => simp [Platform.listen]
  | cons bytes chunks ih =>
    have hcut : pre ++ [bytes] ++ chunks = pre ++ bytes :: chunks := by simp
    have hflat : (pre ++ [bytes]).flatten = pre.flatten ++ bytes := by simp
    have hline' : newLineCodeUnit ∉ (pre ++ [bytes]).flatten := by
      intro h
      apply hline
      rw [← hcut, List.flatten_append]
      exact List.mem_append_left _ h
    have hfits' : (pre ++ [bytes]).flatten.length ≤ 4096 := by
      rw [← hcut, List.flatten_append, List.length_append] at hfits
      omega
    have honBytes : pf.onBytes ⟨pre.flatten, false, []⟩ bytes = ⟨(pre ++ [bytes]).flatten, false, []⟩ := by
      rw [pf.onBytes_old hadd rfl (fun h => hline' (by simp [h])) (by rwa [← hflat]), if_neg, hflat]
      rintro ⟨hne, hmagic⟩
      exact hdivision (pre ++ [bytes]) chunks hcut.symm hline' (by simp [hne]) (by rwa [hflat])
    calc pf.listen ⟨pre.flatten, false, []⟩ (bytes :: chunks)
        = pf.listen (pf.onBytes ⟨pre.flatten, false, []⟩ bytes) chunks := rfl
      _ = pf.listen ⟨(pre ++ [bytes]).flatten, false, []⟩ chunks := by rw [honBytes]
      _ = ⟨(pre ++ bytes :: chunks).flatten, false, []⟩ := by
        rw [← hcut]
        apply ih <;> rwa [hcut]

/-- Messages that no chunk ends as an old one are handled, whatever the chunks. -/
theorem Platform.listen_terminated
    (hadd : ∀ buffer b, buffer.length < 4096 → pf.addByte buffer b = some (buffer ++ [b]))
    {msgs chunks : List (List UInt8)} (hmsgs : ∀ m ∈ msgs, pf.IsMessage m)
    (hdivision : NoOldEnd chunks) (hbytes : chunks.flatten = terminated msgs) :
    pf.listen start chunks = ⟨[], !msgs.isEmpty, msgs.filterMap pf.controlMsg⟩ := by
  have hdivision' : NoOldEnd ([] ++ chunks) := hdivision
  apply Platform.Reading.eq
  exact Platform.Reading.start.listen hadd hmsgs hdivision' (List.nil_append msgs) rfl hbytes

theorem flatten_whole (msgs : List (List UInt8)) :
    (msgs.map (· ++ [newLineCodeUnit])).flatten = terminated msgs :=
  List.flatMap_def.symm

/-- Each message is handled once and in its order, whatever the chunks, unless an old client's
messages could end where one of them does; there the bytes are handled as those. -/
theorem listen_messages (pf : Platform)
    (hadd : ∀ buffer b, buffer.length < 4096 → pf.addByte buffer b = some (buffer ++ [b])) :
    (∀ msgs chunks, (∀ m ∈ msgs, pf.IsMessage m) → chunks.flatten = terminated msgs →
      NoOldEnd chunks →
        pf.listen start chunks = pf.listen start (msgs.map (· ++ [newLineCodeUnit])) ∧
          (pf.listen start chunks).handled = msgs.filterMap pf.controlMsg) ∧
    ∀ chunks last, newLineCodeUnit ∉ (chunks ++ [last]).flatten → last ≠ [] →
      (chunks ++ [last]).flatten.length ≤ 4096 → NoOldEnd chunks →
        (chunks ++ [last]).flatten.length % oldMagic = 0 →
          pf.listen start (chunks ++ [last]) = ⟨[], false,
            pf.oldMessages ((chunks ++ [last]).flatten.length / oldMagic) (chunks ++ [last]).flatten⟩ := by
  constructor
  · intro msgs chunks hmsgs hbytes hdivision
    rw [pf.listen_terminated hadd hmsgs hdivision hbytes,
      pf.listen_terminated hadd hmsgs (noOldEnd_whole msgs) (flatten_whole msgs)]
    exact ⟨rfl, rfl⟩
  · intro chunks last hline hne hfits hdivision hmagic
    have hflat : (chunks ++ [last]).flatten = chunks.flatten ++ last := by simp
    rw [hflat] at hline hfits hmagic ⊢
    have hwait : pf.listen start chunks = ⟨chunks.flatten, false, []⟩ := by
      have hdivision' : NoOldEnd ([] ++ chunks) := hdivision
      apply pf.listen_waiting hadd hdivision'
      · exact fun h => hline (List.mem_append_left _ h)
      · rw [List.length_append] at hfits
        rw [List.nil_append]
        omega
    calc pf.listen start (chunks ++ [last])
        = pf.onBytes (pf.listen start chunks) last := by simp [Platform.listen]
      _ = pf.onOldMessages ⟨chunks.flatten, false, []⟩ (chunks.flatten ++ last) := by
        rw [hwait, pf.onBytes_old hadd rfl (fun h => hline (List.mem_append_right _ h)) hfits,
          if_pos ⟨hne, hmagic⟩]
      _ = ⟨[], false, pf.oldMessages ((chunks.flatten ++ last).length / oldMagic)
            (chunks.flatten ++ last)⟩ := rfl

def asciiPlatform : Platform where
  utf8Decode bytes :=
    if bytes.all (· < 128) then some (String.ofList (bytes.map fun b => Char.ofNat b.toNat)) else none
  addByte buffer b := if buffer.length < 4096 then some (buffer ++ [b]) else none

/-- A connect message with two keys of ones and twos. -/
def twinned : List UInt8 :=
  [99, 111, 110, 110, 101, 99, 116, 58] ++ List.replicate 44 49 ++ [58] ++ List.replicate 24 49 ++
    [58] ++ List.replicate 44 50 ++ [58] ++ List.replicate 24 50

theorem asciiPlatform_adds (buffer : List UInt8) (b : UInt8) (h : buffer.length < 4096) :
    asciiPlatform.addByte buffer b = some (buffer ++ [b]) :=
  if_pos h

theorem listen_messages_sample :
    (asciiPlatform.listen start [[104, 105], [10, 104], [105, 10]]).handled = ["hi", "hi"] := by
  have hmessages : ∀ m ∈ [[104, 105], [104, 105]], asciiPlatform.IsMessage m := by
    intro m hm
    obtain rfl : m = [104, 105] := by simpa using hm
    exact ⟨by decide, by decide, by decide⟩
  have hdivision : NoOldEnd [[104, 105], [10, 104], [105, 10]] := by
    intro pre post hcut _ hne
    have hlen := congrArg (fun chunks => chunks.flatten.length) hcut
    have hpos := List.length_pos_iff.mpr hne
    simp only [List.flatten_append, List.length_append] at hlen
    rw [Nat.mod_eq_of_lt]
    · omega
    · change 6 = _ at hlen
      simp only [oldMagic]
      omega
  exact ((listen_messages asciiPlatform asciiPlatform_adds).1 [[104, 105], [104, 105]]
    [[104, 105], [10, 104], [105, 10]] hmessages rfl hdivision).2

theorem twinned_handled :
    (asciiPlatform.listen start [twinned.take 77, twinned.drop 77 ++ [newLineCodeUnit]]).handled ≠
      (asciiPlatform.listen start ([twinned].map (· ++ [newLineCodeUnit]))).handled := by
  intro h
  have hmessage : ∀ m ∈ [twinned], asciiPlatform.IsMessage m := by
    intro m hm
    rw [List.mem_singleton.mp hm]
    refine ⟨by decide +kernel, by decide +kernel, fun hblank => ?_⟩
    have hascii : twinned.all (· < 128) = true := by decide +kernel
    have htext : trimBy (fun c => Signing.isWhitespace c || c.toNat == 0x85)
        (twinned.map fun b => Char.ofNat b.toNat) ≠ [] := by
      decide +kernel
    simp only [Platform.controlMsg, asciiPlatform, hascii, if_true, Option.map_some, Signing.trim,
      String.toList_ofList, Option.some.injEq] at hblank
    apply htext
    simpa using congrArg String.toList hblank
  have htwo : (asciiPlatform.listen start
      [twinned.take 77, twinned.drop 77 ++ [newLineCodeUnit]]).handled.length = 2 := by
    decide +kernel
  -- whole, it is one message, and handled as one at the most
  have hone := List.length_filterMap_le asciiPlatform.controlMsg [twinned]
  rw [h, asciiPlatform.listen_terminated asciiPlatform_adds hmessage (noOldEnd_whole _)
    (flatten_whole _)] at htwo
  simp only [htwo, List.length_singleton] at hone
  omega

/-- A blank line ends the chunk that it comes in. -/
def blankFirst : List (List UInt8) := [[32], [104, 105]]

theorem listen_blank : (asciiPlatform.listen start [terminated blankFirst]).handled = [] ∧
    (asciiPlatform.listen start (blankFirst.map (· ++ [newLineCodeUnit]))).handled = ["hi"] := by
  decide +kernel

/-- A line that is a byte longer than the buffer. -/
def overlong : List UInt8 := List.replicate 4096 97 ++ [97]

theorem listen_full {front : List UInt8} (hline : newLineCodeUnit ∉ front) (hfull : front.length = 4096) :
    (asciiPlatform.listen start [front, [97] ++ [newLineCodeUnit]]).handled = [] := by
  have hwait : asciiPlatform.onBytes start front = ⟨front, false, []⟩ := by
    rw [asciiPlatform.onBytes_old asciiPlatform_adds (s := start) rfl hline hfull.le, if_neg]
    · rfl
    · rintro ⟨-, hmagic⟩
      rw [start, List.nil_append, hfull] at hmagic
      exact absurd hmagic (by decide)
  have hover : asciiPlatform.addByte front 97 = none := if_neg hfull.not_lt
  rw [Platform.listen, List.foldl_cons, hwait, List.foldl_cons, List.foldl_nil, List.singleton_append,
    Platform.onBytes, if_neg (by decide)]
  dsimp only
  rw [hover]

/-- Cut where an old client's message would end, a connect message is handled as two; a blank line keeps what
follows it in its chunk from being handled; and a line longer than the buffer is not handled. -/
theorem listen_cut_twinned :
    ([twinned.take 77, twinned.drop 77 ++ [newLineCodeUnit]].flatten = terminated [twinned] ∧
      (asciiPlatform.listen start [twinned.take 77, twinned.drop 77 ++ [newLineCodeUnit]]).handled ≠
        (asciiPlatform.listen start ([twinned].map (· ++ [newLineCodeUnit]))).handled) ∧
    (asciiPlatform.listen start [terminated blankFirst]).handled ≠
      (asciiPlatform.listen start (blankFirst.map (· ++ [newLineCodeUnit]))).handled ∧
    [List.replicate 4096 97, [97] ++ [newLineCodeUnit]].flatten = terminated [overlong] ∧
      (asciiPlatform.listen start [List.replicate 4096 97, [97] ++ [newLineCodeUnit]]).handled = [] := by
  refine ⟨⟨by decide +kernel, twinned_handled⟩, ?_, ?_, listen_full ?_ List.length_replicate⟩
  · rw [listen_blank.1, listen_blank.2]
    exact (List.cons_ne_nil _ _).symm
  · rw [terminated, List.flatMap_singleton, List.flatten_cons, List.flatten_cons, List.flatten_nil, List.append_nil,
      overlong, List.append_assoc]
  · exact fun hmem => absurd (List.eq_of_mem_replicate hmem) (by decide)

end NoPorts.Srv
