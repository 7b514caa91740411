import Mathlib.Data.List.Induction
import Mathlib.Data.List.Infix
import NoPorts.EnrollmentSignature
import NoPorts.Lib.Seen

/-! `SrvImplExec.run`, once its process runs: what the process writes comes in chunks, each of them decoded and
searched on its own, until one has a line that tells whether the srv started. -/
namespace NoPorts.SrvExec
open Lib

def startedString : List Char := "rv started successfully".toList

def completedWithExceptionString : List Char := "Exception running srv".toList

/-- The process's streams. -/
inductive Stdio where
  | stdout
  | stderr
  deriving DecidableEq, Repr

/-- `rvPortBound`. -/
inductive Completer where
  | pending
  | completed
  | failed
  deriving DecidableEq, Repr

inductive Outcome where
  | awaiting
  | returned
  | threw
  deriving DecidableEq, Repr

structure State where
  rvPortBound : Completer
  outcome : Outcome
  /-- `p.kill()` has been called. -/
  killed : Bool
  /-- A listener has thrown. -/
  uncaught : Bool
  deriving DecidableEq, Repr

inductive Event where
  | chunk (stdio : Stdio) (l : List UInt8)
  /-- The stream has an error. -/
  | error (stdio : Stdio)
  /-- The fifteen seconds are over. -/
  | timeout
  deriving DecidableEq, Repr

def initial : State := ⟨.pending, .awaiting, false, false⟩

/-- `String.trim`. -/
def trim (text : List Char) : List Char := trimBy (fun c => Signing.isWhitespace c || c.toNat == 0x85) text

/-- `utf8.decode(l).trim().split('\n')`; none when the decoding throws. -/
def allLines (l : List UInt8) : Option (List (List Char)) :=
  (Utf8.decodeText l).map fun text => (trim text).splitOn '\n'

/-- One line, for the listener of either stream. -/
def onLine (rvPortBound : Completer) (s : List Char) : Completer :=
  if startedString <:+: s ∧ rvPortBound = .pending then .completed
  else if completedWithExceptionString <:+: s then
    if rvPortBound = .pending then .failed else rvPortBound
  else rvPortBound

/-- `run` awaits the completer, and kills the process when it throws. -/
def settle (s : State) (rvPortBound : Completer) : State :=
  match s.outcome, rvPortBound with
  | .awaiting, .completed => { s with rvPortBound, outcome := .returned }
  | .awaiting, .failed => { s with rvPortBound, outcome := .threw, killed := true }
  | _, _ => { s with rvPortBound }

def step (s : State) : Event → State
  | .chunk _ l =>
    match allLines l with
    | none => { s with uncaught := true }
    | some lines => settle s (lines.foldl onLine s.rvPortBound)
  | .error .stdout => s
  | .error .stderr => if s.rvPortBound = .pending then settle s .failed else s
  | .timeout => if s.outcome = .awaiting then { s with outcome := .threw, killed := true } else s

def run (es : List Event) : State := es.foldl step initial

/-! ### What the process puts out, however it is cut -/

/-- A byte on a stream, or the end of the time limit. -/
inductive Output where
  | byte (stdio : Stdio) (b : UInt8)
  | timeout
  deriving DecidableEq, Repr

def Event.output : Event → List Output
  | .chunk stdio l => l.map (.byte stdio)
  | .error _ => []
  | .timeout => [.timeout]

def history (es : List Event) : List Output := es.flatMap Event.output

/-- The bytes of one stream. -/
def bytesOf (stdio : Stdio) (h : List Output) : List UInt8 :=
  h.filterMap fun
    | .byte from_ b => if from_ = stdio then some b else none
    | .timeout => none

def newline : UInt8 := 10

/-- A line of the stream contains the marker. -/
def Shows (marker : List Char) (bytes : List UInt8) : Prop :=
  ∃ line ∈ bytes.splitOn newline, Utf8.encode marker <:+: line

/-- Within the time limit one marker is on a line of a stream, with the other on none yet. -/
def First (marker other : List Char) (h : List Output) : Prop :=
  ∃ p, p <+: h ∧ .timeout ∉ p ∧ (∃ stdio, Shows marker (bytesOf stdio p)) ∧
    ∀ stdio, ¬Shows other (bytesOf stdio p)

/-- A line containing `startedString` is output within the time limit, and before any with
`completedWithExceptionString`. -/
def Started (h : List Output) : Prop := First startedString completedWithExceptionString h

def Failed (h : List Output) : Prop := First completedWithExceptionString startedString h

structure Recognised (h : List Output) (s : State) : Prop where
  returned : s.outcome = .returned ↔ Started h
  /-- Otherwise it throws, with the process killed. -/
  threw : s.outcome = .threw ↔ ¬Started h ∧ (Failed h ∨ .timeout ∈ h)
  killed : s.killed = true ↔ s.outcome = .threw
  uncaught : s.uncaught = false

/-- Nothing that tells how the start went has been output, and the time limit is not over. -/
structure Undecided (h : List Output) : Prop where
  time : .timeout ∉ h
  started : ∀ stdio, ¬Shows startedString (bytesOf stdio h)
  exception : ∀ stdio, ¬Shows completedWithExceptionString (bytesOf stdio h)

def markers : List (List Char) := [startedString, completedWithExceptionString]

/-- A chunk that comes after the output `h`: it is UTF-8 on its own; and, with nothing decided yet, no marker
that began before it ends in it, and of its lines each with both markers has the started one first. And no error
of stderr comes with nothing decided. -/
def Clean (h : List Output) : Event → Prop
  | .chunk stdio l => ∃ lines, allLines l = some lines ∧ (Undecided h →
      (∀ marker ∈ markers, ¬Cut (Utf8.encode marker) (bytesOf stdio h) l) ∧
      ∀ line ∈ lines, startedString <:+: line → completedWithExceptionString <:+: line →
        SeenFirst startedString completedWithExceptionString line)
  | .error stdio => stdio = .stderr → ¬Undecided h
  | .timeout => True

def CleanRun (es : List Event) : Prop := ∀ pre e post, es = pre ++ e :: post → Clean (history pre) e

/-! ### The markers -/

/-- What the proofs need of a marker: ASCII on one line, with nothing at its ends that could be trimmed off. -/
structure IsMarker (m : List Char) : Prop where
  ascii : ∀ c ∈ m, c.toNat < 0x80
  oneLine : '\n' ∉ m ∧ newline ∉ Utf8.encode m
  first : ∃ a ∈ m.head?, Signing.isWhitespace a = false ∧ a.toNat ≠ 0x85
  last : ∃ a ∈ m.getLast?, Signing.isWhitespace a = false ∧ a.toNat ≠ 0x85

theorem isMarker_startedString : IsMarker startedString where
  ascii := by
    have hall : startedString.all (fun c => c.toNat < 0x80) = true := by decide
    exact fun c hc => of_decide_eq_true (List.all_eq_true.mp hall c hc)
  oneLine := by decide
  first := ⟨'r', rfl, by decide⟩
  last := ⟨'y', rfl, by decide⟩

theorem isMarker_exception : IsMarker completedWithExceptionString where
  ascii := by
    have hall : completedWithExceptionString.all (fun c => c.toNat < 0x80) = true := by decide
    exact fun c hc => of_decide_eq_true (List.all_eq_true.mp hall c hc)
  oneLine := by decide
  first := ⟨'E', rfl, by decide⟩
  last := ⟨'v', rfl, by decide⟩

section Markers
variable {m n : List Char} {l bytes : List UInt8} {lines : List (List Char)}

theorem IsMarker.ne_nil (h : IsMarker m) : m ≠ [] := by
  rintro rfl
  obtain ⟨a, ha, -⟩ := h.first
  cases ha

theorem IsMarker.encode_ne_nil (h : IsMarker m) : Utf8.encode m ≠ [] := by
  cases m with
  | nil => exact absurd rfl h.ne_nil
  | cons c m => exact fun hnil => absurd (List.append_eq_nil_iff.mp hnil).1 (Utf8.encode_spec c).1.ne_nil

/-- A line of the stream contains the marker exactly when the stream does. -/
theorem shows_iff (h : IsMarker m) : Shows m bytes ↔ Utf8.encode m <:+: bytes := by
  constructor
  · rintro ⟨line, hline, hm⟩
    obtain ⟨b₁, b₂, rfl, -⟩ := mem_splitOn_iff.mp hline
    exact hm.trans (List.infix_append _ _ _)
  · intro hm
    by_contra hnot
    have hlines : ∀ line ∈ bytes.splitOn newline, ¬Utf8.encode m <:+: line := by
      intro line hline hin
      exact hnot ⟨line, hline, hin⟩
    have hall := not_infix_intercalate h.encode_ne_nil h.oneLine.2 hlines
    rw [List.intercalate_splitOn] at hall
    exact hall hm

/-- The lines searched are the chunk's text, but for what is no part of a marker at its ends. -/
theorem allLines_spec (h : allLines l = some lines) : ∃ front back : List Char,
    Utf8.encode (front ++ ['\n'].intercalate lines ++ back) = l ∧
      ∀ c, c ∈ front ∨ c ∈ back → Signing.isWhitespace c = true ∨ c.toNat = 0x85 := by
  obtain ⟨text, htext, rfl⟩ := Option.map_eq_some_iff.mp h
  obtain ⟨bom, hl, hbom⟩ := encode_of_decodeText htext
  obtain ⟨front, back, hsplit, hfront, hback, -⟩ :=
    trimBy_spec (fun c => Signing.isWhitespace c || c.toNat == 0x85) text
  have hspace (c : Char) (hc : (Signing.isWhitespace c || c.toNat == 0x85) = true) :
      Signing.isWhitespace c = true ∨ c.toNat = 0x85 := by simpa using hc
  refine ⟨bom ++ front, back, ?_, ?_⟩
  · rw [List.intercalate_splitOn, trim, List.append_assoc bom, List.append_assoc bom, ← hsplit]
    exact hl
  · rintro c (hc | hc)
    · rcases List.mem_append.mp hc with hc | hc
      · left
        rw [hbom c hc]
        decide
      · exact hspace c (hfront c hc)
    · exact hspace c (hback c hc)

/-- No character of a marker is trimmed off. -/
theorem not_mem_of_ends {a : Char} {side : List Char}
    (hside : ∀ c ∈ side, Signing.isWhitespace c = true ∨ c.toNat = 0x85) (hspace : Signing.isWhitespace a = false)
    (hnext : a.toNat ≠ 0x85) : a ∉ side := by
  intro hin
  rcases hside a hin with hyes | hyes
  · exact Bool.noConfusion (hspace.symm.trans hyes)
  · exact hnext hyes

/-- A marker that none of the lines searched has, the chunk does not have. -/
theorem not_infix_of_lines (hm : IsMarker m) (h : allLines l = some lines) (hlines : ∀ line ∈ lines, ¬m <:+: line) :
    ¬Utf8.encode m <:+: l := by
  obtain ⟨front, back, rfl, hends⟩ := allLines_spec h
  rw [encode_infix_iff hm.ascii hm.ne_nil]
  obtain ⟨a, ha, hfirst, hfirst'⟩ := hm.first
  obtain ⟨z, hz, hlast, hlast'⟩ := hm.last
  have hnotFront : a ∉ front := not_mem_of_ends (fun c hc => hends c (Or.inl hc)) hfirst hfirst'
  have hnotBack : z ∉ back := not_mem_of_ends (fun c hc => hends c (Or.inr hc)) hlast hlast'
  have hmiddle := not_infix_intercalate hm.ne_nil hm.oneLine.1 hlines
  obtain ⟨hfront, hcut⟩ := not_cut_of_head ha hnotFront (t := ['\n'].intercalate lines)
  obtain ⟨hback, hcut'⟩ := not_cut_of_last hz hnotBack (s := front ++ ['\n'].intercalate lines)
  exact not_infix_append (not_infix_append hfront hcut hmiddle) hcut' hback

/-- The marker that the lines searched show first, the chunk does. -/
theorem seenFirst_of_lines (hm : IsMarker m) (hn : IsMarker n) {pre post : List (List Char)} {line : List Char}
    (h : allLines l = some (pre ++ line :: post)) (hpre : ∀ s ∈ pre, ¬n <:+: s) (hline : SeenFirst m n line) :
    SeenFirst (Utf8.encode m) (Utf8.encode n) l := by
  obtain ⟨front, back, rfl, hends⟩ := allLines_spec h
  apply seenFirst_encode hm.ascii hn.ascii hm.ne_nil hn.ne_nil
  obtain ⟨a, ha, hfirst, hfirst'⟩ := hn.first
  have hnotFront : a ∉ front := not_mem_of_ends (fun c hc => hends c (Or.inl hc)) hfirst hfirst'
  have hlines : SeenFirst m n (['\n'].intercalate (pre ++ line :: post)) :=
    seenFirst_intercalate hn.oneLine.1 hpre hline
  obtain ⟨hfront, hcut⟩ := not_cut_of_head ha hnotFront (t := ['\n'].intercalate (pre ++ line :: post))
  exact (hlines.after hfront hcut).mono (List.prefix_append _ back)

end Markers

/-! ### The search -/

theorem foldl_onLine_of_ne {c : Completer} (h : c ≠ .pending) (lines : List (List Char)) :
    lines.foldl onLine c = c := by
  induction lines with
  | nil => rfl
  | cons s lines ih =>
    have hc : onLine c s = c := by simp [onLine, h]
    rw [List.foldl_cons, hc, ih]

/-- No line of `lines` has a marker. -/
def Silent (lines : List (List Char)) : Prop := ∀ s ∈ lines, ¬startedString <:+: s ∧ ¬completedWithExceptionString <:+: s

/-- What a pending completer comes to be by the first line with a marker. -/
theorem search_spec (lines : List (List Char)) :
    (lines.foldl onLine .pending = .pending ∧ Silent lines) ∨
    (∃ pre line post, lines = pre ++ line :: post ∧ Silent pre ∧
      (lines.foldl onLine .pending = .completed ∧ startedString <:+: line ∨
        lines.foldl onLine .pending = .failed ∧ completedWithExceptionString <:+: line ∧
          ¬startedString <:+: line)) := by
  induction lines with
  | nil => exact Or.inl ⟨rfl, fun s hs => absurd hs List.not_mem_nil⟩
  | cons s lines ih =>
    have hnone : Silent [] := fun s hs => absurd hs List.not_mem_nil
    rw [List.foldl_cons]
    by_cases hstarted : startedString <:+: s
    · have hs : onLine .pending s = .completed := by simp [onLine, hstarted]
      rw [hs, foldl_onLine_of_ne (by decide)]
      exact Or.inr ⟨[], s, lines, rfl, hnone, Or.inl ⟨rfl, hstarted⟩⟩
    · by_cases hexception : completedWithExceptionString <:+: s
      · have hs : onLine .pending s = .failed := by simp [onLine, hstarted, hexception]
        rw [hs, foldl_onLine_of_ne (by decide)]
        exact Or.inr ⟨[], s, lines, rfl, hnone, Or.inr ⟨rfl, hexception, hstarted⟩⟩
      · have hs : onLine .pending s = .pending := by simp [onLine, hstarted, hexception]
        have hcons {ls : List (List Char)} (h : Silent ls) : Silent (s :: ls) :=
          List.forall_mem_cons.mpr ⟨⟨hstarted, hexception⟩, h⟩
        rw [hs]
        rcases ih with ⟨hpending, hsilent⟩ | ⟨pre, line, post, rfl, hpre, hline⟩
        · exact Or.inl ⟨hpending, hcons hsilent⟩
        · exact Or.inr ⟨s :: pre, line, post, rfl, hcons hpre, hline⟩

/-! ### The history -/

section History
variable {m n : List Char} {h h' : List Output} {stdio : Stdio} {l t : List UInt8}

theorem bytesOf_append (stdio : Stdio) (h h' : List Output) :
    bytesOf stdio (h ++ h') = bytesOf stdio h ++ bytesOf stdio h' := List.filterMap_append

theorem bytesOf_bytes (stdio : Stdio) (l : List UInt8) : bytesOf stdio (l.map (.byte stdio)) = l := by
  induction l with
  | nil => rfl
  | cons b l ih =>
    rw [List.map_cons, bytesOf, List.filterMap_cons_some (b := b) (by simp)]
    exact congrArg _ ih

theorem bytesOf_other {other : Stdio} (hother : other ≠ stdio) (l : List UInt8) :
    bytesOf other (l.map (.byte stdio)) = [] := by
  apply List.filterMap_eq_nil_iff.mpr
  intro o ho
  obtain ⟨b, -, rfl⟩ := List.mem_map.mp ho
  exact if_neg hother.symm

theorem timeout_notMem_bytes : Output.timeout ∉ l.map (.byte stdio) := by
  intro hin
  obtain ⟨b, -, hb⟩ := List.mem_map.mp hin
  cases hb

theorem Shows.mono (hm : IsMarker m) (hshows : Shows m (bytesOf stdio h)) (hh : h <+: h') :
    Shows m (bytesOf stdio h') := by
  rw [shows_iff hm] at hshows ⊢
  obtain ⟨r, rfl⟩ := hh
  rw [bytesOf_append]
  exact List.infix_append_of_infix_left hshows

theorem First.mono (hfirst : First m n h) (hh : h <+: h') : First m n h' := by
  obtain ⟨p, hp, htime, hm, hn⟩ := hfirst
  exact ⟨p, hp.trans hh, htime, hm, hn⟩

/-- Only one of two markers can be the first. -/
theorem First.not_first (hm : IsMarker m) (hn : IsMarker n) (hfirst : First m n h) : ¬First n m h := by
  rintro ⟨p', hp', -, ⟨stdio', hshown'⟩, hnot'⟩
  obtain ⟨p, hp, -, ⟨stdio, hshown⟩, hnot⟩ := hfirst
  rcases List.prefix_or_prefix_of_prefix hp hp' with hle | hle
  · exact hnot' stdio (hshown.mono hm hle)
  · exact hnot stdio' (hshown'.mono hn hle)

/-- The time limit is over with nothing decided. -/
def TimedOut (h : List Output) : Prop := ∃ p, p ++ [.timeout] <+: h ∧ Undecided p

theorem TimedOut.mono (hover : TimedOut h) (hh : h <+: h') : TimedOut h' := by
  obtain ⟨p, hp, hundecided⟩ := hover
  exact ⟨p, hp.trans hh, hundecided⟩

theorem TimedOut.timeout_mem (hover : TimedOut h) : .timeout ∈ h := by
  obtain ⟨p, hp, -⟩ := hover
  exact hp.subset (List.mem_append_right p (List.mem_singleton_self _))

/-- What is decided within the time limit is decided before its end. -/
theorem First.not_timedOut (hm : IsMarker m) (hundecided : ∀ p, Undecided p → ∀ stdio, ¬Shows m (bytesOf stdio p))
    (hfirst : First m n h) : ¬TimedOut h := by
  rintro ⟨p', hp', hp'undecided⟩
  obtain ⟨p, hp, htime, ⟨stdio, hshown⟩, -⟩ := hfirst
  apply hundecided p' hp'undecided stdio
  apply hshown.mono hm
  rcases List.prefix_or_prefix_of_prefix hp hp' with hle | hle
  · rcases List.prefix_concat_iff.mp hle with rfl | hle
    · exact absurd (List.mem_append_right p' (List.mem_singleton_self _)) htime
    · exact hle
  · exact absurd (hle.subset (List.mem_append_right p' (List.mem_singleton_self _))) htime

theorem Undecided.not_first (hundecided : Undecided h) : ¬Started h ∧ ¬Failed h := by
  constructor
  · rintro ⟨p, hp, -, ⟨stdio, hshown⟩, -⟩
    exact hundecided.started stdio (hshown.mono isMarker_startedString hp)
  · rintro ⟨p, hp, -, ⟨stdio, hshown⟩, -⟩
    exact hundecided.exception stdio (hshown.mono isMarker_exception hp)

/-- A stream's bytes with the marker in them by some point, and not yet the other. -/
theorem first_of_bytes (hm : IsMarker m) (hn : IsMarker n) (htime : .timeout ∉ h)
    (hother : ∀ stdio, ¬Shows n (bytesOf stdio h)) (ht : t <+: l) (hshown : Utf8.encode m <:+: t)
    (hnot : ¬Utf8.encode n <:+: bytesOf stdio h ++ t) : First m n (h ++ l.map (.byte stdio)) := by
  refine ⟨h ++ t.map (.byte stdio), ?_, ?_, ⟨stdio, ?_⟩, fun other => ?_⟩
  · exact (List.prefix_append_right_inj h).mpr (ht.map _)
  · intro hin
    rcases List.mem_append.mp hin with hin | hin
    · exact htime hin
    · exact timeout_notMem_bytes hin
  · rw [shows_iff hm, bytesOf_append, bytesOf_bytes]
    exact List.infix_append_of_infix_right hshown
  · rw [shows_iff hn, bytesOf_append]
    by_cases heq : other = stdio
    · rw [heq, bytesOf_bytes]
      exact hnot
    · rw [bytesOf_other heq, List.append_nil, ← shows_iff hn]
      exact hother other

theorem not_shows_append (hm : IsMarker m) (hnone : ∀ stdio, ¬Shows m (bytesOf stdio h))
    (hnot : ¬Utf8.encode m <:+: bytesOf stdio h ++ l) (other : Stdio) :
    ¬Shows m (bytesOf other (h ++ l.map (.byte stdio))) := by
  rw [shows_iff hm, bytesOf_append]
  by_cases heq : other = stdio
  · rw [heq, bytesOf_bytes]
    exact hnot
  · rw [bytesOf_other heq, List.append_nil, ← shows_iff hm]
    exact hnone other

/-- A clean chunk with nothing decided yet: what the search makes of it is what the output shows. -/
theorem chunk_spec {lines : List (List Char)} (hundecided : Undecided h) (hlines : allLines l = some lines)
    (hcut : ∀ marker ∈ markers, ¬Cut (Utf8.encode marker) (bytesOf stdio h) l)
    (horder : ∀ line ∈ lines, startedString <:+: line → completedWithExceptionString <:+: line →
      SeenFirst startedString completedWithExceptionString line) :
    (lines.foldl onLine .pending = .pending ∧ Undecided (h ++ l.map (.byte stdio))) ∨
    (lines.foldl onLine .pending = .completed ∧ Started (h ++ l.map (.byte stdio))) ∨
      (lines.foldl onLine .pending = .failed ∧ Failed (h ++ l.map (.byte stdio))) := by
  have hs := isMarker_startedString
  have he := isMarker_exception
  have hcutStarted := hcut startedString List.mem_cons_self
  have hcutException := hcut completedWithExceptionString (List.mem_cons_of_mem _ (List.mem_singleton_self _))
  have hnoStarted : ¬Utf8.encode startedString <:+: bytesOf stdio h :=
    fun hin => hundecided.started stdio ((shows_iff hs).mpr hin)
  have hnoException : ¬Utf8.encode completedWithExceptionString <:+: bytesOf stdio h :=
    fun hin => hundecided.exception stdio ((shows_iff he).mpr hin)
  rcases search_spec lines with ⟨hpending, hsilent⟩ | ⟨pre, line, post, rfl, hpre, hline⟩
  · refine Or.inl ⟨hpending, ?_, ?_, ?_⟩
    · intro hin
      rcases List.mem_append.mp hin with hin | hin
      · exact hundecided.time hin
      · exact timeout_notMem_bytes hin
    · apply not_shows_append hs hundecided.started
      exact not_infix_append hnoStarted hcutStarted (not_infix_of_lines hs hlines fun s hin => (hsilent s hin).1)
    · apply not_shows_append he hundecided.exception
      exact not_infix_append hnoException hcutException (not_infix_of_lines he hlines fun s hin => (hsilent s hin).2)
  · rcases hline with ⟨hcompleted, hstarted⟩ | ⟨hfailed, hexception, hnot⟩
    · have hfirst : SeenFirst startedString completedWithExceptionString line := by
        by_cases hexception : completedWithExceptionString <:+: line
        · exact horder line (List.mem_append_right pre List.mem_cons_self) hstarted hexception
        · exact seenFirst_of_not_infix hstarted hexception
      obtain ⟨t, ht, hshown, hnone⟩ := seenFirst_of_lines hs he hlines (fun s hin => (hpre s hin).2) hfirst
      refine Or.inr (Or.inl ⟨hcompleted, ?_⟩)
      apply first_of_bytes hs he hundecided.time hundecided.exception ht hshown
      exact not_infix_append hnoException (fun hc => hcutException (hc.mono ht)) hnone
    · have hfirst := seenFirst_of_not_infix hexception hnot
      obtain ⟨t, ht, hshown, hnone⟩ := seenFirst_of_lines he hs hlines (fun s hin => (hpre s hin).1) hfirst
      refine Or.inr (Or.inr ⟨hfailed, ?_⟩)
      apply first_of_bytes he hs hundecided.time hundecided.started ht hshown
      exact not_infix_append hnoStarted (fun hc => hcutStarted (hc.mono ht)) hnone

end History

/-! ### Runs -/

structure Inv (h : List Output) (s : State) : Prop where
  awaiting : s.outcome = .awaiting → s.rvPortBound = .pending ∧ Undecided h
  returned : s.outcome = .returned → Started h
  threw : s.outcome = .threw → Failed h ∨ TimedOut h
  killed : s.killed = true ↔ s.outcome = .threw
  uncaught : s.uncaught = false

section Runs
variable {h h' : List Output} {s : State} {e : Event}

/-- Once the outcome is there it stays, whatever the completer comes to be. -/
theorem Inv.settled (hinv : Inv h s) (hdecided : s.outcome ≠ .awaiting) (hh : h <+: h') (c : Completer) :
    Inv h' (settle s c) := by
  have hsame : settle s c = { s with rvPortBound := c } := by
    unfold settle
    split
    · exact absurd ‹_› hdecided
    · exact absurd ‹_› hdecided
    · rfl
  rw [hsame]
  exact ⟨fun hno => absurd hno hdecided, fun hr => (hinv.returned hr).mono hh,
    fun ht => (hinv.threw ht).imp (First.mono · hh) (TimedOut.mono · hh), hinv.killed, hinv.uncaught⟩

theorem Inv.step (hinv : Inv h s) (hclean : Clean h e) : Inv (h ++ e.output) (step s e) := by
  have hprefix : h <+: h ++ e.output := List.prefix_append _ _
  cases e with
  | chunk stdio l =>
    obtain ⟨lines, hlines, hundecided⟩ := hclean
    simp only [SrvExec.step, hlines]
    by_cases hawaiting : s.outcome = .awaiting
    · obtain ⟨hpending, hnone⟩ := hinv.awaiting hawaiting
      obtain ⟨hcut, horder⟩ := hundecided hnone
      have hkilled : s.killed = false := by
        rw [← Bool.not_eq_true, hinv.killed, hawaiting]
        decide
      rw [hpending]
      rcases chunk_spec hnone hlines hcut horder with ⟨hc, hout⟩ | ⟨hc, hout⟩ | ⟨hc, hout⟩
      · have hsame : settle s .pending = { s with rvPortBound := .pending } := by simp [settle]
        rw [hc, hsame]
        refine ⟨fun _ => ⟨rfl, hout⟩, fun hno => ?_, fun hno => ?_, hinv.killed, hinv.uncaught⟩
        · exact absurd (hawaiting.symm.trans hno) (by decide)
        · exact absurd (hawaiting.symm.trans hno) (by decide)
      · have hreturned : settle s .completed = { s with rvPortBound := .completed, outcome := .returned } := by
          simp [settle, hawaiting]
        rw [hc, hreturned]
        refine ⟨fun hno => ?_, fun _ => hout, fun hno => ?_, by simp [hkilled], hinv.uncaught⟩
        · cases hno
        · cases hno
      · have hthrew : settle s .failed = { s with rvPortBound := .failed, outcome := .threw, killed := true } := by
          simp [settle, hawaiting]
        rw [hc, hthrew]
        refine ⟨fun hno => ?_, fun hno => ?_, fun _ => Or.inl hout, by simp, hinv.uncaught⟩
        · cases hno
        · cases hno
    · exact hinv.settled hawaiting hprefix _
  | error stdio =>
    have hsame : h ++ (Event.error stdio).output = h := List.append_nil h
    rw [hsame]
    cases stdio with
    | stdout => exact hinv
    | stderr =>
      have hdecided : s.outcome ≠ .awaiting := fun hawaiting => hclean rfl (hinv.awaiting hawaiting).2
      simp only [SrvExec.step]
      split
      · exact hinv.settled hdecided List.prefix_rfl _
      · exact hinv
  | timeout =>
    simp only [SrvExec.step]
    split
    · rename_i hawaiting
      have hover : TimedOut (h ++ Event.timeout.output) := ⟨h, List.prefix_rfl, (hinv.awaiting hawaiting).2⟩
      refine ⟨fun hno => ?_, fun hno => ?_, fun _ => Or.inr hover, by simp, hinv.uncaught⟩
      · cases hno
      · cases hno
    · rename_i hdecided
      exact ⟨fun hno => absurd hno hdecided, fun hr => (hinv.returned hr).mono hprefix,
        fun ht => (hinv.threw ht).imp (First.mono · hprefix) (TimedOut.mono · hprefix), hinv.killed, hinv.uncaught⟩

theorem Inv.recognised (hinv : Inv h s) : Recognised h s where
  returned := by
    refine ⟨hinv.returned, fun hstarted => ?_⟩
    cases houtcome : s.outcome with
    | awaiting => exact absurd hstarted (hinv.awaiting houtcome).2.not_first.1
    | returned => rfl
    | threw =>
      rcases hinv.threw houtcome with hfailed | hover
      · exact absurd hfailed (hstarted.not_first isMarker_startedString isMarker_exception)
      · exact absurd hover (hstarted.not_timedOut isMarker_startedString fun _ hp => hp.started)
  threw := by
    constructor
    · intro houtcome
      rcases hinv.threw houtcome with hfailed | hover
      · exact ⟨hfailed.not_first isMarker_exception isMarker_startedString, Or.inl hfailed⟩
      · refine ⟨fun hstarted => ?_, Or.inr hover.timeout_mem⟩
        exact hstarted.not_timedOut isMarker_startedString (fun _ hp => hp.started) hover
    · rintro ⟨hnot, hfailed⟩
      cases houtcome : s.outcome with
      | awaiting =>
        have hundecided := (hinv.awaiting houtcome).2
        rcases hfailed with hfailed | htime
        · exact absurd hfailed hundecided.not_first.2
        · exact absurd htime hundecided.time
      | returned => exact absurd (hinv.returned houtcome) hnot
      | threw => rfl
  killed := hinv.killed
  uncaught := hinv.uncaught

theorem initial_inv : Inv [] initial where
  awaiting _ := by
    have hnone {m : List Char} (hm : IsMarker m) (stdio : Stdio) : ¬Shows m (bytesOf stdio []) := by
      rw [shows_iff hm]
      exact fun hin => hm.encode_ne_nil (List.infix_nil.mp hin)
    exact ⟨rfl, List.not_mem_nil, hnone isMarker_startedString, hnone isMarker_exception⟩
  returned hno := by cases hno
  threw hno := by cases hno
  killed := by decide
  uncaught := rfl

theorem run_concat (es : List Event) (e : Event) : run (es ++ [e]) = step (run es) e := List.foldl_concat ..

theorem history_append (es fs : List Event) : history (es ++ fs) = history es ++ history fs := List.flatMap_append

theorem history_concat (es : List Event) (e : Event) : history (es ++ [e]) = history es ++ e.output := by
  rw [history_append]
  exact congrArg _ (List.flatMap_singleton ..)

theorem CleanRun.before {es fs : List Event} (hclean : CleanRun fs) (hes : es <+: fs) : CleanRun es := by
  obtain ⟨rest, rfl⟩ := hes
  rintro pre e post rfl
  exact hclean pre e (post ++ rest) (by simp)

theorem run_inv {es : List Event} (hclean : CleanRun es) : Inv (history es) (run es) := by
  induction es using List.reverseRecOn with
  | nil => exact initial_inv
  | append_singleton es e ih =>
    rw [run_concat, history_concat]
    apply (ih (hclean.before (List.prefix_append es [e]))).step
    exact hclean es e [] rfl

end Runs

/-- With clean chunks, the start is recognised at every point of the output; and it is so with the same outcome
however else the same output is cut into clean chunks. -/
theorem start_recognised {es : List Event} (hclean : CleanRun es) :
    (∀ pre, pre <+: es → Recognised (history pre) (run pre)) ∧
      ∀ es', CleanRun es' → history es' = history es → (run es').outcome = (run es).outcome := by
  constructor
  · intro pre hpre
    exact (run_inv (hclean.before hpre)).recognised
  · intro es' hclean' hhistory
    have hr := (run_inv hclean).recognised
    have hr' := (run_inv hclean').recognised
    rw [hhistory] at hr'
    have hreturned := hr'.returned.trans hr.returned.symm
    have hthrew := hr'.threw.trans hr.threw.symm
    -- an outcome is known by whether it is the one or the other
    cases houtcome : (run es).outcome with
    | returned => exact hreturned.mpr houtcome
    | threw => exact hthrew.mpr houtcome
    | awaiting =>
      cases houtcome' : (run es').outcome with
      | awaiting => rfl
      | returned => exact absurd ((hreturned.mp houtcome').symm.trans houtcome) (by decide)
      | threw => exact absurd ((hthrew.mp houtcome').symm.trans houtcome) (by decide)

theorem CleanRun.concat {es : List Event} {e : Event} (hclean : CleanRun es) (he : Clean (history es) e) :
    CleanRun (es ++ [e]) := by
  intro pre d post heq
  rcases List.eq_nil_or_concat post with rfl | ⟨post, x, rfl⟩
  · obtain ⟨rfl, hd⟩ := List.append_inj' heq rfl
    injection hd with hd
    exact hd ▸ he
  · rw [List.concat_eq_append, ← List.cons_append, ← List.append_assoc] at heq
    exact hclean pre d post (List.append_inj' heq rfl).1

def startedLine : List UInt8 := Utf8.encode (startedString ++ ['\n'])

/-- The line in two chunks of stderr, and a character of two bytes in two of stdout. -/
def cutLine : List Event := [.chunk .stderr (startedLine.take 10), .chunk .stderr (startedLine.drop 10), .timeout]

def cutCharacter : List Event := [.chunk .stdout [0xC3], .chunk .stdout [0xA9]]

theorem allLines_startedLine : allLines startedLine = some [startedString] := by
  rw [allLines, startedLine, Utf8.decodeText_encode (by decide)]
  decide

/-- A line with no marker's first or last character is passed over. -/
theorem onLine_of_notMem {s : List Char} (hstarted : 'r' ∉ s ∨ 'y' ∉ s) (hexception : 'E' ∉ s) :
    onLine .pending s = .pending := by
  have hno : ¬startedString <:+: s := by
    intro hin
    rcases hstarted with hr | hy
    · exact hr (hin.subset (by decide))
    · exact hy (hin.subset (by decide))
  have hno' : ¬completedWithExceptionString <:+: s := fun hin => hexception (hin.subset (by decide))
  simp [onLine, hno, hno']

/-- A start that is not recognised, though it is when the same output comes in one chunk; and a listener that
throws. -/
theorem start_missed :
    history cutLine = history [.chunk .stderr startedLine, .timeout] ∧ Started (history cutLine) ∧
      (run cutLine).outcome = .threw ∧ (run [.chunk .stderr startedLine, .timeout]).outcome = .returned ∧
      (run cutCharacter).uncaught = true ∧ ¬Recognised (history cutLine) (run cutLine) := by
  have hstarted : Started (history cutLine) := by
    refine ⟨startedLine.map (.byte .stderr), ⟨[.timeout], by decide⟩, by decide, ⟨.stderr, ?_⟩, fun stdio => ?_⟩
    · rw [bytesOf_bytes]
      exact ⟨Utf8.encode startedString, by decide, List.infix_rfl⟩
    · rw [shows_iff isMarker_exception]
      intro hin
      have hbyte : (0x45 : UInt8) ∈ bytesOf stdio (startedLine.map (.byte .stderr)) := hin.subset (by decide)
      revert hbyte
      cases stdio <;> decide
  have hfirst : allLines (startedLine.take 10) = some [startedString.take 10] := by
    have hpiece : startedLine.take 10 = Utf8.encode (startedString.take 10) := by decide
    rw [allLines, hpiece, Utf8.decodeText_encode (by decide)]
    decide
  have hsecond : allLines (startedLine.drop 10) = some [startedString.drop 11] := by
    have hpiece : startedLine.drop 10 = Utf8.encode (startedString.drop 10 ++ ['\n']) := by decide
    rw [allLines, hpiece, Utf8.decodeText_encode (by decide)]
    decide
  have hthrew : (run cutLine).outcome = .threw := by
    have hpieces : onLine .pending (startedString.take 10) = .pending ∧
        onLine .pending (startedString.drop 11) = .pending := by
      constructor
      · exact onLine_of_notMem (Or.inr (by decide)) (by decide)
      · exact onLine_of_notMem (Or.inl (by decide)) (by decide)
    simp [run, cutLine, step, initial, settle, hfirst, hsecond, hpieces.1, hpieces.2]
  have hreturned : (run [.chunk .stderr startedLine, .timeout]).outcome = .returned := by
    have hline : onLine .pending startedString = .completed := by decide
    simp [run, step, initial, settle, allLines_startedLine, hline]
  refine ⟨by decide, hstarted, hthrew, hreturned, by decide, fun h => ?_⟩
  exact absurd ((h.returned.mpr hstarted).symm.trans hthrew) (by decide)

/-- A process that says where it is before it has started, in a chunk for each line. -/
theorem start_recognised_sample :
    Recognised (history [.chunk .stderr [0x75, 0x70, newline], .chunk .stderr startedLine])
      (run [.chunk .stderr [0x75, 0x70, newline], .chunk .stderr startedLine]) := by
  have hcut (marker : List Char) (hmarker : marker ∈ markers) (bytes l : List UInt8) :
      ¬Cut (Utf8.encode marker) (bytes ++ [newline]) l := by
    apply not_cut_of_sep
    rcases List.mem_cons.mp hmarker with rfl | hmarker
    · exact isMarker_startedString.oneLine.2
    · rw [List.mem_singleton.mp hmarker]
      exact isMarker_exception.oneLine.2
  have hup : allLines [0x75, 0x70, newline] = some [['u', 'p']] := by
    have hpiece : [0x75, 0x70, newline] = Utf8.encode ['u', 'p', '\n'] := by decide
    rw [allLines, hpiece, Utf8.decodeText_encode (by decide)]
    decide
  have hempty : CleanRun [] := fun pre e post heq => absurd heq (by simp)
  have hclean : CleanRun ([] ++ [.chunk .stderr [0x75, 0x70, newline]] ++ [.chunk .stderr startedLine]) := by
    refine (hempty.concat ?_).concat ?_
    · refine ⟨_, hup, fun _ => ⟨fun marker _ hc => ?_, fun line hline hshown => ?_⟩⟩
      · obtain ⟨l, r, hl, -, -, hs, -⟩ := hc
        exact hl (List.suffix_nil.mp hs)
      · rw [List.mem_singleton.mp hline] at hshown
        exact absurd hshown.length_le (by decide)
    · refine ⟨_, allLines_startedLine, fun _ => ⟨fun marker hmarker => hcut marker hmarker [0x75, 0x70] startedLine, ?_⟩⟩
      intro line hline _ hexception
      rw [List.mem_singleton.mp hline] at hexception
      exact absurd (hexception.subset (by decide : 'E' ∈ completedWithExceptionString)) (by decide)
  exact (start_recognised hclean).1 _ List.prefix_rfl

end NoPorts.SrvExec
