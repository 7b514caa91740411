import Mathlib.Data.List.TakeWhile

/-! A pipe that keeps the first line of its input to itself and passes on the rest. -/
namespace NoPorts.Lib

/-- What arrives on the input side. -/
inductive Input (α : Type*) where
  | chunk (xs : List α)
  | eof
  deriving DecidableEq, Repr

/-- What comes out on the other. -/
inductive Delivery (α : Type*) where
  | data (xs : List α)
  | error
  | done
  deriving DecidableEq, Repr

variable {α : Type*}

def Input.content : Input α → List α
  | .chunk xs => xs
  | .eof => []

def Delivery.content : Delivery α → List α
  | .data xs => xs
  | _ => []

def Delivery.isData : Delivery α → Bool
  | .data _ => true
  | _ => false

/-- Everything a sequence of arrivals holds, whatever its chunks. -/
def contents (input : List (Input α)) : List α := input.flatMap Input.content

@[simp] theorem contents_nil : contents ([] : List (Input α)) = [] := rfl

theorem contents_append (input rest : List (Input α)) :
    contents (input ++ rest) = contents input ++ contents rest := List.flatMap_append

@[simp] theorem contents_chunk (data : List α) : contents [Input.chunk data] = data := by
  simp only [contents, List.flatMap_singleton, Input.content]

@[simp] theorem contents_eof : contents [(Input.eof : Input α)] = [] := rfl

/-- Nothing arrives after the end. -/
def EndsOnce (input : List (Input α)) : Prop :=
  ∀ pre post, input = pre ++ Input.eof :: post → post = []

theorem EndsOnce.nil : EndsOnce ([] : List (Input α)) := by
  intro pre post h
  exact absurd h (by simp only [List.nil_eq, List.append_eq_nil_iff, reduceCtorEq, and_false,
    not_false_eq_true])

theorem EndsOnce.concat {input : List (Input α)} (h : Input.eof ∉ input) (last : Input α) :
    EndsOnce (input ++ [last]) := by
  intro pre post he
  rcases List.append_eq_append_iff.mp he with ⟨mid, hpre, hmid⟩ | ⟨mid, hinput, hmid⟩
  · -- the end is the last arrival
    cases mid with
    | nil => exact (List.cons.inj hmid).2.symm
    | cons first rest =>
      have hnil : rest ++ Input.eof :: post = [] := (List.cons.inj hmid).2.symm
      exact absurd hnil (by simp)
  · -- the end is among the arrivals before
    cases mid with
    | nil => exact (List.cons.inj hmid.symm).2.symm
    | cons first rest =>
      have hfirst : first = Input.eof := (List.cons.inj hmid).1.symm
      rw [hfirst] at hinput
      exact absurd (by rw [hinput]; simp) h

/-- Once the end has been taken from the arrivals, nothing is left of them. -/
theorem EndsOnce.left {taken left : List (Input α)} (h : EndsOnce (taken ++ left))
    (he : Input.eof ∈ taken) : left = [] := by
  obtain ⟨pre, post, rfl⟩ := List.append_of_mem he
  have hpost : post ++ left = [] := h pre (post ++ left) (by simp only [List.append_assoc,
    List.cons_append])
  exact (List.append_eq_nil_iff.mp hpost).2

variable [DecidableEq α] (sep : α)

/-- `out` is what `input` holds after its first `sep`: all of it, in order, and
then done, if `input` has come to its end. -/
def Relays (input : List (Input α)) (out : List (Delivery α)) : Prop :=
  ∃ line body, sep ∉ line ∧ contents input = line ++ sep :: body.flatMap Delivery.content ∧
    (∀ d ∈ body, d.isData = true) ∧ out = body ++ if Input.eof ∈ input then [Delivery.done] else []

variable {sep} {input : List (Input α)} {out : List (Delivery α)}

theorem Relays.chunk (h : Relays sep input out) (he : Input.eof ∉ input) (data : List α) :
    Relays sep (input ++ [.chunk data]) (out ++ [.data data]) := by
  obtain ⟨line, body, hline, hcontents, hbody, hout⟩ := h
  rw [if_neg he, List.append_nil] at hout
  refine ⟨line, body ++ [.data data], hline, ?_, ?_, ?_⟩
  · rw [contents_append, hcontents, contents_chunk]
    simp only [List.append_assoc, List.cons_append, List.flatMap_append, List.flatMap_singleton,
      Delivery.content]
  · intro d hd
    rcases List.mem_append.mp hd with hd | hd
    · exact hbody d hd
    · rw [List.mem_singleton.mp hd]
      rfl
  · have hn : Input.eof ∉ input ++ [.chunk data] := by simp [he]
    rw [if_neg hn, List.append_nil, hout]

theorem Relays.eof (h : Relays sep input out) (he : Input.eof ∉ input) :
    Relays sep (input ++ [.eof]) (out ++ [.done]) := by
  obtain ⟨line, body, hline, hcontents, hbody, hout⟩ := h
  rw [if_neg he, List.append_nil] at hout
  refine ⟨line, body, hline, ?_, hbody, ?_⟩
  · rw [contents_append, hcontents, contents_eof, List.append_nil]
  · have hm : Input.eof ∈ input ++ [.eof] := List.mem_append_right input List.mem_cons_self
    rw [if_pos hm, hout]

/-- The output is done exactly when the input has come to its end. -/
theorem Relays.done_mem_iff (h : Relays sep input out) : .done ∈ out ↔ Input.eof ∈ input := by
  obtain ⟨line, body, -, -, hbody, rfl⟩ := h
  have hn : Delivery.done ∉ body := fun hd => absurd (hbody _ hd) (by simp [Delivery.isData])
  by_cases he : Input.eof ∈ input
  · simp only [he, if_true, List.mem_append, List.mem_singleton, or_true]
  · simp only [he, if_false, List.append_nil, hn]

/-! Taking the first line from a buffer. -/

/-- What is before the first `sep`, and what is after it. -/
def splitFirst (sep : α) (xs : List α) : Option (List α × List α) :=
  if sep ∈ xs then some (xs.takeWhile (· ≠ sep), (xs.dropWhile (· ≠ sep)).tail) else none

theorem splitFirst_none {xs : List α} (h : splitFirst sep xs = none) : sep ∉ xs := by
  intro hm
  rw [splitFirst, if_pos hm] at h
  cases h

theorem splitFirst_some {xs line rest : List α} (h : splitFirst sep xs = some (line, rest)) :
    sep ∉ line ∧ xs = line ++ sep :: rest := by
  have hm : sep ∈ xs := by
    by_contra hm
    rw [splitFirst, if_neg hm] at h
    cases h
  rw [splitFirst, if_pos hm] at h
  obtain ⟨rfl, rfl⟩ := Prod.mk.inj (Option.some.inj h)
  have hne : xs.dropWhile (· ≠ sep) ≠ [] := by
    intro hnil
    have hall := List.dropWhile_eq_nil_iff.mp hnil sep hm
    simp at hall
  have hhead : (xs.dropWhile (· ≠ sep)).head hne = sep := by
    have hnot := List.head_dropWhile_not (· ≠ sep) hne
    simpa using hnot
  refine ⟨fun hin => by simpa using List.mem_takeWhile_imp hin, ?_⟩
  calc
    xs = xs.takeWhile (· ≠ sep) ++ xs.dropWhile (· ≠ sep) := List.takeWhile_append_dropWhile.symm
    _ = _ := by rw [← List.cons_head_tail hne, hhead, List.tail_cons]

/-- There is only one way to split at the first `sep`. -/
theorem splitFirst_eq {line : List α} (h : sep ∉ line) (rest : List α) :
    splitFirst sep (line ++ sep :: rest) = some (line, rest) := by
  have hm : sep ∈ line ++ sep :: rest := List.mem_append_right line List.mem_cons_self
  have hkeep : ∀ x ∈ line, decide (x ≠ sep) = true := by
    intro x hx
    simp only [ne_eq, decide_not, Bool.not_eq_true', decide_eq_false_iff_not]
    rintro rfl
    exact h hx
  have hstop : decide (sep ≠ sep) = false := by simp
  rw [splitFirst, if_pos hm, List.takeWhile_append_of_pos hkeep, List.dropWhile_append_of_pos hkeep,
    List.takeWhile_cons, List.dropWhile_cons, hstop]
  simp only [Bool.false_eq_true, if_false, List.append_nil, List.tail_cons]

/-- What a pipe that relays has given out is what follows the first line. -/
theorem Relays.splitFirst_contents (h : Relays sep input out) :
    (splitFirst sep (contents input)).map Prod.snd = some (out.flatMap Delivery.content) := by
  obtain ⟨line, body, hline, hcontents, -, rfl⟩ := h
  rw [hcontents, splitFirst_eq hline]
  split <;> simp [Delivery.content]

/-! The two stages before anything is passed on. -/

/-- No line yet: all of `input` is in the buffer. -/
structure Reading (sep : α) (input : List (Input α)) (buffer : List α) (out : List (Delivery α)) :
    Prop where
  buffered : contents input = buffer
  noLine : sep ∉ buffer
  out : out = if Input.eof ∈ input then [.done] else []

/-- The first line has been taken from the buffer. -/
structure LineRead (sep : α) (input : List (Input α)) (buffer : List α) (out : List (Delivery α)) :
    Prop where
  buffered : ∃ line, sep ∉ line ∧ contents input = line ++ sep :: buffer
  notEnded : Input.eof ∉ input
  out : out = []

variable {buffer : List α}

theorem Reading.nil : Reading sep [] [] [] := by
  refine ⟨rfl, List.not_mem_nil, ?_⟩
  rw [if_neg List.not_mem_nil]

theorem Reading.chunk (h : Reading sep input buffer out) (he : Input.eof ∉ input) {data : List α}
    (hs : splitFirst sep (buffer ++ data) = none) :
    Reading sep (input ++ [.chunk data]) (buffer ++ data) out := by
  refine ⟨?_, splitFirst_none hs, ?_⟩
  · rw [contents_append, h.buffered, contents_chunk]
  · have hn : Input.eof ∉ input ++ [.chunk data] := by simp [he]
    rw [if_neg hn, h.out, if_neg he]

theorem Reading.line (h : Reading sep input buffer out) (he : Input.eof ∉ input)
    {data line rest : List α} (hs : splitFirst sep (buffer ++ data) = some (line, rest)) :
    LineRead sep (input ++ [.chunk data]) rest out := by
  obtain ⟨hline, hsplit⟩ := splitFirst_some hs
  refine ⟨⟨line, hline, ?_⟩, by simp [he], ?_⟩
  · rw [contents_append, h.buffered, contents_chunk, hsplit]
  · rw [h.out, if_neg he]

theorem Reading.eof (h : Reading sep input buffer out) (he : Input.eof ∉ input) :
    Reading sep (input ++ [.eof]) buffer (out ++ [.done]) := by
  refine ⟨?_, h.noLine, ?_⟩
  · rw [contents_append, h.buffered, contents_eof, List.append_nil]
  · have hm : Input.eof ∈ input ++ [.eof] := List.mem_append_right input List.mem_cons_self
    rw [if_pos hm, h.out, if_neg he, List.nil_append]

/-- What follows the line is passed on at once. -/
theorem LineRead.relays (h : LineRead sep input buffer out) :
    Relays sep input (if buffer = [] then out else out ++ [.data buffer]) := by
  obtain ⟨⟨line, hline, hcontents⟩, he, rfl⟩ := h
  by_cases hb : buffer = []
  · subst hb
    exact ⟨line, [], hline, hcontents, nofun, by simp only [if_true, he, if_false, List.append_nil]⟩
  · refine ⟨line, [.data buffer], hline, ?_, ?_, by simp only [hb, he, if_false, List.append_nil,
      List.nil_append]⟩
    · rw [hcontents]
      simp only [List.flatMap_singleton, Delivery.content]
    · intro d hd
      rw [List.mem_singleton.mp hd]
      rfl

end NoPorts.Lib
