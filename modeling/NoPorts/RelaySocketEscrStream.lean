import NoPorts.RelaySocketEscr
import NoPorts.RelayAuthEscrSound

/-! When a socket of a `RelayAuthVerifierESCR` passes on what follows its first line. -/
namespace NoPorts.Srvd.Escr
open Lib Signing

theorem waiting_cons (task : Task) (rest : List Task) :
    waiting (task :: rest) = task.content ++ waiting rest := List.flatMap_cons

theorem waiting_concat (queue : List Task) (task : Task) :
    waiting (queue ++ [task]) = waiting queue ++ task.content := by
  unfold waiting
  rw [List.flatMap_append, List.flatMap_singleton]

theorem arrived_concat (es : List Event) (e : Event) :
    arrived (es ++ [e]) = arrived es ++ e.input?.toList := by
  unfold arrived
  rw [List.filterMap_append]
  cases h : e.input? with
  | none => rw [List.filterMap_cons_none h]; rfl
  | some input => rw [List.filterMap_cons_some h]; rfl

/-- What follows the first line of some bytes, if they have one. -/
def afterLine (bytes : List UInt8) : List UInt8 :=
  ((splitFirst newline bytes).map Prod.snd).getD []

theorem afterLine_eq {line : List UInt8} (h : newline ∉ line) (rest : List UInt8) :
    afterLine (line ++ newline :: rest) = rest := by
  rw [afterLine, splitFirst_eq h]
  rfl

namespace Socket

/-- The end of the stream, which comes as soon as the socket has ended. -/
def tail (s : Socket) : List (Delivery UInt8) := if s.ended then [.done] else []

/-- The first line of `bytes`, which have arrived, is still being read. -/
structure ReadingLine (bytes : List UInt8) (s : Socket) : Prop where
  buffered : bytes = s.buffer ++ waiting s.queue
  noLine : newline ∉ s.buffer
  sc : s.sc = s.tail
  complete : s.ended = true → afterLine (s.buffer ++ waiting s.queue) = []

/-- The first line is being verified. -/
structure VerifyingLine (bytes : List UInt8) (s : Socket) : Prop where
  buffered : ∃ line, newline ∉ line ∧ bytes = line ++ newline :: (s.buffer ++ waiting s.queue)
  sc : s.sc = s.tail
  complete : s.ended = true → s.buffer ++ waiting s.queue = []

/-- What follows the line is on the stream or in the queue. -/
structure Relaying (bytes : List UInt8) (s : Socket) : Prop where
  split : ∃ line body, newline ∉ line ∧
    bytes = line ++ newline :: (body.flatMap Delivery.content ++ waiting s.queue) ∧
      (∀ d ∈ body, d.isData = true) ∧ s.sc = body ++ s.tail
  complete : s.ended = true → waiting s.queue = []

/-- How far a socket is that has neither authenticated nor failed, by its next task. -/
def Before (bytes : List UInt8) (s : Socket) : Option Task → Prop
  | some (.failing _) => True
  | some (.verifying _) => s.VerifyingLine bytes
  | some .confirming => s.VerifyingLine bytes
  | _ => s.ReadingLine bytes

/-- How far a socket is at which `bytes` have arrived. -/
def Stage (bytes : List UInt8) (s : Socket) : Prop :=
  match s.completer with
  | none => s.authenticated = false ∧ s.Before bytes s.queue.head?
  | some (.ok ()) => s.authenticated = true ∧ (∀ task ∈ s.queue.head?, task.begun = false) ∧
      s.Relaying bytes
  | some (.error _) => True

structure Streams (es : List Event) (s : Socket) : Prop where
  ended : s.ended = true ↔ Input.eof ∈ arrived es
  fresh : ∀ task ∈ s.queue.tail, task.begun = false
  stage : s.Stage (contents (arrived es))

variable {s t : Socket} {rest : List Task} {task : Task} {bytes : List UInt8}

section add
variable (s) (d : Delivery UInt8)

@[simp] theorem add_authenticated : (s.add d).authenticated = s.authenticated := by
  unfold add; split <;> rfl

@[simp] theorem add_completer : (s.add d).completer = s.completer := by unfold add; split <;> rfl

@[simp] theorem add_ended : (s.add d).ended = s.ended := by unfold add; split <;> rfl

@[simp] theorem add_buffer : (s.add d).buffer = s.buffer := by unfold add; split <;> rfl

@[simp] theorem add_queue : (s.add d).queue = s.queue := by unfold add; split <;> rfl

end add

theorem add_of_open (h : Delivery.done ∉ s.sc) (d : Delivery UInt8) :
    s.add d = { s with sc := s.sc ++ [d] } := by
  have hopen : ¬s.isClosed = true := by
    rw [isClosed, List.contains_iff_mem]
    exact h
  rw [add, if_neg hopen]

theorem add_of_closed (h : Delivery.done ∈ s.sc) (d : Delivery UInt8) : s.add d = s := by
  have hclosed : s.isClosed = true := by
    rw [isClosed, List.contains_iff_mem]
    exact h
  rw [add, if_pos hclosed]

theorem tail_of_open (h : s.ended = false) : s.tail = [] := by
  rw [tail, h]
  rfl

theorem tail_of_ended (h : s.ended = true) : s.tail = [.done] := by
  rw [tail, h]
  rfl

theorem done_notMem {body : List (Delivery UInt8)} (h : ∀ d ∈ body, d.isData = true) :
    Delivery.done ∉ body := by
  intro hd
  cases h _ hd

/-! What a turn does to the queue. -/

structure Leaves (rest : List Task) (s t : Socket) : Prop where
  ended : t.ended = s.ended
  queue : t.queue = rest ∨ ∃ task, task.begun = true ∧ t.queue = task :: rest

theorem failAuth_leaves (e : Thrown) : Leaves rest s (s.failAuth rest e) := by
  unfold failAuth
  split
  · exact ⟨rfl, Or.inl rfl⟩
  · exact ⟨rfl, Or.inr ⟨.failing e, rfl, rfl⟩⟩

theorem flushBuffer_ended (s : Socket) : s.flushBuffer.ended = s.ended := by
  unfold flushBuffer
  split
  · rfl
  · exact add_ended s _

theorem complete_ended (s : Socket) : s.complete.ended = s.ended := by
  unfold complete
  split
  · rfl
  · exact add_ended s _

theorem completeSuccess_leaves : Leaves rest s (s.completeSuccess rest) :=
  ⟨(flushBuffer_ended _).trans (complete_ended _), Or.inl rfl⟩

theorem onChunk_leaves (data : List UInt8) : Leaves rest s (s.onChunk rest data) := by
  unfold onChunk
  split
  · exact ⟨add_ended s _, Or.inl rfl⟩
  · split
    · exact failAuth_leaves _
    · split
      · exact ⟨rfl, Or.inl rfl⟩
      · exact ⟨rfl, Or.inr ⟨.verifying _, rfl, rfl⟩⟩

/-! What a turn does to the stream. -/

theorem stage_of_before (hc : s.completer = none) (ha : s.authenticated = false)
    (h : s.Before bytes s.queue.head?) : s.Stage bytes := by
  unfold Stage
  rw [hc]
  exact ⟨ha, h⟩

theorem stage_of_relaying (hc : s.completer = some (.ok ())) (ha : s.authenticated = true)
    (hfresh : ∀ task ∈ s.queue.head?, task.begun = false) (h : s.Relaying bytes) :
    s.Stage bytes := by
  unfold Stage
  rw [hc]
  exact ⟨ha, hfresh, h⟩

theorem fresh_head (hrest : ∀ task ∈ rest, task.begun = false) :
    ∀ task ∈ rest.head?, task.begun = false := by
  intro task h
  exact hrest task (List.mem_of_head? h)

theorem before_of_reading (h : s.ReadingLine bytes) {next : Option Task}
    (hn : ∀ task ∈ next, task.begun = false) : s.Before bytes next := by
  cases next with
  | none => exact h
  | some task =>
    have hfresh : task.begun = false := hn task rfl
    cases task <;> first | exact h | cases hfresh

theorem failAuth_stage (hc : s.completer = none) (ha : s.authenticated = false) (e : Thrown) :
    (s.failAuth rest e).Stage bytes := by
  have hopen : ¬s.completer.isSome = true := by rw [hc]; exact Bool.false_ne_true
  unfold failAuth
  rw [if_neg hopen]
  exact stage_of_before hc ha trivial

/-- The first line may be complete with this chunk. -/
theorem onChunk_stage (hc : s.completer = none) (ha : s.authenticated = false) {data : List UInt8}
    (hq : s.queue = .chunk data :: rest) (h : s.ReadingLine bytes)
    (hrest : ∀ task ∈ rest, task.begun = false) : (s.onChunk rest data).Stage bytes := by
  have hn : ¬s.authenticated = true := by rw [ha]; exact Bool.false_ne_true
  have hwaiting : waiting s.queue = data ++ waiting rest := by rw [hq, waiting_cons]; rfl
  obtain ⟨hbuffered, -, hsc, hcomplete⟩ := h
  rw [hwaiting, ← List.append_assoc] at hbuffered hcomplete
  unfold onChunk
  rw [if_neg hn]
  split
  · exact failAuth_stage hc ha _
  · split
    · rename_i hs
      have hreading : ReadingLine bytes { s with buffer := s.buffer ++ data, queue := rest } :=
        ⟨hbuffered, splitFirst_none hs, hsc, hcomplete⟩
      exact stage_of_before hc ha (before_of_reading hreading (fresh_head hrest))
    · rename_i line buffer hs
      obtain ⟨hline, hsplit⟩ := splitFirst_some hs
      rw [hsplit, List.append_assoc, List.cons_append] at hbuffered hcomplete
      rw [afterLine_eq hline] at hcomplete
      refine stage_of_before hc ha ?_
      exact ⟨⟨line, hline, hbuffered⟩, hsc, hcomplete⟩

/-- Success passes on what the buffer holds; there is nothing in it if the socket
has ended. -/
theorem completeSuccess_stage (hc : s.completer = none) (hq : s.queue = .confirming :: rest)
    (h : s.VerifyingLine bytes) (hrest : ∀ task ∈ rest, task.begun = false) :
    (s.completeSuccess rest).Stage bytes := by
  obtain ⟨⟨line, hline, hbuffered⟩, hsc, hcomplete⟩ := h
  have hwaiting : waiting s.queue = waiting rest := by rw [hq, waiting_cons]; rfl
  rw [hwaiting] at hbuffered hcomplete
  by_cases hb : s.buffer = []
  · have heq : s.completeSuccess rest =
        { s with authenticated := true, completer := some (.ok ()), queue := rest } := by
      simp only [completeSuccess, complete, hc, flushBuffer, hb, if_true, release]
    rw [heq]
    refine ⟨rfl, fresh_head hrest, ⟨line, [], hline, ?_, nofun, hsc⟩, ?_⟩
    · rw [hbuffered, hb]
      rfl
    · intro hended
      exact (List.append_eq_nil_iff.mp (hcomplete hended)).2
  · have hopen : s.ended = false := by
      cases hended : s.ended with
      | false => rfl
      | true => exact absurd (List.append_eq_nil_iff.mp (hcomplete hended)).1 hb
    rw [tail_of_open hopen] at hsc
    have hnone : Delivery.done ∉ s.sc := by rw [hsc]; exact List.not_mem_nil
    have heq : s.completeSuccess rest = { s with
        authenticated := true, completer := some (.ok ()), sc := s.sc ++ [.data s.buffer],
        queue := rest } := by
      simp only [completeSuccess, complete, hc, flushBuffer, hb, if_false, release]
      rw [add_of_open (by exact hnone)]
    rw [heq]
    refine ⟨rfl, fresh_head hrest, ⟨line, [.data s.buffer], hline, ?_, ?_, ?_⟩, ?_⟩
    · rw [hbuffered, List.flatMap_singleton]
      rfl
    · intro d hd
      rw [List.mem_singleton.mp hd]
      rfl
    · have htail : tail { s with
          authenticated := true, completer := some (.ok ()), sc := s.sc ++ [.data s.buffer],
          queue := rest } = [] := tail_of_open hopen
      rw [htail, hsc]
      rfl
    · intro hended
      exact absurd (hended.symm.trans hopen) nofun

/-- A chunk that has waited for the mutex until after authentication. -/
theorem onChunk_relaying (hc : s.completer = some (.ok ())) (ha : s.authenticated = true)
    {data : List UInt8} (hq : s.queue = .chunk data :: rest) (h : s.Relaying bytes)
    (hrest : ∀ task ∈ rest, task.begun = false) : (s.onChunk rest data).Stage bytes := by
  obtain ⟨⟨line, body, hline, hbytes, hbody, hsc⟩, hcomplete⟩ := h
  have hwaiting : waiting s.queue = data ++ waiting rest := by rw [hq, waiting_cons]; rfl
  rw [hwaiting] at hbytes hcomplete
  rw [onChunk, if_pos ha]
  cases hended : s.ended with
  | true =>
    obtain ⟨hdata, hnil⟩ := List.append_eq_nil_iff.mp (hcomplete hended)
    have hclosed : Delivery.done ∈ s.sc := by
      rw [hsc, tail_of_ended hended]
      exact List.mem_append_right body List.mem_cons_self
    rw [add_of_closed hclosed]
    refine stage_of_relaying hc ha (fresh_head hrest) ⟨⟨line, body, hline, ?_, hbody, hsc⟩,
      fun _ => hnil⟩
    change _ = line ++ newline :: (_ ++ waiting rest)
    rw [hbytes, hdata, List.nil_append]
  | false =>
    rw [tail_of_open hended, List.append_nil] at hsc
    have hopen : Delivery.done ∉ s.sc := by rw [hsc]; exact done_notMem hbody
    rw [add_of_open hopen]
    refine stage_of_relaying hc ha (fresh_head hrest)
      ⟨⟨line, body ++ [.data data], hline, ?_, ?_, ?_⟩, ?_⟩
    · change _ = line ++ newline :: (_ ++ waiting rest)
      rw [hbytes, List.flatMap_append, List.flatMap_singleton, List.append_assoc]
      rfl
    · intro d hd
      rcases List.mem_append.mp hd with hd | hd
      · exact hbody d hd
      · rw [List.mem_singleton.mp hd]
        rfl
    · have htail : (release { s with sc := s.sc ++ [.data data] } rest).tail = [] :=
        tail_of_open hended
      rw [htail, List.append_nil, ← hsc]
      rfl
    · intro hend
      exact absurd (hend.symm.trans hended) nofun

end Socket

namespace RelayAuthVerifierESCR
variable {v : RelayAuthVerifierESCR} {s t : Socket} {rest : List Task} {task : Task}
  {bytes : List UInt8} {es : List Event}
open Escr.Socket

theorem onResponse_leaves (reply : EscrReply) (response : String) :
    Leaves rest s (v.onResponse s rest reply response) := by
  have hfail (t : Socket) (ht : t.ended = s.ended) (e : Thrown) :
      Leaves rest s (t.failAuth rest e) := by
    obtain ⟨hended, hqueue⟩ : Leaves rest t (t.failAuth rest e) := failAuth_leaves e
    exact ⟨hended.trans ht, hqueue⟩
  unfold onResponse
  split
  · exact hfail s rfl _
  · split
    · exact hfail s rfl _
    · split
      · exact hfail _ (by rfl) _
      · split
        · exact hfail _ (by rfl) _
        · exact ⟨rfl, Or.inr ⟨.confirming, rfl, rfl⟩⟩

theorem turn_leaves (reply : EscrReply) : Leaves rest s (v.turn s rest reply task) := by
  cases task with
  | chunk data => exact onChunk_leaves data
  | verifying response => exact onResponse_leaves reply response
  | confirming =>
    simp only [turn]
    split
    · exact completeSuccess_leaves
    · exact failAuth_leaves _
  | failing e => exact ⟨rfl, Or.inl rfl⟩

theorem onResponse_stage (hc : s.completer = none) (ha : s.authenticated = false)
    {response : String} (hq : s.queue = .verifying response :: rest) (h : s.VerifyingLine bytes)
    (reply : EscrReply) : (v.onResponse s rest reply response).Stage bytes := by
  have hwaiting : waiting s.queue = waiting rest := by rw [hq, waiting_cons]; rfl
  unfold onResponse
  split
  · exact failAuth_stage hc ha _
  · split
    · exact failAuth_stage hc ha _
    · split
      · exact failAuth_stage (by exact hc) (by exact ha) _
      · split
        · exact failAuth_stage (by exact hc) (by exact ha) _
        · obtain ⟨hbuffered, hsc, hcomplete⟩ := h
          rw [hwaiting] at hbuffered hcomplete
          refine stage_of_before hc ha ?_
          exact ⟨hbuffered, hsc, hcomplete⟩

/-- A future completes once: only a failure under way can still replace a failure. -/
theorem turn_completed {r : Except Thrown Unit} (hc : s.completer = some r) (reply : EscrReply) :
    (v.turn s rest reply task).completer = some r ∨
      ∃ e, task = .failing e ∧ (v.turn s rest reply task).completer = some (.error e) := by
  have hfail (t : Socket) (ht : t.completer = some r) (e : Thrown) :
      (t.failAuth rest e).completer = some r := by
    have hsome : t.completer.isSome = true := by rw [ht]; rfl
    unfold failAuth
    rw [if_pos hsome]
    exact ht
  cases task with
  | chunk data =>
    left
    simp only [turn, onChunk]
    split
    · exact (add_completer s _).trans hc
    · split
      · exact hfail s hc _
      · split
        · exact hc
        · exact hc
  | verifying response =>
    left
    simp only [turn, onResponse]
    split
    · exact hfail s hc _
    · split
      · exact hfail s hc _
      · split
        · exact hfail _ (by exact hc) _
        · split
          · exact hfail _ (by exact hc) _
          · exact hc
  | confirming =>
    left
    have hflush (t : Socket) : t.flushBuffer.completer = t.completer := by
      unfold flushBuffer
      split
      · rfl
      · exact add_completer t _
    simp only [turn]
    split
    · change (complete _).flushBuffer.completer = _
      rw [hflush]
      simp only [complete, hc, add_completer]
    · exact hfail s hc _
  | failing e => exact Or.inr ⟨e, rfl, rfl⟩

theorem turn_stage (hq : s.queue = task :: rest) (hrest : ∀ task ∈ rest, task.begun = false)
    (h : s.Stage bytes) (reply : EscrReply) : (v.turn s rest reply task).Stage bytes := by
  unfold Stage at h
  split at h
  · rename_i hc
    obtain ⟨ha, hbefore⟩ := h
    rw [hq] at hbefore
    cases task with
    | chunk data => exact onChunk_stage hc ha hq hbefore hrest
    | verifying response => exact onResponse_stage hc ha hq hbefore reply
    | confirming =>
      simp only [turn]
      split
      · exact completeSuccess_stage hc hq hbefore hrest
      · exact failAuth_stage hc ha _
    | failing e => exact trivial
  · rename_i hc
    obtain ⟨ha, hfresh, hrelaying⟩ := h
    have htask : task.begun = false := hfresh task (by rw [hq]; rfl)
    cases task with
    | chunk data => exact onChunk_relaying hc ha hq hrelaying hrest
    | _ => cases htask
  · rename_i e hc
    unfold Stage
    rcases turn_completed hc reply with hkept | ⟨e', -, he'⟩
    · rw [hkept]
      trivial
    · rw [he']
      trivial

theorem streams_turn (hs : Streams es s) (hq : s.queue = task :: rest) (reply : EscrReply) :
    Streams (es ++ [.resume reply]) (v.turn s rest reply task) := by
  have hleaves : Leaves rest s (v.turn s rest reply task) := turn_leaves reply
  have harrives : arrived (es ++ [.resume reply]) = arrived es := by
    rw [arrived_concat]
    exact List.append_nil _
  have hrest : ∀ task ∈ rest, task.begun = false := by
    have hfresh := hs.fresh
    rwa [hq] at hfresh
  refine ⟨?_, ?_, ?_⟩
  · rw [hleaves.ended, harrives, hs.ended]
  · rcases hleaves.queue with hqueue | ⟨begun, -, hqueue⟩
    · rw [hqueue]
      exact fun task h => hrest task (List.mem_of_mem_tail h)
    · rw [hqueue]
      exact hrest
  · rw [harrives]
    exact turn_stage hq hrest hs.stage reply

/-- A chunk that comes before authentication waits for its turn. -/
theorem streams_chunk (hs : Streams es s) (hopen : s.ended = false) (ha : s.authenticated = false)
    (data : List UInt8) :
    Streams (es ++ [.chunk data]) { s with queue := s.queue ++ [.chunk data] } := by
  have harrives : arrived (es ++ [.chunk data]) = arrived es ++ [.chunk data] := arrived_concat es _
  have hwaiting : waiting (s.queue ++ [.chunk data]) = waiting s.queue ++ data :=
    waiting_concat s.queue _
  refine ⟨?_, ?_, ?_⟩
  · rw [harrives]
    simpa using hs.ended
  · intro task htask
    cases hqueue : s.queue with
    | nil =>
      simp only [hqueue] at htask
      cases htask
    | cons first rest =>
      simp only [hqueue] at htask
      rcases List.mem_append.mp htask with htask | htask
      · refine hs.fresh task ?_
        rwa [hqueue]
      · rw [List.mem_singleton.mp htask]
        rfl
  · have hstage := hs.stage
    rw [harrives, contents_append, contents_chunk]
    unfold Stage at hstage
    split at hstage
    · rename_i hc
      refine stage_of_before hc ha ?_
      have hread (h : s.ReadingLine (contents (arrived es))) :
          ReadingLine (contents (arrived es) ++ data)
            { s with queue := s.queue ++ [.chunk data] } := by
        refine ⟨?_, h.noLine, h.sc, fun hended => absurd (hended.symm.trans hopen) nofun⟩
        rw [hwaiting, h.buffered, List.append_assoc]
      have hverify (h : s.VerifyingLine (contents (arrived es))) :
          VerifyingLine (contents (arrived es) ++ data)
            { s with queue := s.queue ++ [.chunk data] } := by
        obtain ⟨⟨line, hline, hbuffered⟩, hsc, -⟩ := h
        refine ⟨⟨line, hline, ?_⟩, hsc, fun hended => absurd (hended.symm.trans hopen) nofun⟩
        rw [hwaiting, hbuffered]
        simp only [List.append_assoc, List.cons_append]
      have hbefore := hstage.2
      cases hqueue : s.queue with
      | nil =>
        rw [hqueue] at hbefore hread
        exact hread hbefore
      | cons first rest =>
        rw [hqueue] at hbefore hread hverify
        cases first with
        | chunk d => exact hread hbefore
        | verifying response => exact hverify hbefore
        | confirming => exact hverify hbefore
        | failing e => exact trivial
    · rw [ha] at hstage
      cases hstage.1
    · rename_i e hc
      unfold Stage
      rw [hc]
      trivial

/-- A chunk that goes past the mutex, and past nothing that waits for it. -/
theorem streams_fast (hs : Streams es s) (hopen : s.ended = false) (ha : s.authenticated = true)
    {data : List UInt8} (ho : data = [] ∨ waiting s.queue = []) :
    Streams (es ++ [.chunk data]) (s.add (.data data)) := by
  have harrives : arrived (es ++ [.chunk data]) = arrived es ++ [.chunk data] := arrived_concat es _
  refine ⟨?_, ?_, ?_⟩
  · rw [add_ended, harrives]
    simpa using hs.ended
  · rw [add_queue]
    exact hs.fresh
  · have hstage := hs.stage
    rw [harrives, contents_append, contents_chunk]
    unfold Stage at hstage
    split at hstage
    · rw [ha] at hstage
      cases hstage.1
    · rename_i hc
      obtain ⟨-, hfresh, ⟨⟨line, body, hline, hbytes, hbody, hsc⟩, -⟩⟩ := hstage
      rw [tail_of_open hopen, List.append_nil] at hsc
      have hnone : Delivery.done ∉ s.sc := by rw [hsc]; exact done_notMem hbody
      rw [add_of_open hnone]
      refine stage_of_relaying hc ha hfresh ⟨⟨line, body ++ [.data data], hline, ?_, ?_, ?_⟩, ?_⟩
      · rw [hbytes, List.flatMap_append, List.flatMap_singleton]
        change _ = line ++ newline :: (_ ++ data ++ waiting s.queue)
        rcases ho with hdata | hnil
        · simp only [hdata, List.append_nil]
        · simp only [hnil, List.append_nil, List.append_assoc, List.cons_append]
      · intro d hd
        rcases List.mem_append.mp hd with hd | hd
        · exact hbody d hd
        · rw [List.mem_singleton.mp hd]
          rfl
      · have htail : tail { s with sc := s.sc ++ [.data data] } = [] := tail_of_open hopen
        rw [htail, List.append_nil, hsc]
      · intro hended
        exact absurd (hended.symm.trans hopen) nofun
    · rename_i e hc
      unfold Stage
      rw [add_completer, hc]
      trivial

/-- The end, which closes the stream at once, when nothing is left to deliver. -/
theorem streams_done (hs : Streams es s) (hopen : s.ended = false)
    (ho : (∃ e, s.completer = some (.error e)) ∨ s.undelivered = []) :
    Streams (es ++ [.done]) (add { s with ended := true } .done) := by
  have harrives : arrived (es ++ [.done]) = arrived es ++ [.eof] := arrived_concat es _
  refine ⟨?_, ?_, ?_⟩
  · rw [add_ended, harrives]
    simp
  · rw [add_queue]
    exact hs.fresh
  · have hstage := hs.stage
    rw [harrives, contents_append, contents_eof, List.append_nil]
    have hclose (hsc : s.sc = s.tail) :
        add { s with ended := true } .done = { s with ended := true, sc := [.done] } := by
      rw [tail_of_open hopen] at hsc
      rw [add_of_open (by rw [hsc]; exact List.not_mem_nil), hsc]
      rfl
    unfold Stage at hstage
    split at hstage
    · rename_i hc
      obtain ⟨ha, hbefore⟩ := hstage
      have hnil : s.undelivered = [] := by
        rcases ho with ⟨e, he⟩ | hnil
        · rw [hc] at he
          cases he
        · exact hnil
      have hn : ¬s.authenticated = true := by rw [ha]; exact Bool.false_ne_true
      unfold undelivered at hnil
      rw [if_neg hn] at hnil
      have hread (h : s.ReadingLine (contents (arrived es)))
          (hline : afterLine (s.buffer ++ waiting s.queue) = []) :
          (add { s with ended := true } .done).ReadingLine (contents (arrived es)) := by
        rw [hclose h.sc]
        exact ⟨h.buffered, h.noLine, rfl, fun _ => hline⟩
      have hverify (h : s.VerifyingLine (contents (arrived es)))
          (hrest : s.buffer ++ waiting s.queue = []) :
          (add { s with ended := true } .done).VerifyingLine (contents (arrived es)) := by
        rw [hclose h.sc]
        exact ⟨h.buffered, rfl, fun _ => hrest⟩
      refine stage_of_before ((add_completer _ _).trans hc) ((add_authenticated _ _).trans ha) ?_
      rw [add_queue]
      cases hqueue : s.queue with
      | nil =>
        rw [hqueue] at hbefore hnil hread
        exact hread hbefore hnil
      | cons first rest =>
        rw [hqueue] at hbefore hnil hread hverify
        cases first with
        | chunk d => exact hread hbefore hnil
        | verifying response => exact hverify hbefore hnil
        | confirming => exact hverify hbefore hnil
        | failing e => exact trivial
    · rename_i hc
      obtain ⟨ha, hfresh, ⟨⟨line, body, hline, hbytes, hbody, hsc⟩, -⟩⟩ := hstage
      have hnil : waiting s.queue = [] := by
        rcases ho with ⟨e, he⟩ | hnil
        · rw [hc] at he
          cases he
        · unfold undelivered at hnil
          rwa [if_pos ha] at hnil
      rw [tail_of_open hopen, List.append_nil] at hsc
      have hnone : Delivery.done ∉ s.sc := by rw [hsc]; exact done_notMem hbody
      rw [add_of_open (by exact hnone)]
      refine stage_of_relaying hc ha hfresh ⟨⟨line, body, hline, hbytes, hbody, ?_⟩, fun _ => hnil⟩
      rw [← hsc]
      rfl
    · rename_i e hc
      unfold Stage
      rw [add_completer]
      simp only [hc]

theorem streams_step {e : Event} (hs : Streams es s) (hne : e ≠ .error) (ho : Orderly s e)
    (hstep : v.socketStep s e = some t) : Streams (es ++ [e]) t := by
  cases e with
  | chunk data =>
    simp only [socketStep] at hstep
    split at hstep
    · cases hstep
    · rename_i hopen
      have hopen : s.ended = false := by simpa using hopen
      split at hstep
      · rename_i ha
        obtain rfl := Option.some.inj hstep
        exact streams_fast hs hopen ha (ho ha)
      · rename_i ha
        obtain rfl := Option.some.inj hstep
        exact streams_chunk hs hopen (by simpa using ha) data
  | error => exact absurd rfl hne
  | done =>
    simp only [socketStep] at hstep
    split at hstep
    · cases hstep
    · rename_i hopen
      obtain rfl := Option.some.inj hstep
      exact streams_done hs (by simpa using hopen) ho
  | resume reply =>
    simp only [socketStep] at hstep
    split at hstep
    · cases hstep
    · rename_i task rest hq
      obtain rfl := Option.some.inj hstep
      exact streams_turn hs hq reply

theorem streams_challenged : Streams [] challenged :=
  ⟨⟨nofun, nofun⟩, nofun, rfl, rfl, List.not_mem_nil, rfl, nofun⟩

theorem streams_of_run (hne : Event.error ∉ es) (ho : v.socket.Meets Orderly challenged es)
    (hr : v.socket.run challenged es = some s) : Streams es s := by
  have hrun : Event.error ∉ es → Streams es s := by
    refine @Machine.run_induction_of_meets _ _ v.socket Orderly challenged
      (fun es s => Event.error ∉ es → Streams es s) ?_ ?_ es s ho hr
    · intro _
      exact streams_challenged
    · intro es e u t _ ih hg hstep hnone
      have hes : Event.error ∉ es := fun h => hnone (List.mem_append_left _ h)
      have he : e ≠ .error := by
        intro h
        rw [h] at hnone
        exact hnone (List.mem_append_right es List.mem_cons_self)
      exact streams_step (ih hes) he hg hstep
  exact hrun hne

/-- Once the future has completed, the chunks that wait bring the rest. -/
theorem drains (hs : Streams es s) (hc : s.completer = some (.ok ())) (reply : EscrReply) :
    ∃ t, v.socket.run s (s.queue.map fun _ => .resume reply) = some t ∧ t.queue = [] ∧
      Relays newline (arrived es) t.sc := by
  generalize hqueue : s.queue = queue
  induction queue generalizing es s with
  | nil =>
    obtain ⟨hended, -, hstage⟩ := hs
    unfold Stage at hstage
    rw [hc] at hstage
    obtain ⟨-, -, ⟨⟨line, body, hline, hbytes, hbody, hsc⟩, -⟩⟩ := hstage
    refine ⟨s, rfl, hqueue, line, body, hline, ?_, hbody, ?_⟩
    · rw [hbytes, hqueue]
      change line ++ newline :: (_ ++ []) = _
      rw [List.append_nil]
    · rw [hsc, tail]
      simp only [hended]
  | cons task rest ih =>
    have hs' : Streams (es ++ [.resume reply]) (v.turn s rest reply task) :=
      streams_turn hs hqueue reply
    have htask : task.begun = false := by
      have hstage := hs.stage
      unfold Stage at hstage
      rw [hc, hqueue] at hstage
      exact hstage.2.1 task rfl
    have ha : s.authenticated = true := by
      have hstage := hs.stage
      unfold Stage at hstage
      rw [hc] at hstage
      exact hstage.1
    have hdone : (v.turn s rest reply task).completer = some (.ok ()) ∧
        (v.turn s rest reply task).queue = rest := by
      cases task with
      | chunk data =>
        simp only [turn, onChunk, ha, if_true]
        exact ⟨(add_completer s _).trans hc, rfl⟩
      | _ => cases htask
    obtain ⟨t, hrun, htq, hr⟩ := ih hs' hdone.1 hdone.2
    refine ⟨t, ?_, htq, ?_⟩
    · have hstep : v.socket.step s (.resume reply) = some (v.turn s rest reply task) := by
        change v.socketStep s (.resume reply) = _
        simp only [socketStep, hqueue]
      rw [List.map_cons, Machine.run_step _ hstep]
      exact hrun
    · have harrives : arrived (es ++ [.resume reply]) = arrived es := by
        rw [arrived_concat]
        exact List.append_nil _
      rwa [harrives] at hr

/-- A socket whose events are orderly loses nothing once it has authenticated. -/
theorem verifySocketAuth_relays_of_orderly (hne : Event.error ∉ es)
    (ho : v.socket.Meets Orderly challenged es) (hr : v.socket.run challenged es = some s)
    (hc : s.completer = some (.ok ())) (reply : EscrReply) :
    ∃ t, v.socket.run s (s.queue.map fun _ => .resume reply) = some t ∧ t.queue = [] ∧
      Relays newline (arrived es) t.sc :=
  drains (streams_of_run hne ho hr) hc reply

end RelayAuthVerifierESCR
/-! Alice's response again, and what follows it. -/

def sampleEscr : RelayAuthVerifierESCR := { toRuntime := sampleRuntime, challenge := "ch" }

def sampleEscrReply : EscrReply :=
  ⟨⟨.ok (), ⟨fun _ => true, fun _ => .ok "new", fun _ _ => .ok "cDI="⟩⟩, false⟩

def sampleFields : EscrFields := ⟨"s", true, "@alice", "public:_apsk.1.a.__e@alice"⟩

theorem verifyWith_sample : sampleEscr.verifyWith "ch" sampleEscrReply.helper sampleResponse =
    .ok sampleFields := by
  have hverified : sampleRuntime.verifyClaim sampleClaim "cDI=" = .ok () :=
    verifyClaim_sample (Or.inr rfl)
  change sampleRuntime.verifyWith "ch" _ sampleResponse = _
  rw [Runtime.verifyWith, splitResponse_sample]
  simp only [ok_bind, sampleEscrReply, Bool.not_true, Bool.false_eq_true, if_false,
    readOuter_sample, decrypt_sample, readEnvelope_sample, hverified]
  rfl

def sampleResponseBytes : List UInt8 := sampleResponse.toList.map fun c => UInt8.ofNat c.toNat

/-- The socket while that response is the holder's, with `buffer` after it. -/
def verifyingSocket (buffer : List UInt8) (rest : List Task) : Socket :=
  { RelayAuthVerifierESCR.challenged with
    buffer := buffer, queue := .verifying sampleResponse :: rest }

def confirmingSocket (buffer : List UInt8) (rest : List Task) : Socket :=
  { RelayAuthVerifierESCR.challenged with
    buffer := buffer, written := [.challenge, .ok], consumed := true, fields := some sampleFields,
    queue := .confirming :: rest }

theorem step_verified (buffer : List UInt8) (rest : List Task) (ended : Bool)
    (sc : List (Delivery UInt8)) :
    sampleEscr.socket.step { verifyingSocket buffer rest with ended := ended, sc := sc }
      (.resume sampleEscrReply) =
        some { confirmingSocket buffer rest with ended := ended, sc := sc } := by
  have hprintable : ¬(sampleResponse.toList.any fun c => isUnprintable c.toNat) = true := by decide
  change some (sampleEscr.onResponse _ rest sampleEscrReply sampleResponse) = _
  rw [RelayAuthVerifierESCR.onResponse, if_neg hprintable]
  simp only [verifyingSocket, RelayAuthVerifierESCR.challenged, Bool.false_eq_true, if_false]
  rw [show sampleEscr.challenge = "ch" from rfl, verifyWith_sample]
  rfl

/-- The peer sends its response with two bytes more and closes, all before the
response has verified. -/
def earlyDone : List Event :=
  [.chunk (sampleResponseBytes ++ [10, 1, 2]), .resume sampleEscrReply, .done,
    .resume sampleEscrReply, .resume sampleEscrReply]

/-- A byte comes while the response is being verified, another right after. -/
def overtaking : List Event :=
  [.chunk (sampleResponseBytes ++ [10]), .resume sampleEscrReply, .chunk [1],
    .resume sampleEscrReply, .resume sampleEscrReply, .chunk [2], .resume sampleEscrReply]

/-- The socket once the future has completed with success. -/
def relayingSocket (buffer : List UInt8) (sc : List (Delivery UInt8)) (rest : List Task) : Socket :=
  { confirmingSocket buffer rest with
    authenticated := true, completer := some (.ok ()), sc := sc, queue := rest }

theorem run_earlyDone :
    sampleEscr.socket.run RelayAuthVerifierESCR.challenged earlyDone =
      some { relayingSocket [1, 2] [.done] [] with ended := true } := by
  have hread : sampleEscr.socket.run RelayAuthVerifierESCR.challenged
      [.chunk (sampleResponseBytes ++ [10, 1, 2]), .resume sampleEscrReply, .done] =
        some { verifyingSocket [1, 2] [] with ended := true, sc := [.done] } := by rfl
  have hsplit : earlyDone =
      [.chunk (sampleResponseBytes ++ [10, 1, 2]), .resume sampleEscrReply, .done] ++
        [.resume sampleEscrReply, .resume sampleEscrReply] := rfl
  rw [hsplit, Machine.run_append, hread, Option.bind_some,
    Machine.run_step _ (step_verified [1, 2] [] true [.done])]
  rfl

theorem run_overtaking :
    sampleEscr.socket.run RelayAuthVerifierESCR.challenged overtaking =
      some (relayingSocket [] [.data [2], .data [1]] []) := by
  have hread : sampleEscr.socket.run RelayAuthVerifierESCR.challenged
      [.chunk (sampleResponseBytes ++ [10]), .resume sampleEscrReply, .chunk [1]] =
        some { verifyingSocket [] [.chunk [1]] with ended := false, sc := [] } := by rfl
  have hsplit : overtaking =
      [.chunk (sampleResponseBytes ++ [10]), .resume sampleEscrReply, .chunk [1]] ++
        [.resume sampleEscrReply, .resume sampleEscrReply, .chunk [2], .resume sampleEscrReply] := rfl
  rw [hsplit, Machine.run_append, hread, Option.bind_some,
    Machine.run_step _ (step_verified [] [.chunk [1]] false [])]
  rfl

/-- A socket that has succeeded, with nothing left to do, and has lost what came
before the end of a socket or turned round what came after its response. -/
theorem verifySocketAuth_loses :
    (∃ s, sampleEscr.socket.run RelayAuthVerifierESCR.challenged earlyDone = some s ∧
      s.completer = some (.ok ()) ∧ s.queue = [] ∧ s.sc = [.done] ∧
        ¬Relays newline (arrived earlyDone) s.sc) ∧
      ∃ s, sampleEscr.socket.run RelayAuthVerifierESCR.challenged overtaking = some s ∧
        s.completer = some (.ok ()) ∧ s.queue = [] ∧ s.sc = [.data [2], .data [1]] ∧
          ¬Relays newline (arrived overtaking) s.sc := by
  refine ⟨⟨_, run_earlyDone, rfl, rfl, rfl, fun h => ?_⟩, _, run_overtaking, rfl, rfl, rfl,
    fun h => ?_⟩
  · have hlost : (splitFirst newline (contents (arrived earlyDone))).map Prod.snd = some [1, 2] := by
      rfl
    rw [h.splitFirst_contents] at hlost
    cases hlost
  · have hturned : (splitFirst newline (contents (arrived overtaking))).map Prod.snd =
        some [1, 2] := by rfl
    rw [h.splitFirst_contents] at hturned
    cases hturned

/-- The same events, with the end after the success. -/
def lateDone : List Event :=
  [.chunk (sampleResponseBytes ++ [10, 1, 2]), .resume sampleEscrReply, .resume sampleEscrReply,
    .resume sampleEscrReply, .chunk [3], .done]

theorem run_lateDone :
    sampleEscr.socket.Meets Orderly RelayAuthVerifierESCR.challenged lateDone ∧
      sampleEscr.socket.run RelayAuthVerifierESCR.challenged lateDone =
        some { relayingSocket [1, 2] [.data [1, 2], .data [3], .done] [] with ended := true } := by
  let M : Machine Socket Event := sampleEscr.socket
  have hchunk : M.step RelayAuthVerifierESCR.challenged
      (.chunk (sampleResponseBytes ++ [10, 1, 2])) = some { RelayAuthVerifierESCR.challenged with
        queue := [.chunk (sampleResponseBytes ++ [10, 1, 2])] } := rfl
  have hread : M.step { RelayAuthVerifierESCR.challenged with
      queue := [.chunk (sampleResponseBytes ++ [10, 1, 2])] } (.resume sampleEscrReply) =
        some { verifyingSocket [1, 2] [] with ended := false, sc := [] } := by rfl
  have hverified : M.step { verifyingSocket [1, 2] [] with ended := false, sc := [] }
      (.resume sampleEscrReply) =
        some { confirmingSocket [1, 2] [] with ended := false, sc := [] } :=
    step_verified [1, 2] [] false []
  have hsuccess : M.step { confirmingSocket [1, 2] [] with ended := false, sc := [] }
      (.resume sampleEscrReply) = some (relayingSocket [1, 2] [.data [1, 2]] []) := rfl
  have hfast : M.step (relayingSocket [1, 2] [.data [1, 2]] []) (.chunk [3]) =
      some (relayingSocket [1, 2] [.data [1, 2], .data [3]] []) := rfl
  have hdone : M.step (relayingSocket [1, 2] [.data [1, 2], .data [3]] []) .done =
      some { relayingSocket [1, 2] [.data [1, 2], .data [3], .done] [] with ended := true } := rfl
  constructor
  · refine M.meets_cons nofun hchunk (M.meets_cons trivial hread (M.meets_cons trivial hverified
      (M.meets_cons trivial hsuccess (M.meets_cons ?_ hfast (M.meets_cons ?_ hdone trivial)))))
    · exact fun _ => Or.inr rfl
    · exact Or.inr rfl
  · change M.run _ _ = _
    rw [lateDone, M.run_step hchunk, M.run_step hread, M.run_step hverified, M.run_step hsuccess,
      M.run_step hfast, M.run_step hdone, M.run_nil]

theorem verifySocketAuth_relays_of_orderly_lateDone :
    ∃ t, sampleEscr.socket.run { relayingSocket [1, 2] [.data [1, 2], .data [3], .done] [] with
        ended := true } (([] : List Task).map fun _ => .resume sampleEscrReply) = some t ∧
      t.queue = [] ∧ Relays newline (arrived lateDone) t.sc := by
  have hne : Event.error ∉ lateDone := by
    simp only [lateDone, List.mem_cons, List.not_mem_nil, reduceCtorEq, or_self, not_false_eq_true]
  exact RelayAuthVerifierESCR.verifySocketAuth_relays_of_orderly hne run_lateDone.1 run_lateDone.2
    rfl sampleEscrReply

end NoPorts.Srvd.Escr
