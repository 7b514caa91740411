import NoPorts.RelaySocketAuto

/-! A relay socket that authenticates passes on what follows its first line. -/
namespace NoPorts.Srvd
open Lib Signing

def SocketTask.input? : SocketTask → Option (Input UInt8)
  | .chunk data => some (.chunk data)
  | .onDone => some .eof
  | _ => none

/-- Whether the task has had a turn, and holds the mutex. -/
def SocketTask.begun : SocketTask → Bool
  | .challenging => true
  | .legacyLine _ => true
  | .escrLine _ => true
  | .confirming => true
  | .failing _ => true
  | _ => false

theorem SocketTask.input?_of_begun {task : SocketTask} (h : task.begun = true) :
    task.input? = none := by
  cases task <;> first | rfl | cases h

/-- What the tasks of a queue are still to take in. -/
def waiting (queue : List SocketTask) : List (Input UInt8) := queue.filterMap SocketTask.input?

theorem waiting_cons (task : SocketTask) (rest : List SocketTask) :
    waiting (task :: rest) = task.input?.toList ++ waiting rest := by
  unfold waiting
  cases h : task.input? with
  | none => rw [List.filterMap_cons_none h]; rfl
  | some input => rw [List.filterMap_cons_some h]; rfl

theorem waiting_concat (queue : List SocketTask) (task : SocketTask) :
    waiting (queue ++ [task]) = waiting queue ++ task.input?.toList := by
  unfold waiting
  rw [List.filterMap_append]
  cases h : task.input? with
  | none => rw [List.filterMap_cons_none h]; rfl
  | some input => rw [List.filterMap_cons_some h]; rfl

def SocketEvent.input? : SocketEvent → Option (Input UInt8)
  | .chunk data => some (.chunk data)
  | .done => some .eof
  | _ => none

/-- The input of a socket over a run. -/
def arrived (es : List SocketEvent) : List (Input UInt8) := es.filterMap SocketEvent.input?

theorem arrived_concat (es : List SocketEvent) (e : SocketEvent) :
    arrived (es ++ [e]) = arrived es ++ e.input?.toList := by
  unfold arrived
  rw [List.filterMap_append]
  cases h : e.input? with
  | none => rw [List.filterMap_cons_none h]; rfl
  | some input => rw [List.filterMap_cons_some h]; rfl

namespace Socket

/-- How far a socket is that has not authenticated or failed, by its next task. -/
def Before (consumed : List (Input UInt8)) (s : Socket) : Option SocketTask → Prop
  | some (.failing _) => True
  | some (.legacyLine _) => LineRead newline consumed s.buffer s.sc
  | some (.escrLine _) => LineRead newline consumed s.buffer s.sc
  | some .confirming => LineRead newline consumed s.buffer s.sc
  | _ => Reading newline consumed s.buffer s.sc

/-- How far a socket is that has taken in `consumed`. -/
def Stage (consumed : List (Input UInt8)) (s : Socket) : Prop :=
  match s.completer with
  | none => s.authenticated = false ∧ s.Before consumed s.queue.head?
  | some (.ok ()) => s.authenticated = true ∧ s.buffer = [] ∧
      (∀ task ∈ s.queue.head?, task.begun = false) ∧ Relays newline consumed s.sc
  | some (.error _) => True

/-- What holds of a socket after a run without errors from the socket itself. -/
structure Streams (es : List SocketEvent) (s : Socket) : Prop where
  ended : s.ended = true ↔ Input.eof ∈ arrived es
  once : EndsOnce (arrived es)
  fresh : ∀ task ∈ s.queue.tail, task.begun = false
  noError : .onError ∉ s.queue
  stage : ∃ consumed, arrived es = consumed ++ waiting s.queue ∧ s.Stage consumed

/-! What a turn does to the queue: the task leaves it, or awaits at its head. -/

structure Leaves (rest : List SocketTask) (s t : Socket) : Prop where
  ended : t.ended = s.ended
  queue : t.queue = rest ∨ ∃ task, task.begun = true ∧ t.queue = task :: rest

variable {s t : Socket} {rest : List SocketTask} {consumed : List (Input UInt8)}

theorem failAuth_leaves (e : Thrown) : Leaves rest s (s.failAuth rest e) := by
  unfold failAuth
  split
  · exact ⟨rfl, Or.inl rfl⟩
  · split
    · exact ⟨rfl, Or.inr ⟨.failing e, rfl, rfl⟩⟩
    · exact ⟨rfl, Or.inl rfl⟩

theorem completeSuccess_leaves : Leaves rest s (s.completeSuccess rest) := by
  refine ⟨?_, Or.inl rfl⟩
  have hcomplete (t : Socket) : t.complete.ended = t.ended := by
    unfold complete
    split
    · rfl
    · exact add_ended t _
  have hflush (t : Socket) : t.flushBuffer.ended = t.ended := by
    unfold flushBuffer
    split
    · rfl
    · exact add_ended t _
  exact (hflush _).trans (hcomplete _)

theorem bufferChunk_leaves (data : List UInt8) : Leaves rest s (s.bufferChunk rest data) := by
  unfold bufferChunk
  split
  · exact failAuth_leaves _
  · split
    · exact ⟨rfl, Or.inl rfl⟩
    · refine ⟨rfl, Or.inr ⟨_, ?_, rfl⟩⟩
      split <;> rfl

theorem onChunk_leaves (data : List UInt8) : Leaves rest s (s.onChunk rest data) := by
  unfold onChunk
  split
  · exact ⟨add_ended s _, Or.inl rfl⟩
  · split
    · split
      · obtain ⟨hended, hqueue⟩ : Leaves rest { s with detectTimer := false, mode := .legacy }
          (bufferChunk { s with detectTimer := false, mode := .legacy } rest data) :=
            bufferChunk_leaves data
        exact ⟨hended, hqueue⟩
      · obtain ⟨hended, hqueue⟩ : Leaves rest { s with detectTimer := false }
          (failAuth { s with detectTimer := false } rest (unexpectedFirstByte data)) :=
            failAuth_leaves _
        exact ⟨hended, hqueue⟩
    · exact bufferChunk_leaves data

theorem resolveLocked_leaves (m : RelayAuthMode) : Leaves rest s (s.resolveLocked rest m) := by
  unfold resolveLocked
  split
  · exact ⟨rfl, Or.inl rfl⟩
  · cases m with
    | escr => exact ⟨rfl, Or.inr ⟨.challenging, rfl, rfl⟩⟩
    | payload => exact ⟨rfl, Or.inl rfl⟩

theorem onStart_leaves : Leaves rest s (s.onStart rest) := by
  unfold onStart
  split
  · split
    · exact resolveLocked_leaves _
    · exact ⟨rfl, Or.inl rfl⟩
  · exact ⟨rfl, Or.inl rfl⟩

/-- What a task has for the stream, once the socket has authenticated. -/
def deliver (s : Socket) : SocketTask → Socket
  | .chunk data => s.add (.data data)
  | .onDone => s.add .done
  | .onError => (s.add .error).add .done
  | _ => s

theorem deliver_completer (s : Socket) (task : SocketTask) :
    (s.deliver task).completer = s.completer := by
  cases task with
  | chunk data => exact add_completer s _
  | onDone => exact add_completer s _
  | onError => exact (add_completer _ _).trans (add_completer s _)
  | _ => rfl

theorem sc_add_grows (s : Socket) (d : Delivery UInt8) : s.sc <+: (s.add d).sc := by
  unfold add
  split
  · exact List.prefix_rfl
  · exact List.prefix_append s.sc [d]

/-- What has gone to the stream stays there. -/
theorem sc_deliver_grows (s : Socket) (task : SocketTask) : s.sc <+: (s.deliver task).sc := by
  cases task with
  | chunk data => exact sc_add_grows s _
  | onDone => exact sc_add_grows s _
  | onError => exact (sc_add_grows s _).trans (sc_add_grows _ _)
  | _ => exact List.prefix_rfl

/-! What a turn does to the stream, `consumed` what has been taken in by its end. -/

theorem stage_of_before (hc : s.completer = none) (ha : s.authenticated = false)
    (h : s.Before consumed s.queue.head?) : s.Stage consumed := by
  unfold Stage
  rw [hc]
  exact ⟨ha, h⟩

theorem stage_of_noInput {task : SocketTask} (hi : task.input? = none) (h : t.Stage consumed) :
    t.Stage (consumed ++ task.input?.toList) := by
  rw [hi, Option.toList_none, List.append_nil]
  exact h

theorem before_of_reading (h : Reading newline consumed s.buffer s.sc)
    {next : Option SocketTask} (hn : ∀ task ∈ next, task.begun = false) :
    s.Before consumed next := by
  cases next with
  | none => exact h
  | some task =>
    have hfresh : task.begun = false := hn task rfl
    cases task <;> first | exact h | cases hfresh

theorem fresh_head (hrest : ∀ task ∈ rest, task.begun = false) :
    ∀ task ∈ rest.head?, task.begun = false := by
  intro task h
  exact hrest task (List.mem_of_head? h)

/-- A task that leaves the line still being read. -/
theorem release_stage (hc : s.completer = none) (ha : s.authenticated = false)
    (h : Reading newline consumed s.buffer s.sc) (hrest : ∀ task ∈ rest, task.begun = false) :
    (s.release rest).Stage consumed :=
  stage_of_before hc ha (before_of_reading h (fresh_head hrest))

theorem failAuth_stage (hc : s.completer = none) (ha : s.authenticated = false) (e : Thrown) :
    (s.failAuth rest e).Stage consumed := by
  have hopen : ¬s.completer.isSome = true := by rw [hc]; exact Bool.false_ne_true
  unfold failAuth
  rw [if_neg hopen]
  by_cases hm : s.mode = .escr
  · rw [if_pos hm]
    exact stage_of_before hc ha trivial
  · rw [if_neg hm]
    exact trivial

theorem add_of_open (h : Delivery.done ∉ s.sc) (d : Delivery UInt8) :
    s.add d = { s with sc := s.sc ++ [d] } := by
  have hopen : ¬s.isClosed = true := by
    rw [isClosed, List.contains_iff_mem]
    exact h
  rw [add, if_neg hopen]

/-- Success passes on what the buffer holds. -/
theorem completeSuccess_eq (hc : s.completer = none) (hsc : s.sc = []) :
    s.completeSuccess rest = { s with
      authenticated := true,
      knownMode := s.knownMode.or (some (if s.mode = .escr then .escr else .payload)),
      completer := some (.ok ()),
      sc := if s.buffer = [] then s.sc else s.sc ++ [.data s.buffer],
      buffer := [], queue := rest } := by
  have hopen : Delivery.done ∉ s.sc := by rw [hsc]; exact List.not_mem_nil
  by_cases hb : s.buffer = []
  · simp only [completeSuccess, complete, flushBuffer, hc, hb, if_true, release]
  · simp only [completeSuccess, complete, flushBuffer, hc, hb, if_false, release]
    rw [add_of_open (by exact hopen)]

theorem completeSuccess_stage (hc : s.completer = none)
    (h : LineRead newline consumed s.buffer s.sc) (hrest : ∀ task ∈ rest, task.begun = false) :
    (s.completeSuccess rest).Stage consumed := by
  rw [completeSuccess_eq hc h.out]
  exact ⟨rfl, rfl, fresh_head hrest, h.relays⟩

theorem bufferChunk_stage (hc : s.completer = none) (ha : s.authenticated = false)
    (h : Reading newline consumed s.buffer s.sc) (he : Input.eof ∉ consumed)
    (hrest : ∀ task ∈ rest, task.begun = false) (data : List UInt8) :
    (s.bufferChunk rest data).Stage (consumed ++ [.chunk data]) := by
  unfold bufferChunk
  split
  · exact failAuth_stage hc ha _
  · split
    · rename_i hs
      exact stage_of_before hc ha (before_of_reading (h.chunk he hs) (fresh_head hrest))
    · rename_i line buffer hs
      have hline : LineRead newline (consumed ++ [.chunk data]) buffer s.sc := h.line he hs
      refine stage_of_before hc ha ?_
      by_cases hm : s.mode = .legacy
      · simp only [hm, if_true]
        exact hline
      · simp only [hm, if_false]
        exact hline

theorem onChunk_stage (hc : s.completer = none) (ha : s.authenticated = false)
    (h : Reading newline consumed s.buffer s.sc) (he : Input.eof ∉ consumed)
    (hrest : ∀ task ∈ rest, task.begun = false) (data : List UInt8) :
    (s.onChunk rest data).Stage (consumed ++ [.chunk data]) := by
  have hn : ¬s.authenticated = true := by rw [ha]; exact Bool.false_ne_true
  unfold onChunk
  rw [if_neg hn]
  split
  · split
    · exact bufferChunk_stage (by exact hc) (by exact ha) (by exact h) he hrest data
    · exact failAuth_stage (by exact hc) (by exact ha) _
  · exact bufferChunk_stage hc ha h he hrest data

theorem resolveLocked_stage (hc : s.completer = none) (ha : s.authenticated = false)
    (h : Reading newline consumed s.buffer s.sc) (hrest : ∀ task ∈ rest, task.begun = false)
    (m : RelayAuthMode) : (s.resolveLocked rest m).Stage consumed := by
  unfold resolveLocked
  split
  · exact release_stage hc ha h hrest
  · cases m with
    | escr => exact stage_of_before hc ha h
    | payload => exact stage_of_before hc ha (before_of_reading h (fresh_head hrest))

theorem onStart_stage (hc : s.completer = none) (ha : s.authenticated = false)
    (h : Reading newline consumed s.buffer s.sc) (hrest : ∀ task ∈ rest, task.begun = false) :
    (s.onStart rest).Stage consumed := by
  unfold onStart
  split
  · split
    · exact resolveLocked_stage hc ha h hrest _
    · exact stage_of_before hc ha (before_of_reading h (fresh_head hrest))
  · exact release_stage hc ha h hrest

theorem closeOnDone_stage (hc : s.completer = none) (ha : s.authenticated = false)
    (h : Reading newline consumed s.buffer s.sc) (he : Input.eof ∉ consumed)
    (hrest : ∀ task ∈ rest, task.begun = false) :
    (s.closeOnDone rest).Stage (consumed ++ [.eof]) := by
  have hopen : Delivery.done ∉ s.sc := by
    rw [h.out, if_neg he]
    exact List.not_mem_nil
  unfold closeOnDone release
  rw [add_of_open hopen]
  exact stage_of_before hc ha (before_of_reading (h.eof he) (fresh_head hrest))

end Socket

namespace RelayAuthVerifierAuto
variable {v : RelayAuthVerifierAuto} {s : Socket} {rest : List SocketTask} {task : SocketTask}
  {consumed : List (Input UInt8)}
open Socket

theorem onEscrLine_leaves (helper : RelayAuthVerifyHelper) (response : String) :
    Leaves rest s (v.onEscrLine s rest helper response) := by
  unfold onEscrLine
  split
  · exact failAuth_leaves _
  · split
    · exact failAuth_leaves _
    · split
      · rename_i e _
        obtain ⟨hended, hqueue⟩ : Leaves rest { s with consumed := true }
          (failAuth { s with consumed := true } rest e) := failAuth_leaves e
        exact ⟨hended, hqueue⟩
      · exact ⟨rfl, Or.inr ⟨.confirming, rfl, rfl⟩⟩

theorem turn_leaves (reply : Reply) : Leaves rest s (v.turn s rest reply task) := by
  cases task with
  | start => exact onStart_leaves
  | resolve m => exact resolveLocked_leaves m
  | chunk data => exact onChunk_leaves data
  | onError =>
    refine ⟨?_, Or.inl rfl⟩
    exact (add_ended _ _).trans (add_ended s _)
  | onDone => exact ⟨add_ended s _, Or.inl rfl⟩
  | challenging =>
    simp only [turn]
    split
    · exact ⟨rfl, Or.inl rfl⟩
    · exact failAuth_leaves _
  | legacyLine message =>
    simp only [turn]
    split
    · exact completeSuccess_leaves
    · exact failAuth_leaves _
  | escrLine response => exact onEscrLine_leaves reply.helper response
  | confirming =>
    simp only [turn]
    split
    · exact completeSuccess_leaves
    · exact failAuth_leaves _
  | failing e => exact ⟨rfl, Or.inl rfl⟩

theorem onEscrLine_stage (hc : s.completer = none) (ha : s.authenticated = false)
    (h : LineRead newline consumed s.buffer s.sc) (helper : RelayAuthVerifyHelper)
    (response : String) : (v.onEscrLine s rest helper response).Stage consumed := by
  unfold onEscrLine
  split
  · exact failAuth_stage hc ha _
  · split
    · exact failAuth_stage hc ha _
    · split
      · exact failAuth_stage (by exact hc) (by exact ha) _
      · exact stage_of_before hc ha h

/-- A turn before the future completes. -/
theorem turn_none (hc : s.completer = none) (ha : s.authenticated = false)
    (h : s.Before consumed (some task)) (hne : task ≠ .onError)
    (hrest : ∀ task ∈ rest, task.begun = false)
    (he : task.input? ≠ none → Input.eof ∉ consumed) (reply : Reply) :
    (v.turn s rest reply task).Stage (consumed ++ task.input?.toList) := by
  cases task with
  | start =>
    refine stage_of_noInput rfl ?_
    exact onStart_stage hc ha h hrest
  | resolve m =>
    refine stage_of_noInput rfl ?_
    exact resolveLocked_stage hc ha h hrest m
  | chunk data => exact onChunk_stage hc ha h (he nofun) hrest data
  | onError => exact absurd rfl hne
  | onDone => exact closeOnDone_stage hc ha h (he nofun) hrest
  | challenging =>
    refine stage_of_noInput rfl ?_
    simp only [turn]
    split
    · exact release_stage hc ha h hrest
    · exact failAuth_stage hc ha _
  | legacyLine message =>
    refine stage_of_noInput rfl ?_
    simp only [turn]
    split
    · exact completeSuccess_stage hc h hrest
    · exact failAuth_stage hc ha _
  | escrLine response =>
    refine stage_of_noInput rfl ?_
    exact onEscrLine_stage hc ha h reply.helper response
  | confirming =>
    refine stage_of_noInput rfl ?_
    simp only [turn]
    split
    · exact completeSuccess_stage hc h hrest
    · exact failAuth_stage hc ha _
  | failing e => exact trivial

/-- What a task does that has its first turn after authentication. -/
theorem turn_authenticated (ha : s.authenticated = true) (htask : task.begun = false)
    (reply : Reply) : v.turn s rest reply task = (s.deliver task).release rest := by
  cases task with
  | start => simp only [turn, onStart, ha, Bool.true_eq_false, and_false, if_false, deliver]
  | resolve m => simp only [turn, resolveLocked, ha, or_true, if_true, deliver]
  | chunk data => simp only [turn, onChunk, ha, if_true, deliver]
  | onError => rfl
  | onDone => rfl
  | _ => cases htask

/-- A turn once the future has completed with success. -/
theorem turn_succeeded (hc : s.completer = some (.ok ())) (ha : s.authenticated = true)
    (hb : s.buffer = []) (hr : Relays newline consumed s.sc) (htask : task.begun = false)
    (hne : task ≠ .onError) (hrest : ∀ task ∈ rest, task.begun = false)
    (he : task.input? ≠ none → Input.eof ∉ consumed) (reply : Reply) :
    (v.turn s rest reply task).Stage (consumed ++ task.input?.toList) := by
  rw [turn_authenticated ha htask reply]
  have hrelease : (s.release rest).Stage consumed := by
    unfold Stage release
    rw [hc]
    exact ⟨ha, hb, fresh_head hrest, hr⟩
  cases task with
  | start => exact stage_of_noInput rfl hrelease
  | resolve m => exact stage_of_noInput rfl hrelease
  | chunk data =>
    have heof : Input.eof ∉ consumed := he nofun
    rw [deliver, add_of_open (mt hr.done_mem_iff.mp heof)]
    unfold Stage release
    simp only [hc]
    exact ⟨ha, hb, fresh_head hrest, hr.chunk heof data⟩
  | onError => exact absurd rfl hne
  | onDone =>
    have heof : Input.eof ∉ consumed := he nofun
    rw [deliver, add_of_open (mt hr.done_mem_iff.mp heof)]
    unfold Stage release
    simp only [hc]
    exact ⟨ha, hb, fresh_head hrest, hr.eof heof⟩
  | _ => cases htask

/-- A future completes once: only a failure under way can still replace a failure. -/
theorem turn_completed {r : Except Thrown Unit} (hc : s.completer = some r) (reply : Reply) :
    (v.turn s rest reply task).completer = some r ∨
      ∃ e, task = .failing e ∧ (v.turn s rest reply task).completer = some (.error e) := by
  have hfail (t : Socket) (ht : t.completer = some r) (e : Thrown) :
      (t.failAuth rest e).completer = some r := by
    have hsome : t.completer.isSome = true := by rw [ht]; rfl
    unfold failAuth
    rw [if_pos hsome]
    exact ht
  have hsuccess : (s.completeSuccess rest).completer = some r := by
    have hflush (t : Socket) : t.flushBuffer.completer = t.completer := by
      unfold flushBuffer
      split
      · rfl
      · exact add_completer t _
    change (complete _).flushBuffer.completer = _
    rw [hflush]
    simp only [complete, hc, add_completer]
  have hbuffer (t : Socket) (ht : t.completer = some r) (data : List UInt8) :
      (t.bufferChunk rest data).completer = some r := by
    unfold bufferChunk
    split
    · exact hfail t ht _
    · split
      · exact ht
      · exact ht
  have hresolve (m : RelayAuthMode) : (s.resolveLocked rest m).completer = some r := by
    unfold resolveLocked
    split
    · exact hc
    · cases m <;> exact hc
  cases task with
  | start =>
    left
    simp only [turn, onStart]
    split
    · split
      · exact hresolve _
      · exact hc
    · exact hc
  | resolve m => exact Or.inl (hresolve m)
  | chunk data =>
    left
    simp only [turn, onChunk]
    split
    · exact (add_completer s _).trans hc
    · split
      · split
        · exact hbuffer _ (by exact hc) data
        · exact hfail _ (by exact hc) _
      · exact hbuffer s hc data
  | onError => exact Or.inl ((add_completer _ _).trans ((add_completer s _).trans hc))
  | onDone => exact Or.inl ((add_completer s _).trans hc)
  | challenging =>
    left
    simp only [turn]
    split
    · exact hc
    · exact hfail s hc _
  | legacyLine message =>
    left
    simp only [turn]
    split
    · exact hsuccess
    · exact hfail s hc _
  | escrLine response =>
    left
    simp only [turn, onEscrLine]
    split
    · exact hfail s hc _
    · split
      · exact hfail s hc _
      · split
        · exact hfail _ (by exact hc) _
        · exact hc
  | confirming =>
    left
    simp only [turn]
    split
    · exact hsuccess
    · exact hfail s hc _
  | failing e => exact Or.inr ⟨e, rfl, rfl⟩

/-! The steps of a run, and the run. -/
variable {es : List SocketEvent} {t : Socket}

/-- While a task still has input to take in, the end has not been taken in. -/
theorem eof_of_waiting (honce : EndsOnce (arrived es))
    (harrived : arrived es = consumed ++ waiting (task :: rest)) (hi : task.input? ≠ none) :
    Input.eof ∉ consumed := by
  intro he
  rw [harrived] at honce
  have hnil : waiting (task :: rest) = [] := honce.left he
  rw [waiting_cons] at hnil
  cases h : task.input? with
  | none => exact hi h
  | some input =>
    rw [h] at hnil
    cases hnil

theorem streams_turn (hs : Streams es s) (hq : s.queue = task :: rest) (reply : Reply) :
    Streams (es ++ [.resume reply]) (v.turn s rest reply task) := by
  have hleaves : Leaves rest s (v.turn s rest reply task) := turn_leaves reply
  have harrives : arrived (es ++ [.resume reply]) = arrived es := by
    rw [arrived_concat]
    exact List.append_nil _
  have hrest : ∀ task ∈ rest, task.begun = false := by
    have hfresh := hs.fresh
    rwa [hq] at hfresh
  have hne : task ≠ .onError := by
    intro he
    refine hs.noError ?_
    rw [hq, he]
    exact List.mem_cons_self
  have hnone : .onError ∉ rest := by
    intro he
    refine hs.noError ?_
    rw [hq]
    exact List.mem_cons_of_mem _ he
  refine ⟨?ended, ?once, ?fresh, ?noError, ?stage⟩
  case ended => rw [hleaves.ended, harrives, hs.ended]
  case once => rw [harrives]; exact hs.once
  case fresh =>
    rcases hleaves.queue with hrestQ | ⟨begun, -, hbegun⟩
    · rw [hrestQ]
      exact fun task h => hrest task (List.mem_of_mem_tail h)
    · rw [hbegun]
      exact hrest
  case noError =>
    rcases hleaves.queue with hrestQ | ⟨begun, hb, hbegun⟩
    · rwa [hrestQ]
    · rw [hbegun]
      intro he
      rcases List.mem_cons.mp he with he | he
      · rw [← he] at hb
        cases hb
      · exact hnone he
  case stage =>
    obtain ⟨consumed, harrived, hstage⟩ := hs.stage
    rw [hq] at harrived
    have heof : task.input? ≠ none → Input.eof ∉ consumed := eof_of_waiting hs.once harrived
    refine ⟨consumed ++ task.input?.toList, ?_, ?_⟩
    · have hwaiting : waiting (v.turn s rest reply task).queue = waiting rest := by
        rcases hleaves.queue with hrestQ | ⟨begun, hb, hbegun⟩
        · rw [hrestQ]
        · rw [hbegun, waiting_cons, SocketTask.input?_of_begun hb]
          rfl
      rw [harrives, harrived, waiting_cons, hwaiting, List.append_assoc]
    · unfold Stage at hstage
      split at hstage
      · rename_i hc
        rw [hq] at hstage
        exact turn_none hc hstage.1 hstage.2 hne hrest heof reply
      · rename_i hc
        obtain ⟨ha, hb, hhead, hr⟩ := hstage
        have htask : task.begun = false := hhead task (by rw [hq]; rfl)
        exact turn_succeeded hc ha hb hr htask hne hrest heof reply
      · rename_i e hc
        unfold Stage
        rcases turn_completed hc reply with hkept | ⟨e', -, he'⟩
        · rw [hkept]
          trivial
        · rw [he']
          trivial

/-- A task that joins the queue changes nothing yet. -/
theorem stage_enqueue (h : s.Stage consumed) (hc : t.completer = s.completer)
    (ha : t.authenticated = s.authenticated) (hb : t.buffer = s.buffer) (hsc : t.sc = s.sc)
    (hq : t.queue = s.queue ++ [task]) (htask : task.begun = false) : t.Stage consumed := by
  have hhead : t.queue.head? = s.queue.head? ∨ s.queue.head? = none ∧ t.queue.head? = some task := by
    rw [hq]
    cases s.queue with
    | nil => exact Or.inr ⟨rfl, rfl⟩
    | cons first rest => exact Or.inl rfl
  have hbefore (next : Option SocketTask) : s.Before consumed next → t.Before consumed next := by
    intro hn
    unfold Before at hn ⊢
    rw [hb, hsc]
    exact hn
  unfold Stage at h ⊢
  rw [hc]
  split at h
  · refine ⟨ha.trans h.1, ?_⟩
    rcases hhead with hhead | ⟨hnone, hhead⟩
    · rw [hhead]
      exact hbefore _ h.2
    · rw [hnone] at h
      have hreading : Reading newline consumed t.buffer t.sc := by
        rw [hb, hsc]
        exact h.2
      rw [hhead]
      refine before_of_reading hreading ?_
      intro next hn
      rwa [← Option.some.inj hn]
  · obtain ⟨hauth, hbuffer, hfresh, hr⟩ := h
    refine ⟨ha.trans hauth, hb.trans hbuffer, ?_, by rwa [hsc]⟩
    rcases hhead with hhead | ⟨-, hhead⟩
    · rwa [hhead]
    · rw [hhead]
      intro next hn
      rwa [← Option.some.inj hn]
  · trivial

theorem streams_enqueue {e : SocketEvent} (hs : Streams es s) (hc : t.completer = s.completer)
    (ha : t.authenticated = s.authenticated) (hb : t.buffer = s.buffer) (hsc : t.sc = s.sc)
    (hq : t.queue = s.queue ++ [task]) (htask : task.begun = false) (hne : task ≠ .onError)
    (hinput : e.input? = task.input?) (hlive : e.input? ≠ none → s.ended = false)
    (hended : t.ended = (s.ended || e.input? == some .eof)) : Streams (es ++ [e]) t := by
  have harrives : arrived (es ++ [e]) = arrived es ++ task.input?.toList := by
    rw [arrived_concat, hinput]
  refine ⟨?ended, ?once, ?fresh, ?noError, ?stage⟩
  case ended =>
    rw [hended, harrives, ← hinput]
    cases hi : e.input? with
    | none => simpa using hs.ended
    | some input => cases input <;> simp [hs.ended]
  case once =>
    rw [harrives]
    cases hi : task.input? with
    | none => simpa using hs.once
    | some input =>
      have hopen : s.ended = false := hlive (by rw [hinput, hi]; nofun)
      have hn : Input.eof ∉ arrived es := by
        rw [← hs.ended, hopen]
        exact Bool.false_ne_true
      exact EndsOnce.concat hn input
  case fresh =>
    rw [hq]
    intro next hn
    cases hqueue : s.queue with
    | nil =>
      rw [hqueue] at hn
      cases hn
    | cons first rest =>
      rw [hqueue] at hn
      rcases List.mem_append.mp hn with hn | hn
      · refine hs.fresh next ?_
        rwa [hqueue]
      · rwa [List.mem_singleton.mp hn]
  case noError =>
    rw [hq]
    intro hn
    rcases List.mem_append.mp hn with hn | hn
    · exact hs.noError hn
    · exact hne (List.mem_singleton.mp hn).symm
  case stage =>
    obtain ⟨consumed, harrived, hstage⟩ := hs.stage
    refine ⟨consumed, ?_, stage_enqueue hstage hc ha hb hsc hq htask⟩
    rw [harrives, harrived, hq, waiting_concat, List.append_assoc]

/-- A chunk that finds the mutex free, once the socket has authenticated. -/
theorem streams_fast (hs : Streams es s) (hopen : s.ended = false) (ha : s.authenticated = true)
    (hq : s.queue = []) (data : List UInt8) :
    Streams (es ++ [.chunk data]) (s.add (.data data)) := by
  have heof : Input.eof ∉ arrived es := by
    rw [← hs.ended, hopen]
    exact Bool.false_ne_true
  have harrives : arrived (es ++ [.chunk data]) = arrived es ++ [.chunk data] := arrived_concat es _
  have hqueue : (s.add (.data data)).queue = [] := by
    unfold add
    split <;> exact hq
  refine ⟨?_, ?_, ?_, ?_, arrived es ++ [.chunk data], ?_, ?_⟩
  · rw [add_ended, hopen, harrives]
    simpa using heof
  · rw [harrives]
    exact EndsOnce.concat heof _
  · rw [hqueue]
    exact nofun
  · rw [hqueue]
    exact List.not_mem_nil
  · rw [harrives, hqueue]
    exact (List.append_nil _).symm
  · obtain ⟨consumed, harrived, hstage⟩ := hs.stage
    have hconsumed : consumed = arrived es := by
      rw [harrived, hq]
      exact (List.append_nil consumed).symm
    rw [hconsumed] at hstage
    unfold Stage at hstage
    split at hstage
    · rw [ha] at hstage
      cases hstage.1
    · rename_i hc
      obtain ⟨-, hb, -, hr⟩ := hstage
      rw [add_of_open (mt hr.done_mem_iff.mp heof)]
      unfold Stage
      simp only [hc, hq]
      exact ⟨ha, hb, nofun, hr.chunk heof data⟩
    · rename_i e hc
      unfold Stage
      rw [add_completer, hc]
      trivial

/-- A hint that reaches the socket no sooner than its next connection. -/
theorem streams_hint {e : SocketEvent} (hs : Streams es s) (he : e.input? = none)
    (hint : Option RelayAuthMode) {queue : List SocketTask} (hq : queue = s.queue) :
    Streams (es ++ [e]) { s with knownMode := hint, queue := queue } := by
  have harrives : arrived (es ++ [e]) = arrived es := by
    rw [arrived_concat, he]
    exact List.append_nil _
  subst hq
  obtain ⟨hended, honce, hfresh, hnoError, hstage⟩ := hs
  rw [← harrives] at hended honce hstage
  exact ⟨hended, honce, hfresh, hnoError, hstage⟩

theorem streams_connected (knownMode : Option RelayAuthMode) : Streams [] (connected knownMode) := by
  refine ⟨?_, EndsOnce.nil, nofun, ?_, [], rfl, rfl, Reading.nil⟩
  · exact ⟨nofun, nofun⟩
  · intro h
    cases List.mem_singleton.mp h

theorem streams_step {e : SocketEvent} (hs : Streams es s) (hne : e ≠ .error)
    (hstep : v.socketStep s e = some t) : Streams (es ++ [e]) t := by
  cases e with
  | chunk data =>
    simp only [socketStep] at hstep
    split at hstep
    · cases hstep
    · rename_i hopen
      have hopen : s.ended = false := by simpa using hopen
      split at hstep
      · rename_i hfast
        obtain rfl := Option.some.inj hstep
        exact streams_fast hs hopen hfast.1 hfast.2 data
      · obtain rfl := Option.some.inj hstep
        exact streams_enqueue hs rfl rfl rfl rfl rfl rfl nofun rfl (fun _ => hopen) (by simp [SocketEvent.input?])
  | error => exact absurd rfl hne
  | done =>
    simp only [socketStep] at hstep
    split at hstep
    · cases hstep
    · rename_i hopen
      have hopen : s.ended = false := by simpa using hopen
      obtain rfl := Option.some.inj hstep
      exact streams_enqueue hs rfl rfl rfl rfl rfl rfl nofun rfl (fun _ => hopen) (by simp [SocketEvent.input?])
  | timer =>
    simp only [socketStep] at hstep
    split at hstep
    · obtain rfl := Option.some.inj hstep
      exact streams_enqueue hs rfl rfl rfl rfl rfl rfl nofun rfl nofun (by simp [SocketEvent.input?])
    · cases hstep
  | setKnownMode m resolves =>
    obtain rfl := Option.some.inj hstep
    cases resolves with
    | true => exact streams_enqueue hs rfl rfl rfl rfl rfl rfl nofun rfl nofun (by simp [SocketEvent.input?])
    | false => exact streams_hint hs rfl _ (List.append_nil _)
  | otherVerified m =>
    obtain rfl := Option.some.inj hstep
    exact streams_hint hs rfl _ rfl
  | resume reply =>
    simp only [socketStep] at hstep
    split at hstep
    · cases hstep
    · rename_i task rest hq
      obtain rfl := Option.some.inj hstep
      exact streams_turn hs hq reply

theorem streams_of_run {knownMode : Option RelayAuthMode} (hne : SocketEvent.error ∉ es)
    (hr : v.socket.run (connected knownMode) es = some s) : Streams es s := by
  have hrun : SocketEvent.error ∉ es → Streams es s := by
    refine @Machine.run_induction _ _ v.socket (connected knownMode)
      (fun es s => SocketEvent.error ∉ es → Streams es s) ?_ ?_ es s hr
    · intro _
      exact streams_connected knownMode
    · intro es e u t _ ih hstep hnone
      have hes : SocketEvent.error ∉ es := fun h => hnone (List.mem_append_left _ h)
      have he : e ≠ .error := by
        intro h
        rw [h] at hnone
        exact hnone (List.mem_append_right es List.mem_cons_self)
      exact streams_step (ih hes) he hstep
  exact hrun hne

/-- Once the future has completed, the tasks left in the queue take one turn each. -/
theorem turn_of_succeeded (hs : Streams es s) (hq : s.queue = task :: rest)
    (hc : s.completer = some (.ok ())) (reply : Reply) :
    v.turn s rest reply task = (s.deliver task).release rest := by
  obtain ⟨consumed, -, hstage⟩ := hs.stage
  unfold Stage at hstage
  rw [hc, hq] at hstage
  exact turn_authenticated hstage.1 (hstage.2.2.1 task rfl) reply

/-- Those turns bring to the stream all that has arrived. -/
theorem drains (hs : Streams es s) (hc : s.completer = some (.ok ())) (reply : Reply) :
    ∃ t, v.socket.run s (s.queue.map fun _ => .resume reply) = some t ∧ t.queue = [] ∧
      s.sc <+: t.sc ∧ Relays newline (arrived es) t.sc := by
  generalize hqueue : s.queue = queue
  induction queue generalizing es s with
  | nil =>
    obtain ⟨consumed, harrived, hstage⟩ := hs.stage
    unfold Stage at hstage
    rw [hc] at hstage
    refine ⟨s, rfl, hqueue, List.prefix_rfl, ?_⟩
    have hnil : consumed ++ waiting [] = consumed := List.append_nil consumed
    rw [harrived, hqueue, hnil]
    exact hstage.2.2.2
  | cons task rest ih =>
    have hturn : v.turn s rest reply task = (s.deliver task).release rest :=
      turn_of_succeeded hs hqueue hc reply
    have hs' : Streams (es ++ [.resume reply]) ((s.deliver task).release rest) := by
      rw [← hturn]
      exact streams_turn hs hqueue reply
    have hdone : ((s.deliver task).release rest).completer = some (.ok ()) :=
      (deliver_completer s task).trans hc
    obtain ⟨t, hrun, htq, hsc, hr⟩ := ih hs' hdone rfl
    refine ⟨t, ?_, htq, (sc_deliver_grows s task).trans hsc, ?_⟩
    · have hstep : v.socket.step s (.resume reply) = some ((s.deliver task).release rest) := by
        change v.socketStep s (.resume reply) = _
        simp only [socketStep, hqueue, hturn]
      rw [List.map_cons, Machine.run_step _ hstep]
      exact hrun
    · have harrives : arrived (es ++ [.resume reply]) = arrived es := by
        rw [arrived_concat]
        exact List.append_nil _
      rwa [harrives] at hr

/-- A socket that has authenticated loses nothing: what is on its stream is the
beginning of what follows the first line of its input, and the tasks that still
wait bring the rest, and then done, if the input has ended. -/
theorem verifySocketAuth_relays {knownMode : Option RelayAuthMode} (hne : SocketEvent.error ∉ es)
    (hr : v.socket.run (connected knownMode) es = some s) (hc : s.completer = some (.ok ()))
    (reply : Reply) :
    ∃ t, v.socket.run s (s.queue.map fun _ => .resume reply) = some t ∧ t.queue = [] ∧
      s.sc <+: t.sc ∧ Relays newline (arrived es) t.sc :=
  drains (streams_of_run hne hr) hc reply

end RelayAuthVerifierAuto

/-! A legacy side, which sends its envelope, three bytes more, and ends. -/

def sampleEnvelopeText : String :=
  "\x7b\"signature\":\"c2ln\",\"hashingAlgo\":\"sha256\",\"signingAlgo\":\"rsa2048\"," ++
    "\"payload\":\x7b\"rvdNonce\":\"n\"\x7d\x7d"

def sampleEnvelopeObj : Json :=
  .obj [("signature", .str "c2ln"), ("hashingAlgo", .str "sha256"), ("signingAlgo", .str "rsa2048"),
    ("payload", .obj [("rvdNonce", .str "n")])]

def sampleEnvelopeBytes : List UInt8 := sampleEnvelopeText.toList.map fun c => UInt8.ofNat c.toNat

/-- A verifier with the runtime of one text, in which `c2ln` signs everything. -/
def sampleVerifierAuto : RelayAuthVerifierAuto where
  jsonDecode text := if text = sampleEnvelopeText then .ok sampleEnvelopeObj
    else .error "Unexpected character"
  jsonEncode _ := ""
  apskSigningKeys _ := .ok []
  publicKeyKidOfBase64 pub := .ok pub
  rank _ := 0
  mlDsaVerify _ _ _ := .ok false
  rsa2048Hashing := sampleSdk.rsa2048Hashing
  verifyBytes := sampleSdk.verifyBytes
  toLowerCase := lowerAscii
  base64Decode := sampleSdk.base64Decode
  aesDecryptString _ _ _ := .error ""
  jsonText _ := ""
  toAtsign atSign := some atSign
  challenge := "ch"
  expectedAtSign := "@alice"
  sessionId := "s"
  isSideA := true
  dataToVerify := "\x7b\"sessionId\":\"s\",\"clientNonce\":\"c\",\"rvdNonce\":\"n\"\x7d"
  rvdNonce := "n"
  publicKey := some "cDI="

def sampleReply : Reply :=
  ⟨.ok (), ⟨fun _ => true, fun _ => .error (.other ""), fun _ _ => .error (.other "")⟩⟩

/-- The last byte and the end come while the envelope is being verified. -/
def sampleEvents : List SocketEvent :=
  [.resume sampleReply, .chunk (sampleEnvelopeBytes ++ [10, 1, 2]), .resume sampleReply,
    .chunk [3], .done, .resume sampleReply]

def sampleSocket : Socket :=
  { RelayAuthVerifierAuto.connected (some .payload) with
    mode := .legacy, authenticated := true, sc := [.data [1, 2]], completer := some (.ok ()),
    ended := true, queue := [.chunk [3], .onDone] }

theorem run_sampleEvents : sampleVerifierAuto.socket.run (RelayAuthVerifierAuto.connected none)
    sampleEvents = some sampleSocket := by rfl

theorem verifySocketAuth_relays_sample :
    ∃ t, sampleVerifierAuto.socket.run sampleSocket
        (sampleSocket.queue.map fun _ => .resume sampleReply) = some t ∧ t.queue = [] ∧
      sampleSocket.sc <+: t.sc ∧ Relays newline (arrived sampleEvents) t.sc := by
  have hne : SocketEvent.error ∉ sampleEvents := by
    simp only [sampleEvents, List.mem_cons, List.not_mem_nil, reduceCtorEq, or_self,
      not_false_eq_true]
  exact RelayAuthVerifierAuto.verifySocketAuth_relays hne run_sampleEvents rfl sampleReply

end NoPorts.Srvd
