import Mathlib.Algebra.GroupWithZero.Nat
import NoPorts.RelaySocketAutoStream

/-! A side that authenticates the legacy way: however its bytes come in, and whatever else happens to its
socket meanwhile, the relay takes its envelope for one, never writes to it and passes on what follows. -/
namespace NoPorts.Srvd
open Lib Signing

/-- The bytes of a run. -/
def sent (es : List SocketEvent) : List UInt8 := contents (arrived es)

/-- The bytes that tasks are still to take in. -/
def pending (queue : List SocketTask) : List UInt8 := contents (waiting queue)

theorem sent_concat (es : List SocketEvent) (e : SocketEvent) :
    sent (es ++ [e]) = sent es ++ contents e.input?.toList := by
  rw [sent, arrived_concat, contents_append]
  rfl

theorem pending_cons (task : SocketTask) (rest : List SocketTask) :
    pending (task :: rest) = contents task.input?.toList ++ pending rest := by
  rw [pending, waiting_cons, contents_append]
  rfl

/-- There is only one line that a text can begin with. -/
theorem line_unique {l m x y : List UInt8} (hl : newline ∉ l) (hm : newline ∉ m)
    (h : l ++ newline :: x <+: m ++ newline :: y) : l = m := by
  obtain ⟨z, hz⟩ := h
  have hsplit := splitFirst_eq hl (x ++ z)
  rw [← List.cons_append, ← List.append_assoc, hz, splitFirst_eq hm] at hsplit
  exact (Prod.mk.inj (Option.some.inj hsplit)).1.symm

/-! ### The queue -/

/-- No turn of `queue` challenges a socket that has yet to be detected: there is a chunk before it. -/
def Unchallenged (queue : List SocketTask) : Prop :=
  ∀ q₁ q₂, queue = q₁ ++ .resolve .escr :: q₂ → ∃ data, .chunk data ∈ q₁

theorem Unchallenged.tail {task : SocketTask} {rest : List SocketTask}
    (h : Unchallenged (task :: rest)) (htask : ∀ data, task ≠ .chunk data) : Unchallenged rest := by
  intro q₁ q₂ hq
  obtain ⟨data, hmem⟩ := h (task :: q₁) q₂ (by rw [hq]; rfl)
  rcases List.mem_cons.mp hmem with heq | hmem
  · exact absurd heq.symm (htask data)
  · exact ⟨data, hmem⟩

theorem Unchallenged.concat {queue : List SocketTask} {task : SocketTask} (h : Unchallenged queue)
    (htask : task = .resolve .escr → ∃ data, .chunk data ∈ queue) :
    Unchallenged (queue ++ [task]) := by
  intro q₁ q₂ hq
  rcases List.eq_nil_or_concat q₂ with rfl | ⟨q₂, last, rfl⟩
  · obtain ⟨rfl, hlast⟩ := List.append_inj' hq rfl
    exact htask (List.cons.inj hlast).1
  · rw [List.concat_eq_append, ← List.cons_append, ← List.append_assoc] at hq
    exact h q₁ q₂ (List.append_inj' hq rfl).1

theorem exists_chunk_of_pending {queue : List SocketTask} (h : pending queue ≠ []) :
    ∃ data, .chunk data ∈ queue := by
  induction queue with
  | nil => exact absurd rfl h
  | cons task rest ih =>
    rw [pending_cons] at h
    cases task with
    | chunk data => exact ⟨data, List.mem_cons_self⟩
    | _ =>
      obtain ⟨data, hmem⟩ := ih h
      exact ⟨data, List.mem_cons_of_mem _ hmem⟩

/-- The tasks of a socket whose peer is a legacy side. -/
inductive Calm (line : List UInt8) : SocketTask → Prop
  | start : Calm line .start
  | resolve (m : RelayAuthMode) : Calm line (.resolve m)
  | chunk (data : List UInt8) (hdata : data ≠ []) : Calm line (.chunk data)
  | onDone : Calm line .onDone
  | legacyLine : Calm line (.legacyLine (fromCharCodes line))

/-! ### The peer -/

/-- What a legacy side does, and what reaches its socket otherwise: the line and then the traffic, in chunks of
which the one that ends the line is not too long; no hint of the other mode; the timer not before
the first bytes. -/
structure LegacyPeer (v : RelayAuthVerifierAuto) (line traffic : List UInt8) (es : List SocketEvent) :
    Prop where
  sends : sent es <+: line ++ newline :: traffic
  nonempty : .chunk [] ∉ es
  fits : ∀ consumed data later, arrived es = consumed ++ .chunk data :: later →
    newline ∉ contents consumed → (contents consumed).length + data.length ≤ maxAuthBufferLength
  hints : ∀ m resolves, .setKnownMode m resolves ∈ es → m = .payload
  others : ∀ m, .otherVerified m ∈ es → m = .payload
  timer : ∀ es₁ es₂, es = es₁ ++ .timer :: es₂ → sent es₁ ≠ []
  helper : ∀ reply, .resume reply ∈ es → v.handleLegacyLine reply.helper (fromCharCodes line) = .ok ()
  noError : .error ∉ es

variable {v : RelayAuthVerifierAuto} {line traffic : List UInt8} {es : List SocketEvent}
  {e : SocketEvent} {s t : Socket} {task : SocketTask} {rest : List SocketTask}

theorem LegacyPeer.init (h : LegacyPeer v line traffic (es ++ [e])) : LegacyPeer v line traffic es where
  sends := by
    have hsends := h.sends
    rw [sent_concat] at hsends
    exact (List.prefix_append _ _).trans hsends
  nonempty hmem := h.nonempty (List.mem_append_left _ hmem)
  fits consumed data later harrived := h.fits consumed data (later ++ e.input?.toList) (by
    rw [arrived_concat, harrived, List.append_assoc, List.cons_append])
  hints m resolves hmem := h.hints m resolves (List.mem_append_left _ hmem)
  others m hmem := h.others m (List.mem_append_left _ hmem)
  timer es₁ es₂ hes := h.timer es₁ (es₂ ++ [e]) (by rw [hes, List.append_assoc, List.cons_append])
  helper reply hmem := h.helper reply (List.mem_append_left _ hmem)
  noError hmem := h.noError (List.mem_append_left _ hmem)

/-- The tasks may always go on. -/
theorem LegacyPeer.resume (h : LegacyPeer v line traffic es) {reply : Reply}
    (hreply : v.handleLegacyLine reply.helper (fromCharCodes line) = .ok ()) :
    LegacyPeer v line traffic (es ++ [.resume reply]) := by
  have harrives : arrived (es ++ [.resume reply]) = arrived es := by
    rw [arrived_concat]
    exact List.append_nil _
  have hold {e : SocketEvent} (hmem : e ∈ es ++ [.resume reply]) (he : e ≠ .resume reply) :
      e ∈ es := by
    rcases List.mem_append.mp hmem with hmem | hmem
    · exact hmem
    · exact absurd (List.mem_singleton.mp hmem) he
  refine ⟨?sends, ?nonempty, ?fits, ?hints, ?others, ?timer, ?helper, ?noError⟩
  case sends =>
    rw [sent, harrives]
    exact h.sends
  case nonempty => exact fun hmem => h.nonempty (hold hmem nofun)
  case fits =>
    rw [harrives]
    exact h.fits
  case hints => exact fun m resolves hmem => h.hints m resolves (hold hmem nofun)
  case others => exact fun m hmem => h.others m (hold hmem nofun)
  case timer =>
    intro es₁ es₂ hes
    rcases List.eq_nil_or_concat es₂ with rfl | ⟨es₂, last, rfl⟩
    · obtain ⟨-, hlast⟩ := List.append_inj' hes rfl
      exact absurd (List.cons.inj hlast).1 nofun
    · rw [List.concat_eq_append, ← List.cons_append, ← List.append_assoc] at hes
      exact h.timer es₁ es₂ (List.append_inj' hes rfl).1
  case helper =>
    intro other hmem
    rcases List.mem_append.mp hmem with hmem | hmem
    · exact h.helper other hmem
    · obtain rfl := SocketEvent.resume.inj (List.mem_singleton.mp hmem)
      exact hreply
  case noError => exact fun hmem => h.noError (hold hmem nofun)

/-! ### The socket -/

/-- What is known of the socket. -/
structure Honest (line : List UInt8) (s : Socket) : Prop where
  mode : s.mode ≠ .escr
  completer : s.completer = none ∨ s.completer = some (.ok ())
  written : s.written = []
  destroyed : s.destroyed = false
  knownMode : s.knownMode ≠ some .escr
  detecting : s.mode = .detecting →
    s.completer = none ∧ s.buffer = [] ∧ Unchallenged s.queue ∧ ∀ task ∈ s.queue, task.begun = false
  tasks : ∀ task ∈ s.queue, Calm line task

/-- A task that joins the queue. -/
theorem Honest.enqueue (h : Honest line s) (hmode : t.mode = s.mode)
    (hcompleter : t.completer = s.completer) (hwritten : t.written = s.written)
    (hdestroyed : t.destroyed = s.destroyed) (hbuffer : t.buffer = s.buffer)
    (hknown : t.knownMode ≠ some .escr) (hqueue : t.queue = s.queue ++ [task])
    (htask : Calm line task) (hfresh : task.begun = false)
    (hchunk : s.mode = .detecting → task = .resolve .escr → ∃ data, .chunk data ∈ s.queue) :
    Honest line t := by
  refine ⟨?mode, ?completer, ?written, ?destroyed, hknown, ?detecting, ?tasks⟩
  case mode => rw [hmode]; exact h.mode
  case completer => rw [hcompleter]; exact h.completer
  case written => rw [hwritten]; exact h.written
  case destroyed => rw [hdestroyed]; exact h.destroyed
  case detecting =>
    intro hdet
    rw [hmode] at hdet
    obtain ⟨hnone, hempty, hcalm, hbegun⟩ := h.detecting hdet
    rw [hcompleter, hbuffer, hqueue]
    refine ⟨hnone, hempty, hcalm.concat (hchunk hdet), ?_⟩
    intro other hmem
    rcases List.mem_append.mp hmem with hmem | hmem
    · exact hbegun other hmem
    · rwa [List.mem_singleton.mp hmem]
  case tasks =>
    rw [hqueue]
    intro other hmem
    rcases List.mem_append.mp hmem with hmem | hmem
    · exact h.tasks other hmem
    · rwa [List.mem_singleton.mp hmem]

/-- A turn after which the mode is the legacy one. -/
theorem Honest.legacy (h : Honest line s) (hqueue : s.queue = task :: rest)
    (hmode : t.mode = .legacy) (hcompleter : t.completer = none ∨ t.completer = some (.ok ()))
    (hwritten : t.written = s.written) (hdestroyed : t.destroyed = s.destroyed)
    (hknown : t.knownMode ≠ some .escr)
    (htasks : t.queue = rest ∨ t.queue = .legacyLine (fromCharCodes line) :: rest) :
    Honest line t := by
  have hcalm : ∀ other ∈ rest, Calm line other := by
    intro other hmem
    refine h.tasks other ?_
    rw [hqueue]
    exact List.mem_cons_of_mem _ hmem
  refine ⟨by rw [hmode]; exact nofun, hcompleter, hwritten.trans h.written,
    hdestroyed.trans h.destroyed, hknown, fun hdet => absurd (hmode.symm.trans hdet) nofun, ?_⟩
  rcases htasks with hrest | hrest
  · rwa [hrest]
  · rw [hrest]
    intro other hmem
    rcases List.mem_cons.mp hmem with rfl | hmem
    · exact .legacyLine
    · exact hcalm other hmem

/-- A turn that leaves the socket as it is, but for what is on its stream. -/
theorem Honest.leave (h : Honest line s) (hqueue : s.queue = task :: rest)
    (hchunk : s.mode = .detecting → ∀ data, task ≠ .chunk data) (hmode : t.mode = s.mode)
    (hcompleter : t.completer = s.completer) (hwritten : t.written = s.written)
    (hdestroyed : t.destroyed = s.destroyed) (hbuffer : t.buffer = s.buffer)
    (hknown : t.knownMode = s.knownMode) (hrest : t.queue = rest) : Honest line t := by
  refine ⟨?mode, ?completer, ?written, ?destroyed, ?knownMode, ?detecting, ?tasks⟩
  case mode => rw [hmode]; exact h.mode
  case completer => rw [hcompleter]; exact h.completer
  case written => rw [hwritten]; exact h.written
  case destroyed => rw [hdestroyed]; exact h.destroyed
  case knownMode => rw [hknown]; exact h.knownMode
  case detecting =>
    intro hdet
    rw [hmode] at hdet
    obtain ⟨hnone, hempty, hcalm, hbegun⟩ := h.detecting hdet
    rw [hqueue] at hcalm hbegun
    rw [hcompleter, hbuffer, hrest]
    exact ⟨hnone, hempty, hcalm.tail (hchunk hdet),
      fun other hmem => hbegun other (List.mem_cons_of_mem _ hmem)⟩
  case tasks =>
    rw [hrest]
    intro other hmem
    refine h.tasks other ?_
    rw [hqueue]
    exact List.mem_cons_of_mem _ hmem

section turn
open Socket RelayAuthVerifierAuto
variable {consumed : List (Input UInt8)}

/-- The chunk that is next neither overruns the buffer nor ends another line. -/
theorem bufferChunk_honest {data : List UInt8} (hpeer : LegacyPeer v line traffic es)
    (hline : newline ∉ line) (h : Honest line s) (hqueue : s.queue = .chunk data :: rest)
    (harrived : arrived es = consumed ++ .chunk data :: waiting rest)
    (hreading : Reading newline consumed s.buffer s.sc)
    (hmode : t.mode = .legacy) (hcompleter : t.completer = s.completer)
    (hwritten : t.written = s.written) (hdestroyed : t.destroyed = s.destroyed)
    (hbuffer : t.buffer = s.buffer) (hknown : t.knownMode = s.knownMode) :
    Honest line (t.bufferChunk rest data) := by
  have hfits : ¬t.buffer.length + data.length > maxAuthBufferLength := by
    have hlen := hpeer.fits consumed data (waiting rest) harrived
      (by rw [hreading.buffered]; exact hreading.noLine)
    rw [hreading.buffered] at hlen
    rw [hbuffer]
    omega
  have hopen : t.completer = none ∨ t.completer = some (.ok ()) := by
    rw [hcompleter]
    exact h.completer
  have hhint : t.knownMode ≠ some .escr := by
    rw [hknown]
    exact h.knownMode
  unfold bufferChunk
  rw [if_neg hfits]
  split
  · exact h.legacy hqueue hmode hopen hwritten hdestroyed hhint (Or.inl rfl)
  · rename_i first after hsplit
    obtain ⟨hfirst, heq⟩ := splitFirst_some hsplit
    -- the bytes so far are the first of what the side sends
    have hprefix : first ++ newline :: after <+: line ++ newline :: traffic := by
      have hsent : sent es = (first ++ newline :: after) ++ contents (waiting rest) := by
        rw [sent, harrived, contents_append, hreading.buffered, ← heq, hbuffer, List.append_assoc]
        rfl
      have hsends := hpeer.sends
      rw [hsent] at hsends
      exact (List.prefix_append _ _).trans hsends
    have hsame : first = line := line_unique hfirst hline hprefix
    refine h.legacy hqueue hmode hopen hwritten hdestroyed hhint (Or.inr ?_)
    rw [hsame]
    exact congrArg (· :: rest) (if_pos hmode)

/-- The first byte of the first chunk is the brace that opens the envelope. -/
theorem head_brace {data : List UInt8} (hpeer : LegacyPeer v line traffic es)
    (hbrace : line.head? = some 0x7B) (hcalm : Calm line (.chunk data))
    (harrived : arrived es = consumed ++ .chunk data :: waiting rest)
    (hnil : contents consumed = []) : data.head? = some 0x7B := by
  obtain ⟨y, hy⟩ := hpeer.sends
  rw [sent, harrived, contents_append, hnil] at hy
  cases hcalm with
  | chunk _ hdata =>
    obtain ⟨first, more, rfl⟩ := List.exists_cons_of_ne_nil hdata
    cases line with
    | nil => cases hbrace
    | cons brace after =>
      have hfirst : first = brace := (List.cons.inj hy).1
      rw [hfirst]
      exact hbrace

theorem honest_turn {reply : Reply} (hpeer : LegacyPeer v line traffic es) (hline : newline ∉ line)
    (hbrace : line.head? = some 0x7B)
    (hreply : v.handleLegacyLine reply.helper (fromCharCodes line) = .ok ()) (hs : Streams es s)
    (h : Honest line s) (hqueue : s.queue = task :: rest) :
    Honest line (v.turn s rest reply task) := by
  rcases h.completer with hnone | hdone
  · obtain ⟨consumed, harrived, hstage⟩ := hs.stage
    unfold Stage at hstage
    rw [hnone, hqueue] at hstage
    rw [hqueue] at harrived
    obtain ⟨hauth, hbefore⟩ := hstage
    have hcalm : Calm line task := h.tasks task (by rw [hqueue]; exact List.mem_cons_self)
    have hlegacy : s.mode ≠ .detecting → s.mode = .legacy := by
      have hmode := h.mode
      intro hdet
      cases hm : s.mode with
      | detecting => exact absurd hm hdet
      | legacy => rfl
      | escr => exact absurd hm hmode
    have hresolve (m : RelayAuthMode) (hm : s.mode = .detecting → m = .payload)
        (hne : ∀ data, task ≠ .chunk data) : Honest line (s.resolveLocked rest m) := by
      by_cases hdet : s.mode = .detecting
      · obtain rfl := hm hdet
        have hopen : ¬(s.mode ≠ .detecting ∨ s.authenticated = true) := by simp [hdet, hauth]
        unfold resolveLocked
        rw [if_neg hopen]
        exact h.legacy hqueue rfl (Or.inl hnone) rfl rfl h.knownMode (Or.inl rfl)
      · unfold resolveLocked
        rw [if_pos (Or.inl hdet)]
        exact h.leave hqueue (fun _ => hne) rfl rfl rfl rfl rfl rfl rfl
    cases task with
    | start =>
      simp only [turn, onStart]
      split
      · split
        · rename_i m hknown
          refine hresolve m ?_ (by intro _ hc; cases hc)
          intro _
          cases m with
          | payload => rfl
          | escr => exact absurd hknown h.knownMode
        · exact h.leave hqueue (by intro _ _ hc; cases hc) rfl rfl rfl rfl rfl rfl rfl
      · exact h.leave hqueue (by intro _ _ hc; cases hc) rfl rfl rfl rfl rfl rfl rfl
    | resolve m =>
      refine hresolve m ?_ (by intro _ hc; cases hc)
      intro hdet
      cases m with
      | payload => rfl
      | escr =>
        -- the timer has come only after a chunk
        obtain ⟨-, -, hcalm, -⟩ := h.detecting hdet
        obtain ⟨data, hmem⟩ := hcalm [] rest hqueue
        exact absurd hmem List.not_mem_nil
    | chunk data =>
      have hopen : ¬s.authenticated = true := by rw [hauth]; exact Bool.false_ne_true
      simp only [turn, onChunk]
      rw [if_neg hopen]
      by_cases hdet : s.mode = .detecting
      · obtain ⟨-, hempty, -, -⟩ := h.detecting hdet
        have hnil : contents consumed = [] := hbefore.buffered.trans hempty
        rw [if_pos hdet, if_pos (head_brace hpeer hbrace hcalm harrived hnil)]
        exact bufferChunk_honest hpeer hline h hqueue harrived hbefore rfl rfl rfl rfl rfl
          rfl
      · rw [if_neg hdet]
        exact bufferChunk_honest hpeer hline h hqueue harrived hbefore (hlegacy hdet) rfl
          rfl rfl rfl rfl
    | onDone =>
      have hadd : (s.add .done).knownMode = s.knownMode ∧ (s.add .done).destroyed = s.destroyed := by
        unfold add
        split <;> exact ⟨rfl, rfl⟩
      exact h.leave hqueue (by intro _ _ hc; cases hc) (add_mode s _) (add_completer s _) (add_written s _)
        hadd.2 (add_buffer s _) hadd.1 rfl
    | legacyLine message =>
      have hdet : s.mode ≠ .detecting := by
        intro hdet
        obtain ⟨-, -, -, hbegun⟩ := h.detecting hdet
        have hfalse := hbegun (.legacyLine message) (by rw [hqueue]; exact List.mem_cons_self)
        cases hfalse
      cases hcalm with
      | legacyLine =>
        have hread : LineRead newline consumed s.buffer s.sc := hbefore
        simp only [turn, hreply]
        rw [completeSuccess_eq hnone hread.out]
        refine h.legacy hqueue (hlegacy hdet) (Or.inr rfl) rfl rfl ?_ (Or.inl rfl)
        have hknown := h.knownMode
        cases hk : s.knownMode with
        | none => simp [hlegacy hdet]
        | some m =>
          rw [hk] at hknown
          exact hknown
    | _ => cases hcalm
  · rw [turn_of_succeeded hs hqueue hdone reply]
    have hdet : s.mode ≠ .detecting := by
      intro hdet
      obtain ⟨hnone, -⟩ := h.detecting hdet
      rw [hdone] at hnone
      cases hnone
    have hadd (d : Delivery UInt8) : (s.add d).knownMode = s.knownMode ∧
        (s.add d).destroyed = s.destroyed := by
      unfold add
      split <;> exact ⟨rfl, rfl⟩
    have hdeliver (d : Delivery UInt8) : Honest line ((s.add d).release rest) :=
      h.leave hqueue (fun h => absurd h hdet) (add_mode s _) (add_completer s _) (add_written s _)
        (hadd d).2 (add_buffer s _) (hadd d).1 rfl
    cases task with
    | chunk data => exact hdeliver _
    | onDone => exact hdeliver _
    | onError => exact absurd (by rw [hqueue]; exact List.mem_cons_self) hs.noError
    | _ => exact h.leave hqueue (fun h => absurd h hdet) rfl rfl rfl rfl rfl rfl rfl

end turn

/-! ### Runs -/

section run
open Socket RelayAuthVerifierAuto

theorem honest_connected {knownMode : Option RelayAuthMode} (hknown : knownMode ≠ some .escr) :
    Honest line (connected knownMode) := by
  refine ⟨nofun, Or.inl rfl, rfl, rfl, hknown, ?_, ?_⟩
  · intro _
    refine ⟨rfl, rfl, ?_, ?_⟩
    · intro q₁ q₂ hq
      have hmem : SocketTask.resolve .escr ∈ [SocketTask.start] := by
        rw [show [SocketTask.start] = q₁ ++ .resolve .escr :: q₂ from hq]
        exact List.mem_append_right q₁ List.mem_cons_self
      cases List.mem_singleton.mp hmem
    · intro task hmem
      rw [List.mem_singleton.mp hmem]
      rfl
  · intro task hmem
    rw [List.mem_singleton.mp hmem]
    exact .start

/-- A socket whose first bytes have come, and that is still to be detected, has a chunk waiting. -/
theorem chunk_of_detecting (hs : Streams es s) (h : Honest line s) (hdet : s.mode = .detecting)
    (hsent : sent es ≠ []) : ∃ data, .chunk data ∈ s.queue := by
  obtain ⟨hnone, hempty, -, hbegun⟩ := h.detecting hdet
  obtain ⟨consumed, harrived, hstage⟩ := hs.stage
  unfold Stage at hstage
  rw [hnone] at hstage
  have hnil : contents consumed = [] := by
    obtain ⟨-, hbefore⟩ := hstage
    cases hqueue : s.queue with
    | nil =>
      rw [hqueue] at hbefore
      exact hbefore.buffered.trans hempty
    | cons task rest =>
      have hfresh : task.begun = false := hbegun task (by rw [hqueue]; exact List.mem_cons_self)
      rw [hqueue] at hbefore
      cases task with
      | start => exact hbefore.buffered.trans hempty
      | resolve m => exact hbefore.buffered.trans hempty
      | chunk data => exact hbefore.buffered.trans hempty
      | onDone => exact hbefore.buffered.trans hempty
      | onError => exact hbefore.buffered.trans hempty
      | _ => cases hfresh
  refine exists_chunk_of_pending ?_
  intro hpending
  refine hsent ?_
  rw [sent, harrived, contents_append, hnil]
  exact hpending

theorem honest_step (hline : newline ∉ line) (hbrace : line.head? = some 0x7B)
    (hpeer : LegacyPeer v line traffic (es ++ [e])) (hs : Streams es s) (h : Honest line s)
    (hstep : v.socketStep s e = some t) : Honest line t := by
  have hmem : e ∈ es ++ [e] := List.mem_append_right es List.mem_cons_self
  cases e with
  | chunk data =>
    have hdata : data ≠ [] := fun hnil => hpeer.nonempty (hnil ▸ hmem)
    simp only [socketStep] at hstep
    split at hstep
    · cases hstep
    · split at hstep
      · rename_i hfast
        obtain rfl := Option.some.inj hstep
        -- as the turn of a task that would leave the queue at once
        have hqueued : Honest line { s with queue := s.queue ++ [.chunk data] } :=
          h.enqueue rfl rfl rfl rfl rfl h.knownMode rfl (.chunk data hdata) rfl (by intro _ hc; cases hc)
        have hdet : s.mode ≠ .detecting := by
          intro hdet
          obtain ⟨hnone, -⟩ := h.detecting hdet
          obtain ⟨consumed, -, hstage⟩ := hs.stage
          unfold Stage at hstage
          rw [hnone, hfast.1] at hstage
          cases hstage.1
        have hadd : (s.add (.data data)).knownMode = s.knownMode ∧
            (s.add (.data data)).destroyed = s.destroyed := by
          unfold add
          split <;> exact ⟨rfl, rfl⟩
        have hrest : ({ s with queue := s.queue ++ [.chunk data] } : Socket).queue =
            .chunk data :: [] := by
          simp only [hfast.2, List.nil_append]
        exact hqueued.leave hrest (fun h => absurd h hdet) (add_mode s _) (add_completer s _)
          (add_written s _) hadd.2 (add_buffer s _) hadd.1 ((add_queue s _).trans hfast.2)
      · obtain rfl := Option.some.inj hstep
        exact h.enqueue rfl rfl rfl rfl rfl h.knownMode rfl (.chunk data hdata) rfl (by intro _ hc; cases hc)
  | error => exact absurd hmem hpeer.noError
  | done =>
    simp only [socketStep] at hstep
    split at hstep
    · cases hstep
    · obtain rfl := Option.some.inj hstep
      exact h.enqueue rfl rfl rfl rfl rfl h.knownMode rfl .onDone rfl (by intro _ hc; cases hc)
  | timer =>
    simp only [socketStep] at hstep
    split at hstep
    · obtain rfl := Option.some.inj hstep
      exact h.enqueue rfl rfl rfl rfl rfl h.knownMode rfl (.resolve .escr) rfl
        (fun hdet _ => chunk_of_detecting hs h hdet (hpeer.timer es [] rfl))
    · cases hstep
  | setKnownMode m resolves =>
    obtain rfl := hpeer.hints m resolves hmem
    obtain rfl := Option.some.inj hstep
    cases resolves with
    | true =>
      exact h.enqueue rfl rfl rfl rfl rfl (by intro hc; cases hc) rfl (.resolve .payload) rfl
        (by intro _ hc; cases hc)
    | false =>
      have hqueue : s.queue ++ [] = s.queue := List.append_nil _
      simp only [Bool.false_eq_true, if_false, hqueue]
      exact ⟨h.mode, h.completer, h.written, h.destroyed, (by intro hc; cases hc), h.detecting, h.tasks⟩
  | otherVerified m =>
    obtain rfl := hpeer.others m hmem
    obtain rfl := Option.some.inj hstep
    refine ⟨h.mode, h.completer, h.written, h.destroyed, ?_, h.detecting, h.tasks⟩
    have hknown := h.knownMode
    cases hk : s.knownMode with
    | none =>
      intro hc
      cases hc
    | some m =>
      rw [hk] at hknown
      exact hknown
  | resume reply =>
    simp only [socketStep] at hstep
    split at hstep
    · cases hstep
    · rename_i task rest hqueue
      obtain rfl := Option.some.inj hstep
      exact honest_turn hpeer.init hline hbrace (hpeer.helper reply hmem) hs h hqueue

theorem honest_of_run {knownMode : Option RelayAuthMode} (hknown : knownMode ≠ some .escr)
    (hline : newline ∉ line) (hbrace : line.head? = some 0x7B)
    (hpeer : LegacyPeer v line traffic es)
    (hr : v.socket.run (connected knownMode) es = some s) : Honest line s := by
  have hrun : LegacyPeer v line traffic es → Honest line s := by
    refine @Machine.run_induction _ _ v.socket (connected knownMode)
      (fun es s => LegacyPeer v line traffic es → Honest line s) ?_ ?_ es s hr
    · intro _
      exact honest_connected hknown
    · intro es e u t hu ih hstep hpeer
      exact honest_step hline hbrace hpeer (streams_of_run hpeer.init.noError hu) (ih hpeer.init)
        hstep
  exact hrun hpeer

/-! ### The turns that are left -/

/-- How often a task may await, from its next turn on. -/
def awaits : SocketTask → ℕ
  | .chunk _ => 3
  | .start => 2
  | .resolve _ => 2
  | .escrLine _ => 2
  | .legacyLine _ => 1
  | .challenging => 1
  | .confirming => 1
  | _ => 0

def turns (queue : List SocketTask) : ℕ := (queue.map fun task => awaits task + 1).sum

/-- The task leaves the queue, or stays at its head with less to do. -/
def Proceeds (task : SocketTask) (rest : List SocketTask) (t : Socket) : Prop :=
  t.queue = rest ∨ ∃ next, awaits next < awaits task ∧ t.queue = next :: rest

theorem failAuth_proceeds (htask : 0 < awaits task) (s : Socket) (e : Thrown) :
    Proceeds task rest (s.failAuth rest e) := by
  unfold failAuth
  split
  · exact Or.inl rfl
  · split
    · exact Or.inr ⟨.failing e, htask, rfl⟩
    · exact Or.inl rfl

theorem bufferChunk_proceeds (s : Socket) (data chunk : List UInt8) :
    Proceeds (.chunk chunk) rest (s.bufferChunk rest data) := by
  unfold bufferChunk
  split
  · exact failAuth_proceeds (by exact Nat.succ_pos 2) _ _
  · split
    · exact Or.inl rfl
    · refine Or.inr ⟨_, ?_, rfl⟩
      split
      · exact Nat.lt_of_sub_eq_succ rfl
      · exact Nat.lt_of_sub_eq_succ rfl

theorem resolveLocked_proceeds (htask : 1 < awaits task) (s : Socket) (m : RelayAuthMode) :
    Proceeds task rest (s.resolveLocked rest m) := by
  unfold resolveLocked
  split
  · exact Or.inl rfl
  · cases m with
    | escr => exact Or.inr ⟨.challenging, htask, rfl⟩
    | payload => exact Or.inl rfl

theorem turn_proceeds (reply : Reply) : Proceeds task rest (v.turn s rest reply task) := by
  cases task with
  | start =>
    simp only [turn, onStart]
    split
    · split
      · exact resolveLocked_proceeds (by exact Nat.lt_succ_self 1) s _
      · exact Or.inl rfl
    · exact Or.inl rfl
  | resolve m => exact resolveLocked_proceeds (by exact Nat.lt_succ_self 1) s m
  | chunk data =>
    simp only [turn, onChunk]
    split
    · exact Or.inl rfl
    · split
      · split
        · exact bufferChunk_proceeds _ data data
        · exact failAuth_proceeds (by exact Nat.succ_pos 2) _ _
      · exact bufferChunk_proceeds s data data
  | onError => exact Or.inl rfl
  | onDone => exact Or.inl rfl
  | challenging =>
    simp only [turn]
    split
    · exact Or.inl rfl
    · exact failAuth_proceeds (by exact Nat.one_pos) s _
  | legacyLine message =>
    simp only [turn]
    split
    · exact Or.inl rfl
    · exact failAuth_proceeds (by exact Nat.one_pos) s _
  | escrLine response =>
    simp only [turn, onEscrLine]
    split
    · exact failAuth_proceeds (by exact Nat.two_pos) s _
    · split
      · exact failAuth_proceeds (by exact Nat.two_pos) s _
      · split
        · exact failAuth_proceeds (by exact Nat.two_pos) _ _
        · exact Or.inr ⟨.confirming, Nat.lt_succ_self 1, rfl⟩
  | confirming =>
    simp only [turn]
    split
    · exact Or.inl rfl
    · exact failAuth_proceeds (by exact Nat.one_pos) s _
  | failing e => exact Or.inl rfl

theorem turns_of_proceeds (h : Proceeds task rest t) : turns t.queue < turns (task :: rest) := by
  have hcons (task : SocketTask) : turns (task :: rest) = awaits task + 1 + turns rest := by
    simp only [turns, List.map_cons, List.sum_cons]
  rcases h with hrest | ⟨next, hlt, hnext⟩
  · rw [hrest, hcons]
    omega
  · rw [hnext, hcons, hcons]
    omega

/-- No task waits for good: replies alone bring every queue to its end. -/
theorem drained (v : RelayAuthVerifierAuto) (reply : Reply) (s : Socket) :
    ∃ n t, v.socket.run s (List.replicate n (.resume reply)) = some t ∧ t.queue = [] := by
  induction hk : turns s.queue using Nat.strongRecOn generalizing s with
  | ind k ih =>
    cases hqueue : s.queue with
    | nil => exact ⟨0, s, rfl, hqueue⟩
    | cons task rest =>
      have hlt : turns (v.turn s rest reply task).queue < k := by
        rw [← hk, hqueue]
        exact turns_of_proceeds (turn_proceeds reply)
      obtain ⟨n, t, hrun, ht⟩ := ih _ hlt _ rfl
      refine ⟨n + 1, t, ?_, ht⟩
      have hstep : v.socket.step s (.resume reply) = some (v.turn s rest reply task) := by
        change v.socketStep s (.resume reply) = _
        simp only [socketStep, hqueue]
      rw [List.replicate_succ, Machine.run_step _ hstep]
      exact hrun

theorem LegacyPeer.resumes (hpeer : LegacyPeer v line traffic es) {reply : Reply}
    (hreply : v.handleLegacyLine reply.helper (fromCharCodes line) = .ok ()) (n : ℕ) :
    LegacyPeer v line traffic (es ++ List.replicate n (.resume reply)) := by
  induction n with
  | zero =>
    rw [List.replicate_zero, List.append_nil]
    exact hpeer
  | succ n ih =>
    rw [List.replicate_succ', ← List.append_assoc]
    exact ih.resume hreply

theorem arrived_replies (es : List SocketEvent) (reply : Reply) (n : ℕ) :
    arrived (es ++ List.replicate n (.resume reply)) = arrived es := by
  induction n with
  | zero => rw [List.replicate_zero, List.append_nil]
  | succ n ih =>
    rw [List.replicate_succ', ← List.append_assoc, arrived_concat, ih]
    exact List.append_nil _

/-- A legacy side is let in, whatever the chunks its bytes come in and whatever comes between them:
its socket never fails, is not destroyed, and gets nothing written to it. As soon as its line has
been sent, what the tasks have left to do completes the future, and passes on what follows the
line. -/
theorem legacy_side_authenticates {knownMode : Option RelayAuthMode} {reply : Reply}
    (hknown : knownMode ≠ some .escr) (hline : newline ∉ line) (hbrace : line.head? = some 0x7B)
    (hreply : v.handleLegacyLine reply.helper (fromCharCodes line) = .ok ())
    (hpeer : LegacyPeer v line traffic es)
    (hr : v.socket.run (connected knownMode) es = some s) :
    (∀ thrown, s.completer ≠ some (.error thrown)) ∧ s.destroyed = false ∧ s.written = [] ∧
      (newline ∈ sent es → ∃ n t,
        v.socket.run s (List.replicate n (.resume reply)) = some t ∧ t.queue = [] ∧
          t.completer = some (.ok ()) ∧ t.destroyed = false ∧ t.written = [] ∧
          Relays newline (arrived es) t.sc) := by
  have hhonest : Honest line s := honest_of_run hknown hline hbrace hpeer hr
  refine ⟨?_, hhonest.destroyed, hhonest.written, ?_⟩
  · intro thrown hfail
    rcases hhonest.completer with hnone | hdone
    · rw [hnone] at hfail
      cases hfail
    · rw [hdone] at hfail
      cases hfail
  · intro hsent
    obtain ⟨n, t, hrun, hempty⟩ := drained v reply s
    have hlater : LegacyPeer v line traffic (es ++ List.replicate n (.resume reply)) :=
      hpeer.resumes hreply n
    have hall : v.socket.run (connected knownMode) (es ++ List.replicate n (.resume reply)) =
        some t := by
      rw [Machine.run_append, hr]
      exact hrun
    have ht : Honest line t := honest_of_run hknown hline hbrace hlater hall
    obtain ⟨consumed, harrived, hstage⟩ := (streams_of_run hlater.noError hall).stage
    rw [arrived_replies, hempty, show waiting [] = [] from rfl, List.append_nil] at harrived
    rw [← harrived] at hstage
    unfold Stage at hstage
    refine ⟨n, t, hrun, hempty, ?_⟩
    rcases ht.completer with hnone | hdone
    · -- nothing waits, and the line has come
      rw [hnone, hempty] at hstage
      obtain ⟨-, hreading⟩ := hstage
      refine absurd hsent ?_
      rw [sent, hreading.buffered]
      exact hreading.noLine
    · rw [hdone] at hstage
      exact ⟨hdone, ht.destroyed, ht.written, hstage.2.2.2⟩

end run

end NoPorts.Srvd
