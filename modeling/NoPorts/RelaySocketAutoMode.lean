import NoPorts.RelaySocketAutoStream

/-! The mode of a relay socket: chosen once, and kept to. -/
namespace NoPorts.Srvd
open Lib Signing

namespace Socket

/-- What a task that has begun stands for; `verified` that a response of the
socket has verified. -/
def HeadOk (verified : Prop) (mode : SocketMode) : Option SocketTask → Prop
  | some (.legacyLine _) => mode = .legacy
  | some (.escrLine _) => mode = .escr
  | some .confirming => mode = .escr ∧ verified
  | _ => True

/-- The mode rules what is written, and which verification a success stands for. -/
structure Guarded (legacyVerified escrVerified : Prop) (s : Socket) : Prop where
  quiet : s.mode ≠ .escr → s.written = []
  once : s.written.count .challenge ≤ 1
  bounded : s.buffer.length ≤ maxAuthBufferLength
  success : s.completer = some (.ok ()) →
    s.mode = .escr ∧ escrVerified ∨ s.mode = .legacy ∧ legacyVerified

/-- The same, between two turns. -/
structure Kept (legacyVerified escrVerified : Prop) (s : Socket) : Prop
    extends Guarded legacyVerified escrVerified s where
  head : HeadOk escrVerified s.mode s.queue.head?

variable {L E : Prop} {s t : Socket} {rest : List SocketTask}

theorem HeadOk.of_fresh {mode : SocketMode} {next : Option SocketTask}
    (h : ∀ task ∈ next, task.begun = false) : HeadOk E mode next := by
  cases next with
  | none => trivial
  | some task =>
    have hfresh : task.begun = false := h task rfl
    cases task <;> trivial

theorem HeadOk.mono {E' : Prop} {mode : SocketMode} {next : Option SocketTask}
    (h : HeadOk E mode next) (he : E → E') : HeadOk E' mode next := by
  cases next with
  | none => trivial
  | some task => cases task <;> first | exact h | exact ⟨h.1, he h.2⟩

theorem Guarded.mono {L' E' : Prop} (h : Guarded L E s) (hl : L → L') (he : E → E') :
    Guarded L' E' s := by
  refine ⟨h.quiet, h.once, h.bounded, ?_⟩
  intro hc
  rcases h.success hc with ⟨hm, hv⟩ | ⟨hm, hv⟩
  · exact Or.inl ⟨hm, he hv⟩
  · exact Or.inr ⟨hm, hl hv⟩

/-- What neither writes nor chooses a mode, and ends the turn. -/
theorem Guarded.leave (h : Guarded L E s) (hrest : ∀ task ∈ rest, task.begun = false)
    (hm : t.mode = s.mode) (hw : t.written = s.written) (hc : t.completer = s.completer)
    (hb : t.buffer.length ≤ maxAuthBufferLength) (hq : t.queue = rest) : Kept L E t := by
  refine ⟨⟨?_, ?_, hb, ?_⟩, ?_⟩
  · rw [hm, hw]
    exact h.quiet
  · rw [hw]
    exact h.once
  · rw [hm, hc]
    exact h.success
  · rw [hq]
    exact HeadOk.of_fresh (fresh_head hrest)

theorem failAuth_kept (h : Guarded L E s) (hrest : ∀ task ∈ rest, task.begun = false)
    (e : Thrown) : Kept L E (s.failAuth rest e) := by
  unfold failAuth
  split
  · exact h.leave hrest rfl rfl rfl h.bounded rfl
  · rename_i hnone
    split
    · rename_i hm
      have hcount : (s.written ++ [Written.authFailed]).count .challenge =
          s.written.count .challenge := by
        rw [List.count_append]
        rfl
      refine ⟨⟨fun hne => absurd hm hne, ?_, h.bounded, ?_⟩, trivial⟩
      · rw [hcount]
        exact h.once
      · intro hc
        rw [hc] at hnone
        exact absurd rfl hnone
    · exact ⟨⟨h.quiet, h.once, h.bounded, nofun⟩, HeadOk.of_fresh (fresh_head hrest)⟩

theorem flushBuffer_buffer (s : Socket) : s.flushBuffer.buffer = [] := by
  unfold flushBuffer
  split
  · assumption
  · rfl

theorem completeSuccess_mode : (s.completeSuccess rest).mode = s.mode := by
  have hflush (t : Socket) : t.flushBuffer.mode = t.mode := by
    unfold flushBuffer
    split
    · rfl
    · exact add_mode t _
  have hcomplete (t : Socket) : t.complete.mode = t.mode := by
    unfold complete
    split
    · rfl
    · exact add_mode t _
  exact (hflush _).trans (hcomplete _)

theorem completeSuccess_written : (s.completeSuccess rest).written = s.written := by
  have hflush (t : Socket) : t.flushBuffer.written = t.written := by
    unfold flushBuffer
    split
    · rfl
    · exact add_written t _
  have hcomplete (t : Socket) : t.complete.written = t.written := by
    unfold complete
    split
    · rfl
    · exact add_written t _
  exact (hflush _).trans (hcomplete _)

theorem completeSuccess_kept (h : Guarded L E s) (hrest : ∀ task ∈ rest, task.begun = false)
    (hv : s.mode = .escr ∧ E ∨ s.mode = .legacy ∧ L) : Kept L E (s.completeSuccess rest) := by
  refine ⟨⟨?_, ?_, ?_, ?_⟩, HeadOk.of_fresh (fresh_head hrest)⟩
  · rw [completeSuccess_mode, completeSuccess_written]
    exact h.quiet
  · rw [completeSuccess_written]
    exact h.once
  · have hbuffer : (s.completeSuccess rest).buffer = [] := flushBuffer_buffer _
    rw [hbuffer]
    exact Nat.zero_le _
  · intro _
    rw [completeSuccess_mode]
    exact hv

theorem bufferChunk_kept (h : Guarded L E s) (hrest : ∀ task ∈ rest, task.begun = false)
    (hm : s.mode ≠ .detecting) (data : List UInt8) : Kept L E (s.bufferChunk rest data) := by
  unfold bufferChunk
  split
  · exact failAuth_kept h hrest _
  · rename_i hroom
    have hroom : (s.buffer ++ data).length ≤ maxAuthBufferLength := by
      rw [List.length_append]
      omega
    split
    · exact h.leave hrest rfl rfl rfl hroom rfl
    · rename_i line buffer hs
      have hshorter : buffer.length ≤ (s.buffer ++ data).length := by
        rw [(splitFirst_some hs).2, List.length_append, List.length_cons]
        omega
      refine ⟨⟨h.quiet, h.once, hshorter.trans hroom, h.success⟩, ?_⟩
      by_cases hl : s.mode = .legacy
      · simp only [hl, if_true]
        exact rfl
      · simp only [hl, if_false]
        cases hmode : s.mode with
        | detecting => exact absurd hmode hm
        | legacy => exact absurd hmode hl
        | escr => exact rfl

theorem onChunk_kept (h : Guarded L E s) (hrest : ∀ task ∈ rest, task.begun = false)
    (data : List UInt8) : Kept L E (s.onChunk rest data) := by
  unfold onChunk
  split
  · refine h.leave hrest (add_mode s _) (add_written s _) (add_completer s _) ?_ rfl
    change (s.add _).buffer.length ≤ _
    rw [add_buffer]
    exact h.bounded
  · split
    · rename_i hm
      have hquiet : s.written = [] := h.quiet (by rw [hm]; nofun)
      have hopen : s.completer ≠ some (.ok ()) := by
        intro hc
        rcases h.success hc with ⟨hmode, -⟩ | ⟨hmode, -⟩ <;> rw [hm] at hmode <;> cases hmode
      split
      · have hguarded : Guarded L E { s with detectTimer := false, mode := .legacy } :=
          ⟨fun _ => hquiet, h.once, h.bounded, fun hc => absurd hc hopen⟩
        exact bufferChunk_kept hguarded hrest nofun data
      · have hguarded : Guarded L E { s with detectTimer := false } :=
          ⟨h.quiet, h.once, h.bounded, h.success⟩
        exact failAuth_kept hguarded hrest _
    · rename_i hm
      exact bufferChunk_kept h hrest hm data

theorem resolveLocked_kept (h : Guarded L E s) (hrest : ∀ task ∈ rest, task.begun = false)
    (m : RelayAuthMode) : Kept L E (s.resolveLocked rest m) := by
  unfold resolveLocked
  split
  · exact h.leave hrest rfl rfl rfl h.bounded rfl
  · rename_i hstill
    obtain ⟨hm, -⟩ := not_or.mp hstill
    have hm : s.mode = .detecting := not_not.mp hm
    have hquiet : s.written = [] := h.quiet (by rw [hm]; nofun)
    have hopen : s.completer ≠ some (.ok ()) := by
      intro hc
      rcases h.success hc with ⟨hmode, -⟩ | ⟨hmode, -⟩ <;> rw [hm] at hmode <;> cases hmode
    cases m with
    | escr =>
      refine ⟨⟨fun hne => absurd rfl hne, ?_, h.bounded, fun hc => absurd hc hopen⟩, trivial⟩
      change (s.written ++ [Written.challenge]).count .challenge ≤ 1
      rw [hquiet]
      exact Nat.le_refl 1
    | payload =>
      exact ⟨⟨fun _ => hquiet, h.once, h.bounded, fun hc => absurd hc hopen⟩,
        HeadOk.of_fresh (fresh_head hrest)⟩

theorem onStart_kept (h : Guarded L E s) (hrest : ∀ task ∈ rest, task.begun = false) :
    Kept L E (s.onStart rest) := by
  unfold onStart
  split
  · split
    · exact resolveLocked_kept h hrest _
    · exact h.leave hrest rfl rfl rfl h.bounded rfl
  · exact h.leave hrest rfl rfl rfl h.bounded rfl

end Socket

namespace RelayAuthVerifierAuto
variable {v : RelayAuthVerifierAuto} {s t : Socket} {rest : List SocketTask} {task : SocketTask}
  {L E : Prop}
open Socket

/-- A response of this socket's session and side, verified as the socket's owner's. -/
structure Accepts (v : RelayAuthVerifierAuto) (helper : RelayAuthVerifyHelper) (response : String) :
    Prop where
  verified : ∃ fields, v.verifyWith v.challenge helper response = .ok fields ∧
    fields.sessionId = v.sessionId ∧ fields.isSideA = v.isSideA ∧
      v.toAtsign v.expectedAtSign = some fields.atSign

/-- An RSA-2048 signature over `dataToVerify`, in an envelope that carries the nonce. -/
structure AcceptsLegacy (v : RelayAuthVerifierAuto) (helper : RelayAuthVerifyHelper)
    (message : String) : Prop where
  verified : ∃ publicKey envelope payload signature hashingAlgo,
    v.legacyKey helper = .ok publicKey ∧
    v.jsonDecode message = .ok (.obj envelope) ∧ Json.field envelope "payload" = .obj payload ∧
    Json.field payload "rvdNonce" = .str v.rvdNonce ∧
    (Json.field envelope "signingAlgo").str?.bind SigningAlgoType.byName? = some .rsa2048 ∧
    Json.field envelope "signature" = .str signature ∧
    v.rsaVerifyString v.dataToVerify signature publicKey hashingAlgo = .ok true

theorem checkFields_ok {fields : EscrFields} (h : v.checkFields fields = .ok ()) :
    fields.sessionId = v.sessionId ∧ fields.isSideA = v.isSideA ∧
      v.toAtsign v.expectedAtSign = some fields.atSign := by
  obtain ⟨hsession, h⟩ := throwIf_ok.mp h
  obtain ⟨hside, h⟩ := throwIf_ok.mp h
  split at h
  · cases h
  · rename_i atSign hat
    obtain ⟨hatSign, -⟩ := throwIf_ok.mp h
    rw [← not_not.mp hatSign] at hat
    exact ⟨not_not.mp hsession, not_not.mp hside, hat⟩

theorem onEscrLine_kept (h : Guarded L E s) (hrest : ∀ task ∈ rest, task.begun = false)
    (hm : s.mode = .escr) (helper : RelayAuthVerifyHelper) (response : String)
    (hv : v.Accepts helper response → E) : Kept L E (v.onEscrLine s rest helper response) := by
  unfold onEscrLine
  split
  · exact failAuth_kept h hrest _
  · split
    · exact failAuth_kept h hrest _
    · split
      · have hguarded : Guarded L E { s with consumed := true } :=
          ⟨h.quiet, h.once, h.bounded, h.success⟩
        exact failAuth_kept hguarded hrest _
      · rename_i fields hfields
        obtain ⟨found, hfound, hfields⟩ := bind_eq_ok.mp hfields
        obtain ⟨⟨⟩, hcheck, hfields⟩ := bind_eq_ok.mp hfields
        have haccepts : v.Accepts helper response := ⟨found, hfound, checkFields_ok hcheck⟩
        have hcount : (s.written ++ [Written.ok]).count .challenge = s.written.count .challenge := by
          rw [List.count_append]
          rfl
        refine ⟨⟨fun hne => absurd hm hne, ?_, h.bounded, h.success⟩, hm, hv haccepts⟩
        change (s.written ++ [Written.ok]).count .challenge ≤ 1
        rw [hcount]
        exact h.once

theorem handleLegacyLine_ok {helper : RelayAuthVerifyHelper} {message : String}
    (h : v.handleLegacyLine helper message = .ok ()) : v.AcceptsLegacy helper message := by
  obtain ⟨publicKey, hkey, h⟩ := bind_eq_ok.mp h
  split at h
  · cases h
  · unfold verifyEnvelope at h
    split at h
    · rename_i envelope henvelope
      split at h
      · rename_i hashingAlgo signingAlgo hha hsa
        split at h
        · rename_i payload hpayload
          obtain ⟨hnonce, h⟩ := throwIf_ok.mp h
          obtain ⟨halgo, h⟩ := throwIf_ok.mp h
          split at h
          · cases h
          · rename_i signature hsignature
            split at h
            · rename_i hverified
              rw [not_not.mp halgo] at hsa
              exact ⟨publicKey, envelope, payload, signature, hashingAlgo, hkey, henvelope, hpayload,
                Json.str?_eq_some.mp (not_not.mp hnonce), hsa, Json.str?_eq_some.mp hsignature,
                hverified⟩
            · cases h
            · cases h
        · cases h
      · cases h
    · cases h
    · cases h

theorem turn_kept (h : Guarded L E s) (hrest : ∀ task ∈ rest, task.begun = false)
    (hhead : HeadOk E s.mode (some task)) (reply : Reply)
    (hl : ∀ message, task = .legacyLine message → v.AcceptsLegacy reply.helper message → L)
    (he : ∀ response, task = .escrLine response → v.Accepts reply.helper response → E) :
    Kept L E (v.turn s rest reply task) := by
  cases task with
  | start => exact onStart_kept h hrest
  | resolve m => exact resolveLocked_kept h hrest m
  | chunk data => exact onChunk_kept h hrest data
  | onError =>
    refine h.leave hrest ?_ ?_ ?_ ?_ rfl <;>
      simp only [turn, closeOnError, release, add_mode, add_written, add_completer, add_buffer]
    exact h.bounded
  | onDone =>
    refine h.leave hrest ?_ ?_ ?_ ?_ rfl <;>
      simp only [turn, closeOnDone, release, add_mode, add_written, add_completer, add_buffer]
    exact h.bounded
  | challenging =>
    simp only [turn]
    split
    · exact h.leave hrest rfl rfl rfl h.bounded rfl
    · exact failAuth_kept h hrest _
  | legacyLine message =>
    simp only [turn]
    split
    · rename_i hok
      exact completeSuccess_kept h hrest (Or.inr ⟨hhead, hl message rfl (handleLegacyLine_ok hok)⟩)
    · exact failAuth_kept h hrest _
  | escrLine response => exact onEscrLine_kept h hrest hhead reply.helper response (he response rfl)
  | confirming =>
    simp only [turn]
    split
    · exact completeSuccess_kept h hrest (Or.inl hhead)
    · exact failAuth_kept h hrest _
  | failing e => exact ⟨⟨h.quiet, h.once, h.bounded, fun hok => by cases hok⟩, HeadOk.of_fresh (fresh_head hrest)⟩

/-- Once chosen, the mode stays. -/
theorem turn_mode (hm : s.mode ≠ .detecting) (reply : Reply) :
    (v.turn s rest reply task).mode = s.mode := by
  have hfail (t : Socket) (e : Thrown) : (t.failAuth rest e).mode = t.mode := by
    unfold failAuth
    split
    · rfl
    · split <;> rfl
  have hresolve (m : RelayAuthMode) : (s.resolveLocked rest m).mode = s.mode := by
    unfold resolveLocked
    rw [if_pos (Or.inl hm)]
    rfl
  have hbuffer (data : List UInt8) : (s.bufferChunk rest data).mode = s.mode := by
    unfold bufferChunk
    split
    · exact hfail s _
    · split <;> rfl
  cases task with
  | start =>
    simp only [turn, onStart]
    split
    · rename_i hstill
      exact absurd hstill.1 hm
    · rfl
  | resolve m => exact hresolve m
  | chunk data =>
    simp only [turn, onChunk]
    rw [if_neg hm]
    split
    · exact add_mode s _
    · exact hbuffer data
  | onError => exact (add_mode _ _).trans (add_mode s _)
  | onDone => exact add_mode s _
  | challenging =>
    simp only [turn]
    split
    · rfl
    · exact hfail s _
  | legacyLine message =>
    simp only [turn]
    split
    · exact completeSuccess_mode
    · exact hfail s _
  | escrLine response =>
    simp only [turn, onEscrLine]
    split
    · exact hfail s _
    · split
      · exact hfail s _
      · split
        · exact hfail _ _
        · rfl
  | confirming =>
    simp only [turn]
    split
    · exact completeSuccess_mode
    · exact hfail s _
  | failing e => rfl

theorem socketStep_mode {e : SocketEvent} (hm : s.mode ≠ .detecting)
    (hstep : v.socketStep s e = some t) : t.mode = s.mode := by
  cases e with
  | chunk data =>
    simp only [socketStep] at hstep
    split at hstep
    · cases hstep
    · split at hstep
      · rw [← Option.some.inj hstep, add_mode]
      · rw [← Option.some.inj hstep]
  | error =>
    simp only [socketStep] at hstep
    split at hstep
    · cases hstep
    · rw [← Option.some.inj hstep]
  | done =>
    simp only [socketStep] at hstep
    split at hstep
    · cases hstep
    · rw [← Option.some.inj hstep]
  | timer =>
    simp only [socketStep] at hstep
    split at hstep
    · rw [← Option.some.inj hstep]
    · cases hstep
  | setKnownMode m resolves => rw [← Option.some.inj hstep]
  | otherVerified m => rw [← Option.some.inj hstep]
  | resume reply =>
    simp only [socketStep] at hstep
    split at hstep
    · cases hstep
    · rw [← Option.some.inj hstep]
      exact turn_mode hm reply

theorem mode_of_run {es : List SocketEvent} (hm : s.mode ≠ .detecting)
    (hr : v.socket.run s es = some t) : t.mode = s.mode := by
  have hstep (u : Socket) (e : SocketEvent) (w : Socket) (hu : u.mode = s.mode)
      (hw : v.socket.step u e = some w) : w.mode = s.mode := by
    have hmode : u.mode ≠ .detecting := by
      rw [hu]
      exact hm
    exact (socketStep_mode hmode hw).trans hu
  exact v.socket.invariant hstep rfl hr

/-! What the runs of a socket keep to. -/

variable (v) (knownMode : Option RelayAuthMode)

/-- At some moment of the run the socket verified a line as an ESCR response. -/
def EscrVerified (es : List SocketEvent) : Prop :=
  v.socket.At (connected knownMode) es fun u e =>
    ∃ response reply, e = .resume reply ∧ u.queue.head? = some (.escrLine response) ∧
      v.Accepts reply.helper response

/-- At some moment of the run the socket verified a line as a legacy envelope. -/
def LegacyVerified (es : List SocketEvent) : Prop :=
  v.socket.At (connected knownMode) es fun u e =>
    ∃ message reply, e = .resume reply ∧ u.queue.head? = some (.legacyLine message) ∧
      v.AcceptsLegacy reply.helper message

structure ModeSafe (es : List SocketEvent) (s : Socket) : Prop
    extends Kept (v.LegacyVerified knownMode es) (v.EscrVerified knownMode es) s where
  fresh : ∀ task ∈ s.queue.tail, task.begun = false

variable {v knownMode} {es : List SocketEvent}

/-- An event that adds to the end of the queue, at most. -/
theorem modeSafe_enqueue {e : SocketEvent} {more : List SocketTask}
    (h : v.ModeSafe knownMode es s) (hm : t.mode = s.mode) (hw : t.written = s.written)
    (hb : t.buffer = s.buffer) (hc : t.completer = s.completer) (hq : t.queue = s.queue ++ more)
    (hmore : ∀ task ∈ more, task.begun = false) : v.ModeSafe knownMode (es ++ [e]) t := by
  have hg : Guarded (v.LegacyVerified knownMode (es ++ [e])) (v.EscrVerified knownMode (es ++ [e])) s :=
    h.toGuarded.mono (fun hl => hl.later e) (fun he => he.later e)
  refine ⟨⟨⟨?_, ?_, ?_, ?_⟩, ?_⟩, ?_⟩
  · rw [hm, hw]
    exact hg.quiet
  · rw [hw]
    exact hg.once
  · rw [hb]
    exact hg.bounded
  · rw [hm, hc]
    exact hg.success
  · rw [hm, hq]
    cases hqueue : s.queue with
    | nil => exact HeadOk.of_fresh (fresh_head hmore)
    | cons first rest =>
      have hhead := h.head
      rw [hqueue] at hhead
      exact hhead.mono fun he => he.later e
  · rw [hq]
    intro task htask
    cases hqueue : s.queue with
    | nil =>
      rw [hqueue] at htask
      exact hmore task (List.mem_of_mem_tail htask)
    | cons first rest =>
      rw [hqueue] at htask
      rcases List.mem_append.mp htask with htask | htask
      · refine h.fresh task ?_
        rwa [hqueue]
      · exact hmore task htask

theorem modeSafe_turn (hr : v.socket.run (connected knownMode) es = some s)
    (h : v.ModeSafe knownMode es s) (hq : s.queue = task :: rest) (reply : Reply) :
    v.ModeSafe knownMode (es ++ [.resume reply]) (v.turn s rest reply task) := by
  have hrest : ∀ task ∈ rest, task.begun = false := by
    have hfresh := h.fresh
    rwa [hq] at hfresh
  have hnext : s.queue.head? = some task := by rw [hq]; rfl
  have hg : Guarded (v.LegacyVerified knownMode (es ++ [.resume reply]))
      (v.EscrVerified knownMode (es ++ [.resume reply])) s :=
    h.toGuarded.mono (fun hl => hl.later _) (fun he => he.later _)
  have hhead : HeadOk (v.EscrVerified knownMode (es ++ [.resume reply])) s.mode (some task) := by
    have hhead := h.head
    rw [hnext] at hhead
    exact hhead.mono fun he => he.later _
  refine ⟨turn_kept hg hrest hhead reply ?_ ?_, ?_⟩
  · intro message htask haccepts
    rw [htask] at hnext
    exact Machine.At.now hr ⟨message, reply, rfl, hnext, haccepts⟩
  · intro response htask haccepts
    rw [htask] at hnext
    exact Machine.At.now hr ⟨response, reply, rfl, hnext, haccepts⟩
  · have hleaves : Leaves rest s (v.turn s rest reply task) := turn_leaves reply
    rcases hleaves.queue with hqueue | ⟨begun, -, hqueue⟩
    · rw [hqueue]
      exact fun task htask => hrest task (List.mem_of_mem_tail htask)
    · rw [hqueue]
      exact hrest

theorem modeSafe_connected : v.ModeSafe knownMode [] (connected knownMode) := by
  refine ⟨⟨⟨fun _ => rfl, Nat.zero_le 1, Nat.zero_le _, nofun⟩, trivial⟩, nofun⟩

theorem modeSafe_step {e : SocketEvent} (hr : v.socket.run (connected knownMode) es = some s)
    (h : v.ModeSafe knownMode es s) (hstep : v.socketStep s e = some t) :
    v.ModeSafe knownMode (es ++ [e]) t := by
  have hone {task : SocketTask} (htask : task.begun = false) :
      ∀ next ∈ [task], next.begun = false := by
    intro next hn
    rwa [List.mem_singleton.mp hn]
  cases e with
  | chunk data =>
    simp only [socketStep] at hstep
    split at hstep
    · cases hstep
    · split at hstep
      · obtain rfl := Option.some.inj hstep
        exact modeSafe_enqueue h (add_mode s _) (add_written s _) (add_buffer s _)
          (add_completer s _) ((add_queue s _).trans (List.append_nil _).symm)
          fun _ hn => absurd hn List.not_mem_nil
      · obtain rfl := Option.some.inj hstep
        exact modeSafe_enqueue h rfl rfl rfl rfl rfl (hone rfl)
  | error =>
    simp only [socketStep] at hstep
    split at hstep
    · cases hstep
    · obtain rfl := Option.some.inj hstep
      exact modeSafe_enqueue h rfl rfl rfl rfl rfl (hone rfl)
  | done =>
    simp only [socketStep] at hstep
    split at hstep
    · cases hstep
    · obtain rfl := Option.some.inj hstep
      exact modeSafe_enqueue h rfl rfl rfl rfl rfl (hone rfl)
  | timer =>
    simp only [socketStep] at hstep
    split at hstep
    · obtain rfl := Option.some.inj hstep
      exact modeSafe_enqueue h rfl rfl rfl rfl rfl (hone rfl)
    · cases hstep
  | setKnownMode m resolves =>
    obtain rfl := Option.some.inj hstep
    cases resolves with
    | true => exact modeSafe_enqueue h rfl rfl rfl rfl rfl (hone rfl)
    | false => exact modeSafe_enqueue h rfl rfl rfl rfl rfl (by simp)
  | otherVerified m =>
    obtain rfl := Option.some.inj hstep
    exact modeSafe_enqueue h rfl rfl rfl rfl (List.append_nil _).symm
      fun _ hn => absurd hn List.not_mem_nil
  | resume reply =>
    simp only [socketStep] at hstep
    split at hstep
    · cases hstep
    · rename_i task rest hq
      obtain rfl := Option.some.inj hstep
      exact modeSafe_turn hr h hq reply

theorem modeSafe_of_run (hr : v.socket.run (connected knownMode) es = some s) :
    v.ModeSafe knownMode es s := by
  refine @Machine.run_induction _ _ v.socket (connected knownMode)
    (fun es s => v.ModeSafe knownMode es s) modeSafe_connected ?_ es s hr
  intro es e u t hu h hstep
  exact modeSafe_step hu h hstep

/-- Whatever comes first, data, timer or hint: nothing is written but in ESCR
mode, one challenge at most; a mode is kept once chosen; the buffer is bounded;
and a success stands for the verification of the mode in force. -/
theorem verifySocketAuth_mode (hr : v.socket.run (connected knownMode) es = some s) :
    (s.mode = .legacy → s.written = []) ∧
      (∀ more t, v.socket.run s more = some t → s.mode ≠ .detecting → t.mode = s.mode) ∧
        s.written.count .challenge ≤ 1 ∧ s.buffer.length ≤ maxAuthBufferLength ∧
          (s.completer = some (.ok ()) → s.mode = .escr ∧ v.EscrVerified knownMode es ∨
            s.mode = .legacy ∧ v.LegacyVerified knownMode es) := by
  have h : v.ModeSafe knownMode es s := modeSafe_of_run hr
  refine ⟨?_, fun more t hmore hm => mode_of_run hm hmore, h.once, h.bounded, h.success⟩
  intro hm
  refine h.quiet ?_
  rw [hm]
  nofun

end RelayAuthVerifierAuto

theorem verifySocketAuth_mode_sample :
    (sampleSocket.mode = .legacy → sampleSocket.written = []) ∧
      (∀ more t, sampleVerifierAuto.socket.run sampleSocket more = some t →
        sampleSocket.mode ≠ .detecting → t.mode = sampleSocket.mode) ∧
        sampleSocket.written.count .challenge ≤ 1 ∧
          sampleSocket.buffer.length ≤ maxAuthBufferLength ∧
            (sampleSocket.completer = some (.ok ()) →
              sampleSocket.mode = .escr ∧ sampleVerifierAuto.EscrVerified none sampleEvents ∨
                sampleSocket.mode = .legacy ∧ sampleVerifierAuto.LegacyVerified none sampleEvents) :=
  RelayAuthVerifierAuto.verifySocketAuth_mode run_sampleEvents

end NoPorts.Srvd
