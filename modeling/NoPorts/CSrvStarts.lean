import Mathlib.Algebra.GroupWithZero.Nat
import NoPorts.CDaemonSessionTable
import NoPorts.Lib.Blocks

/-! The C daemon's table of srv processes that have yet to report that they reached the relay. -/
namespace NoPorts.SrvStarts
open Lib

def SRV_START_TIMEOUT_MS : ℤ := 15000

/-- `SRV_COMPLETION_STRING` -/
def completion : List UInt8 := "rv started successfully".toList.map fun c => c.toNat.toUInt8

/-- `sizeof(start->seen)`: the NUL counts in `sizeof(SRV_COMPLETION_STRING)`. -/
def seenSize : ℕ := 2 * (completion.length + 1)

structure SrvStart where
  pid : ℕ
  readyFd : ℕ
  startedMs : ℤ
  /-- The bytes before the NUL that the code writes after what it has read. -/
  seen : List UInt8
deriving DecidableEq

structure Starts where
  starts : List SrvStart
  capacity : ℕ
deriving DecidableEq

/-- What the functions do outside the table. -/
inductive Effect
  | close (fd : ℕ)
  | kill (pid : ℕ)
deriving DecidableEq

/-- What a `read` comes to where `poll` found the pipe ready. Calls that were interrupted are made again. -/
inductive Read
  /-- These bytes are there; the call takes as many as it asks for. -/
  | data (c : UInt8) (cs : List UInt8)
  | closed
  | failed
deriving DecidableEq

namespace Read

def bytes : Read → List UInt8
  | .data c cs => c :: cs
  | .closed | .failed => []

/-- The calls it can take to have all of it. -/
def weight : Read → ℕ
  | .data _ cs => cs.length + 1
  | .closed | .failed => 1

/-- The bytes a call left, before what comes next. -/
def unread : List UInt8 → List Read → List Read
  | [], reads => reads
  | c :: cs, reads => .data c cs :: reads

end Read

def forgetStart (starts : List SrvStart) (i : ℕ) : List SrvStart × List Effect :=
  (CDaemon.ClientSessions.removeSwap starts i, (starts[i]?.map fun start => .close start.readyFd).toList)

/-- `grown` is whether `realloc` succeeds, should it be called. -/
def srvStartsWatch (t : Starts) (pid readyFd : ℕ) (nowMs : ℤ) (grown : Bool) : Starts × List Effect :=
  if t.starts.length = t.capacity then
    if grown then
      (⟨t.starts ++ [⟨pid, readyFd, nowMs, []⟩], if t.capacity = 0 then 8 else t.capacity * 2⟩, [])
    else (t, [.close readyFd])
  else ({ t with starts := t.starts ++ [⟨pid, readyFd, nowMs, []⟩] }, [])

/-- `strstr(seen, SRV_COMPLETION_STRING) != NULL` -/
def Reported (seen : List UInt8) : Prop := completion <:+: seen.takeWhile (· != 0)

instance (seen : List UInt8) : Decidable (Reported seen) := inferInstanceAs (Decidable (_ <:+: _))

/-- The loop of `start_settled`, given what is to be read until `poll` finds nothing there. -/
def startSettledLoop : ℕ → SrvStart → List Read → Bool × SrvStart
  | 0, start, _ => (false, start)
  | _ + 1, start, [] => (false, start)
  | _ + 1, start, .closed :: _ => (true, start)
  | _ + 1, start, .failed :: _ => (true, start)
  | fuel + 1, start, .data c cs :: reads =>
    let room := seenSize - 1 - start.seen.length
    let seen := start.seen ++ (c :: cs).take room
    -- a read of no bytes gives 0
    if room = 0 then (true, start)
    else if Reported seen then (true, { start with seen := seen })
    else
      startSettledLoop fuel { start with seen := if seen.length = seenSize - 1 then [] else seen }
        (Read.unread ((c :: cs).drop room) reads)

def startSettled (start : SrvStart) (reads : List Read) : Bool × SrvStart :=
  startSettledLoop (reads.map Read.weight).sum start reads

/-- The loop of `srv_starts_poll` at `i`, with `n` starts from there on; `pipes` gives what is to be read of
each fd. -/
def pollLoop (nowMs : ℤ) (pipes : ℕ → List Read) : ℕ → ℕ → List SrvStart → List SrvStart × List Effect
  | 0, _, starts => (starts, [])
  | n + 1, i, starts =>
    match starts[i]? with
    | none => (starts, [])
    | some start =>
      let (settled, start') := startSettled start (pipes start.readyFd)
      if settled then
        let (rest, closed) := forgetStart starts i
        let (left, effects) := pollLoop nowMs pipes n i rest
        (left, closed ++ effects)
      else if SRV_START_TIMEOUT_MS ≤ nowMs - start.startedMs then
        let (rest, closed) := forgetStart starts i
        let (left, effects) := pollLoop nowMs pipes n i rest
        (left, .kill start.pid :: (closed ++ effects))
      else pollLoop nowMs pipes n (i + 1) (starts.set i start')

def srvStartsPoll (t : Starts) (nowMs : ℤ) (pipes : ℕ → List Read) : Starts × List Effect :=
  let (starts, effects) := pollLoop nowMs pipes t.starts.length 0 t.starts
  ({ t with starts := starts }, effects)

def srvStartsReaped (t : Starts) (pid : ℕ) : Starts × List Effect :=
  match t.starts.findIdx? (·.pid == pid) with
  | some i => ({ t with starts := (forgetStart t.starts i).1 }, (forgetStart t.starts i).2)
  | none => (t, [])

/-! ### Runs -/

inductive Event
  | watch (pid readyFd : ℕ) (nowMs : ℤ) (grown : Bool)
  | poll (nowMs : ℤ) (pipes : ℕ → List Read)
  | reaped (pid : ℕ)

structure Happened where
  event : Event
  effects : List Effect

/-- The table, and what has happened, the latest first. -/
structure World where
  table : Starts
  past : List Happened

def World.initial : World := ⟨⟨[], 0⟩, []⟩

def World.after (w : World) (e : Event) (r : Starts × List Effect) : World := ⟨r.1, ⟨e, r.2⟩ :: w.past⟩

/-- A pid that is being watched is not watched again. -/
def step (w : World) : Event → Option World
  | .watch pid readyFd nowMs grown =>
    if pid ∉ w.table.starts.map SrvStart.pid then
      some (w.after (.watch pid readyFd nowMs grown) (srvStartsWatch w.table pid readyFd nowMs grown))
    else none
  | .poll nowMs pipes => some (w.after (.poll nowMs pipes) (srvStartsPoll w.table nowMs pipes))
  | .reaped pid => some (w.after (.reaped pid) (srvStartsReaped w.table pid))

def machine : Machine World Event := ⟨step⟩

/-! ### What a watched process is owed -/

/-- A process since it was last watched. -/
structure Life where
  readyFd : ℕ
  since : ℤ
  sent : List UInt8
  pipeOpen : Bool
  reaped : Bool
  kills : ℕ

/-- No end of the pipe is among what is read of it. -/
def PipeOpen (reads : List Read) : Prop := ∀ read ∈ reads, read ≠ .closed ∧ read ≠ .failed

instance (reads : List Read) : Decidable (PipeOpen reads) := inferInstanceAs (Decidable (∀ _ ∈ _, _))

def bytesOf (reads : List Read) : List UInt8 := reads.flatMap Read.bytes

/-- The part of an event in the life of `pid`. -/
def Life.next (pid : ℕ) (life : Option Life) : Event → Option Life
  | .watch p readyFd nowMs _ => if p = pid then some ⟨readyFd, nowMs, [], true, false, 0⟩ else life
  | .poll _ pipes => life.map fun l => { l with
      sent := l.sent ++ bytesOf (pipes l.readyFd), pipeOpen := l.pipeOpen && decide (PipeOpen (pipes l.readyFd)) }
  | .reaped p => if p = pid then life.map fun l => { l with reaped := true } else life

def lifeOf (pid : ℕ) : List Happened → Option Life
  | [] => none
  | h :: past =>
    (Life.next pid (lifeOf pid past) h.event).map fun l =>
      { l with kills := l.kills + h.effects.count (.kill pid) }

/-- SIGTERM is due: time is up, the pipe is open, and what has been sent is not what was waited for. -/
structure KillDue (l : Life) (nowMs : ℤ) (reads : List Read) : Prop where
  late : SRV_START_TIMEOUT_MS ≤ nowMs - l.since
  pipeOpen : l.pipeOpen = true ∧ PipeOpen reads
  unreported : ¬completion <:+: l.sent ++ bytesOf reads
  running : l.reaped = false
  first : l.kills = 0

/-- Every SIGTERM was due, each process having been sent one at most since it was watched. -/
def KillsDue : List Happened → Prop
  | [] => True
  | h :: past => KillsDue past ∧ (∀ pid l, lifeOf pid (h :: past) = some l → l.kills ≤ 1) ∧
    ∀ pid, .kill pid ∈ h.effects → ∃ nowMs pipes l, h.event = .poll nowMs pipes ∧
      lifeOf pid past = some l ∧ KillDue l nowMs (pipes l.readyFd)

def Event.watches (fd : ℕ) : Event → Bool
  | .watch _ readyFd _ _ => readyFd == fd
  | .poll _ _ | .reaped _ => false

/-- Of the times that `fd` was taken over, it is still held or has been closed once for each. -/
def ClosedOnce (w : World) : Prop := ∀ fd,
  (w.past.flatMap Happened.effects).count (.close fd) + w.table.starts.countP (·.readyFd == fd) =
    w.past.countP (·.event.watches fd)

/-- What a poll leaves of a start, whatever else is in the table. -/
def polled (nowMs : ℤ) (pipes : ℕ → List Read) (start : SrvStart) : Option SrvStart :=
  if (startSettled start (pipes start.readyFd)).1 ∨ SRV_START_TIMEOUT_MS ≤ nowMs - start.startedMs then none
  else some (startSettled start (pipes start.readyFd)).2

/-- Each start of the table is kept, changed or removed as if it were the only one. -/
def Apart (starts : List SrvStart) : Event → List SrvStart → Prop
  | .watch pid readyFd nowMs _, left => left = starts ∨ left = starts ++ [⟨pid, readyFd, nowMs, []⟩]
  | .poll nowMs pipes, left => left.Perm (starts.filterMap (polled nowMs pipes))
  | .reaped pid, left => left.Perm (starts.filter (·.pid != pid))

/-- The completion string, where it has been sent by a process whose time is up, is in one block of as many bytes
as the buffer takes, with no NUL before it in the block. -/
def ReportedWhole (w : World) : Event → Prop
  | .poll nowMs pipes => ∀ start ∈ w.table.starts, ∀ l, lifeOf start.pid w.past = some l →
      SRV_START_TIMEOUT_MS ≤ nowMs - l.since → PipeOpen (pipes l.readyFd) →
      completion <:+: l.sent ++ bytesOf (pipes l.readyFd) →
      InBlock (seenSize - 1) Reported (l.sent ++ bytesOf (pipes l.readyFd))
  | _ => True

instance (w : World) : DecidablePred (ReportedWhole w)
  | .poll nowMs pipes => inferInstanceAs (Decidable (∀ start ∈ w.table.starts, ∀ l ∈ lifeOf start.pid w.past,
      SRV_START_TIMEOUT_MS ≤ nowMs - l.since → PipeOpen (pipes l.readyFd) →
      completion <:+: l.sent ++ bytesOf (pipes l.readyFd) →
      InBlock (seenSize - 1) Reported (l.sent ++ bytesOf (pipes l.readyFd))))
  | .watch _ _ _ _ | .reaped _ => .isTrue trivial

/-! ### Reading -/

theorem not_reported_nil : ¬Reported [] := by decide +kernel

theorem Reported.append {seen : List UInt8} (h : Reported seen) (more : List UInt8) : Reported (seen ++ more) := by
  have hpre : seen.takeWhile (· != 0) <+: (seen ++ more).takeWhile (· != 0) := by
    rw [List.takeWhile_append]
    split
    · rename_i hall
      rw [(List.takeWhile_prefix _).eq_of_length hall]
      exact List.prefix_append _ _
    · exact List.prefix_rfl
  exact h.trans hpre.isInfix

theorem bytesOf_unread (left : List UInt8) (reads : List Read) :
    bytesOf (Read.unread left reads) = left ++ bytesOf reads := by
  cases left with
  | nil => rfl
  | cons c cs => rfl

theorem weight_unread (left : List UInt8) (reads : List Read) :
    ((Read.unread left reads).map Read.weight).sum = left.length + (reads.map Read.weight).sum := by
  cases left with
  | nil => exact (Nat.zero_add _).symm
  | cons c cs => rfl

theorem pipeOpen_cons {read : Read} {reads : List Read} :
    PipeOpen (read :: reads) ↔ (read ≠ .closed ∧ read ≠ .failed) ∧ PipeOpen reads := List.forall_mem_cons

theorem pipeOpen_data {c : UInt8} {cs : List UInt8} {reads : List Read} :
    PipeOpen (.data c cs :: reads) ↔ PipeOpen reads := by
  rw [pipeOpen_cons]
  exact and_iff_right ⟨Read.noConfusion, Read.noConfusion⟩

theorem pipeOpen_unread {left : List UInt8} {reads : List Read} :
    PipeOpen (Read.unread left reads) ↔ PipeOpen reads := by
  cases left with
  | nil => exact Iff.rfl
  | cons c cs => exact pipeOpen_data

/-- The buffer holds what has come since the last whole block, and nothing has been found. -/
def Scanned (sent seen : List UInt8) : Prop :=
  ∃ full, sent = full ++ seen ∧ seenSize - 1 ∣ full.length ∧ seen.length < seenSize - 1 ∧
    ¬InBlock (seenSize - 1) Reported full ∧ ¬Reported seen

theorem scanned_nil : Scanned [] [] := by
  refine ⟨[], rfl, Nat.dvd_zero _, by decide, ?_, not_reported_nil⟩
  rintro ⟨front, block, back, hnil, -, -, hp⟩
  obtain ⟨-, hnil⟩ := List.append_eq_nil_iff.mp hnil.symm
  obtain ⟨rfl, -⟩ := List.append_eq_nil_iff.mp hnil
  exact not_reported_nil hp

theorem Scanned.not_inBlock {sent seen : List UInt8} (h : Scanned sent seen) :
    ¬InBlock (seenSize - 1) Reported sent := by
  obtain ⟨full, rfl, hdvd, hlen, hfull, hseen⟩ := h
  rw [inBlock_append not_reported_nil (fun _ c hb => hb.append c) hdvd hlen.le]
  exact fun hor => hor.elim hfull hseen

/-- Some more bytes in the buffer, which is emptied when they fill it. -/
theorem Scanned.more {sent seen got : List UInt8} (h : Scanned sent seen)
    (hroom : seen.length + got.length ≤ seenSize - 1) (hnot : ¬Reported (seen ++ got)) :
    Scanned (sent ++ got) (if (seen ++ got).length = seenSize - 1 then [] else seen ++ got) := by
  obtain ⟨full, rfl, hdvd, -, hfull, -⟩ := h
  have hlen : (seen ++ got).length = seen.length + got.length := List.length_append
  rw [List.append_assoc]
  split
  · rename_i hend
    refine ⟨full ++ (seen ++ got), (List.append_nil _).symm, ?_, by decide, ?_, not_reported_nil⟩
    · rw [List.length_append, hend]
      exact Nat.dvd_add hdvd (Nat.dvd_refl _)
    · rw [inBlock_append not_reported_nil (fun _ c hb => hb.append c) hdvd hend.le]
      exact fun hor => hor.elim hfull hnot
  · exact ⟨full, rfl, hdvd, by omega, hfull, hnot⟩

/-- What `start_settled` comes to, given what the process has sent. -/
inductive Scan (sent : List UInt8) (start : SrvStart) (reads : List Read) : Bool × SrvStart → Prop
  | settled (start' : SrvStart)
    (h : ¬PipeOpen reads ∨ InBlock (seenSize - 1) Reported (sent ++ bytesOf reads)) :
    Scan sent start reads (true, start')
  | waiting (seen : List UInt8) (hopen : PipeOpen reads) (h : Scanned (sent ++ bytesOf reads) seen) :
    Scan sent start reads (false, { start with seen := seen })

theorem Scan.closed {sent : List UInt8} {start : SrvStart} {reads : List Read} (h : ¬PipeOpen reads) :
    Scan sent start reads (true, start) := .settled start (Or.inl h)

theorem Scan.nothing {sent : List UInt8} {start : SrvStart} (h : Scanned sent start.seen) :
    Scan sent start [] (false, start) := by
  refine .waiting start.seen (fun _ hread => absurd hread List.not_mem_nil) ?_
  rwa [bytesOf, List.flatMap_nil, List.append_nil]

theorem startSettledLoop_scan {fuel : ℕ} {sent : List UInt8} {start : SrvStart} {reads : List Read}
    (h : Scanned sent start.seen) (hfuel : (reads.map Read.weight).sum ≤ fuel) :
    Scan sent start reads (startSettledLoop fuel start reads) := by
  induction fuel generalizing sent start reads with
  | zero =>
    cases reads with
    | nil => exact .nothing h
    | cons read reads =>
      rw [List.map_cons, List.sum_cons] at hfuel
      cases read <;> exact absurd hfuel (by simp only [Read.weight]; omega)
  | succ fuel ih =>
    cases reads with
    | nil => exact .nothing h
    | cons read reads =>
      cases read with
      | closed => exact .closed fun hopen => (pipeOpen_cons.mp hopen).1.1 rfl
      | failed => exact .closed fun hopen => (pipeOpen_cons.mp hopen).1.2 rfl
      | data c cs =>
        have hlen : start.seen.length < seenSize - 1 := by
          obtain ⟨full, -, -, hlen, -⟩ := h
          exact hlen
        rw [startSettledLoop]
        generalize hroom : seenSize - 1 - start.seen.length = room
        have htake : ((c :: cs).take room).length ≤ room := List.length_take_le _ _
        -- what this call takes, and what is left of the bytes
        have hbytes : bytesOf (.data c cs :: reads) =
            (c :: cs).take room ++ bytesOf (Read.unread ((c :: cs).drop room) reads) := by
          rw [bytesOf_unread, ← List.append_assoc, List.take_append_drop]
          rfl
        rw [if_neg (by omega)]
        by_cases hfound : Reported (start.seen ++ (c :: cs).take room)
        · rw [if_pos hfound]
          refine .settled _ (Or.inr ?_)
          obtain ⟨full, rfl, hdvd, -⟩ := h
          rw [hbytes, ← List.append_assoc, List.append_assoc full]
          apply (InBlock.last hdvd _ hfound).mono (List.prefix_append _ _)
          rw [List.length_append]
          omega
        · rw [if_neg hfound]
          have hnext := h.more (by omega) hfound
          have hweight : ((Read.unread ((c :: cs).drop room) reads).map Read.weight).sum ≤ fuel := by
            rw [weight_unread, List.length_drop, List.length_cons]
            rw [List.map_cons, List.sum_cons, Read.weight] at hfuel
            omega
          have hscan := @ih _ { start with seen := (if (start.seen ++ (c :: cs).take room).length = seenSize - 1
            then [] else start.seen ++ (c :: cs).take room) } _ hnext hweight
          generalize startSettledLoop fuel _ _ = r at hscan ⊢
          cases hscan with
          | settled start' hor =>
            rw [List.append_assoc, ← hbytes, pipeOpen_unread] at hor
            exact .settled start' (by rwa [pipeOpen_data])
          | waiting seen hopen hseen =>
            rw [List.append_assoc, ← hbytes] at hseen
            exact .waiting seen (pipeOpen_data.mpr (pipeOpen_unread.mp hopen)) hseen

theorem startSettled_scan {sent : List UInt8} {start : SrvStart} (h : Scanned sent start.seen)
    (reads : List Read) : Scan sent start reads (startSettled start reads) :=
  startSettledLoop_scan h (le_refl _)

/-! ### Removal while the table is gone through -/

/-- What a poll does for a start. -/
def effectsOf (nowMs : ℤ) (pipes : ℕ → List Read) (start : SrvStart) : List Effect :=
  if (startSettled start (pipes start.readyFd)).1 then [.close start.readyFd]
  else if SRV_START_TIMEOUT_MS ≤ nowMs - start.startedMs then [.kill start.pid, .close start.readyFd]
  else []

theorem take_removeSwap {α : Type*} {xs : List α} {i : ℕ} (hi : i < xs.length) :
    (CDaemon.ClientSessions.removeSwap xs i).take i = xs.take i := by
  rcases List.eq_nil_or_concat xs with rfl | ⟨front, last, rfl⟩
  · exact absurd hi (Nat.not_lt_zero i)
  · rw [List.concat_eq_append] at hi ⊢
    rw [List.length_append, List.length_singleton] at hi
    rw [CDaemon.ClientSessions.removeSwap, List.getLast?_concat]
    show ((front ++ [last]).set i last).dropLast.take i = _
    by_cases hlast : i < front.length
    · rw [List.set_append_left _ _ hlast, List.dropLast_concat, List.take_set_of_le (le_refl i),
        List.take_append_of_le_length hlast.le]
    · obtain rfl : i = front.length := by omega
      rw [List.set_append_right _ _ (le_refl _), Nat.sub_self, List.set_cons_zero, List.dropLast_concat,
        List.take_left, List.take_length]

/-- The start that is last takes the place of the one removed, behind the starts already gone through. -/
theorem forgetStart_spec {starts : List SrvStart} {i : ℕ} {start : SrvStart} (h : starts[i]? = some start) :
    ∃ rest, forgetStart starts i = (rest, [.close start.readyFd]) ∧ (start :: rest).Perm starts ∧
      rest.length + 1 = starts.length ∧ rest.take i = starts.take i ∧
        (rest.drop i).Perm (starts.drop (i + 1)) := by
  obtain ⟨hi, hget⟩ := List.getElem?_eq_some_iff.mp h
  have hperm := CDaemon.ClientSessions.removeSwap_perm hi
  have htake := take_removeSwap hi
  have hwhole : (start :: CDaemon.ClientSessions.removeSwap starts i).Perm starts := by
    rw [← hget]
    exact (hperm.cons _).trans (List.getElem_cons_eraseIdx_perm hi)
  refine ⟨CDaemon.ClientSessions.removeSwap starts i, ?_, hwhole, hwhole.length_eq, htake, ?_⟩
  · rw [forgetStart, h]
    rfl
  · rw [List.eraseIdx_eq_take_drop_succ, ← List.take_append_drop i (CDaemon.ClientSessions.removeSwap starts i),
      htake] at hperm
    exact (List.perm_append_left_iff _).mp hperm

/-- The poll of the starts from `i` on is that of each alone, in some order. -/
theorem pollLoop_perm {nowMs : ℤ} {pipes : ℕ → List Read} {n i : ℕ} {starts : List SrvStart}
    (h : i + n = starts.length) :
    (pollLoop nowMs pipes n i starts).1.Perm
        (starts.take i ++ (starts.drop i).filterMap (polled nowMs pipes)) ∧
      (pollLoop nowMs pipes n i starts).2.Perm ((starts.drop i).flatMap (effectsOf nowMs pipes)) := by
  induction n generalizing i starts with
  | zero =>
    obtain rfl : i = starts.length := h
    rw [List.drop_length, List.take_length, List.filterMap_nil, List.append_nil, List.flatMap_nil]
    exact ⟨List.Perm.refl _, List.Perm.refl _⟩
  | succ n ih =>
    have hi : i < starts.length := by omega
    have hstart := List.getElem?_eq_getElem hi
    obtain ⟨rest, hforget, -, hlen, htake, hdrop⟩ := forgetStart_spec hstart
    obtain ⟨hleft, heffects⟩ := @ih i rest (by omega)
    rw [List.drop_eq_getElem_cons hi, List.flatMap_cons, List.filterMap_cons]
    rw [htake] at hleft
    -- when the start at `i` is removed, the rest of the poll is of the others
    have hrest := hleft.trans ((hdrop.filterMap (polled nowMs pipes)).append_left _)
    have hdone := heffects.trans (hdrop.flatMap_right (effectsOf nowMs pipes))
    rw [pollLoop, hstart]
    simp only [hforget, polled, effectsOf]
    by_cases hsettled : (startSettled starts[i] (pipes starts[i].readyFd)).1
    · simp only [hsettled, true_or, if_true]
      exact ⟨hrest, hdone.cons _⟩
    · by_cases hlate : SRV_START_TIMEOUT_MS ≤ nowMs - starts[i].startedMs
      · simp only [hsettled, hlate, or_true, if_true, Bool.false_eq_true, if_false]
        exact ⟨hrest, (hdone.cons _).cons _⟩
      · -- it stays, and the loop goes on behind it
        have hnext := @ih (i + 1) (starts.set i (startSettled starts[i] (pipes starts[i].readyFd)).2)
          (by rw [List.length_set]; omega)
        rw [List.take_add_one, List.take_set_of_le (le_refl i), List.getElem?_set_self hi,
          List.drop_set_of_lt (Nat.lt_succ_self i), List.append_assoc] at hnext
        simp only [hsettled, hlate, or_self, Bool.false_eq_true, if_false]
        exact hnext

theorem srvStartsPoll_perm (t : Starts) (nowMs : ℤ) (pipes : ℕ → List Read) :
    (srvStartsPoll t nowMs pipes).1.starts.Perm (t.starts.filterMap (polled nowMs pipes)) ∧
      (srvStartsPoll t nowMs pipes).2.Perm (t.starts.flatMap (effectsOf nowMs pipes)) :=
  pollLoop_perm (Nat.zero_add _)

theorem srvStartsWatch_cases (t : Starts) (pid readyFd : ℕ) (nowMs : ℤ) (grown : Bool) :
    (srvStartsWatch t pid readyFd nowMs grown).1.starts = t.starts ++ [⟨pid, readyFd, nowMs, []⟩] ∧
        (srvStartsWatch t pid readyFd nowMs grown).2 = [] ∨
      (srvStartsWatch t pid readyFd nowMs grown).1.starts = t.starts ∧
        (srvStartsWatch t pid readyFd nowMs grown).2 = [.close readyFd] := by
  unfold srvStartsWatch
  split
  · cases grown with
    | true => exact Or.inl ⟨rfl, rfl⟩
    | false => exact Or.inr ⟨rfl, rfl⟩
  · exact Or.inl ⟨rfl, rfl⟩

theorem srvStartsReaped_cases (t : Starts) (pid : ℕ) :
    (∃ start ∈ t.starts, start.pid = pid ∧ (start :: (srvStartsReaped t pid).1.starts).Perm t.starts ∧
        (srvStartsReaped t pid).2 = [.close start.readyFd]) ∨
      pid ∉ t.starts.map SrvStart.pid ∧ srvStartsReaped t pid = (t, []) := by
  unfold srvStartsReaped
  split
  · rename_i i hfind
    obtain ⟨hi, hpid, -⟩ := List.findIdx?_eq_some_iff_getElem.mp hfind
    obtain ⟨rest, hforget, hperm, -⟩ := forgetStart_spec (List.getElem?_eq_getElem hi)
    rw [hforget]
    exact Or.inl ⟨_, List.getElem_mem hi, beq_iff_eq.mp hpid, hperm, rfl⟩
  · rename_i hnone
    refine Or.inr ⟨fun hmem => ?_, rfl⟩
    obtain ⟨start, hstart, rfl⟩ := List.mem_map.mp hmem
    have hne := List.findIdx?_eq_none_iff.mp hnone start hstart
    rw [beq_self_eq_true] at hne
    cases hne

/-- Whatever is read, a start stays the same but for the bytes in its buffer. -/
theorem startSettledLoop_keeps (fuel : ℕ) (start : SrvStart) (reads : List Read) :
    ∃ seen, (startSettledLoop fuel start reads).2 = { start with seen := seen } := by
  induction fuel generalizing start reads with
  | zero => exact ⟨start.seen, rfl⟩
  | succ fuel ih =>
    cases reads with
    | nil => exact ⟨start.seen, rfl⟩
    | cons read reads =>
      cases read with
      | closed => exact ⟨start.seen, rfl⟩
      | failed => exact ⟨start.seen, rfl⟩
      | data c cs =>
        rw [startSettledLoop]
        split
        · exact ⟨start.seen, rfl⟩
        · split
          · exact ⟨_, rfl⟩
          · obtain ⟨seen, hseen⟩ := ih { start with seen := _ } (Read.unread _ reads)
            exact ⟨seen, hseen⟩

theorem polled_some {nowMs : ℤ} {pipes : ℕ → List Read} {start left : SrvStart}
    (h : polled nowMs pipes start = some left) :
    (startSettled start (pipes start.readyFd)).1 = false ∧ ¬SRV_START_TIMEOUT_MS ≤ nowMs - start.startedMs ∧
      ∃ seen, left = { start with seen := seen } := by
  unfold polled at h
  split at h
  · cases h
  · rename_i hnot
    obtain ⟨hsettled, hlate⟩ := not_or.mp hnot
    obtain ⟨seen, hseen⟩ := startSettledLoop_keeps _ start (pipes start.readyFd)
    exact ⟨Bool.eq_false_iff.mpr hsettled, hlate, seen, (Option.some.inj h).symm.trans hseen⟩

theorem kill_mem_effectsOf {nowMs : ℤ} {pipes : ℕ → List Read} {start : SrvStart} {pid : ℕ} :
    .kill pid ∈ effectsOf nowMs pipes start ↔ pid = start.pid ∧
      (startSettled start (pipes start.readyFd)).1 = false ∧ SRV_START_TIMEOUT_MS ≤ nowMs - start.startedMs := by
  unfold effectsOf
  split
  · rename_i hsettled
    simp [hsettled]
  · rename_i hsettled
    split
    · rename_i hlate
      simp [hsettled, hlate]
    · rename_i hlate
      simp [hlate]

theorem count_kill_le (nowMs : ℤ) (pipes : ℕ → List Read) (pid : ℕ) (starts : List SrvStart) :
    (starts.flatMap (effectsOf nowMs pipes)).count (.kill pid) ≤ (starts.map SrvStart.pid).count pid := by
  induction starts with
  | nil => exact le_refl _
  | cons start starts ih =>
    have hone : (effectsOf nowMs pipes start).count (.kill pid) ≤ if start.pid == pid then 1 else 0 := by
      unfold effectsOf
      split
      · simp
      · split
        · simp [List.count_cons]
        · simp
    rw [List.flatMap_cons, List.count_append, List.map_cons, List.count_cons]
    omega

/-- A poll closes the pipe of every start that it removes, and of no other. -/
theorem count_close (nowMs : ℤ) (pipes : ℕ → List Read) (fd : ℕ) (starts : List SrvStart) :
    (starts.flatMap (effectsOf nowMs pipes)).count (.close fd) +
      (starts.filterMap (polled nowMs pipes)).countP (·.readyFd == fd) = starts.countP (·.readyFd == fd) := by
  induction starts with
  | nil => rfl
  | cons start starts ih =>
    rw [List.flatMap_cons, List.count_append, List.filterMap_cons, List.countP_cons]
    by_cases hsettled : (startSettled start (pipes start.readyFd)).1
    · simp only [effectsOf, polled, hsettled, if_true, true_or, List.count_singleton]
      simp only [beq_iff_eq, Effect.close.injEq]
      omega
    · by_cases hlate : SRV_START_TIMEOUT_MS ≤ nowMs - start.startedMs
      · simp only [effectsOf, polled, hsettled, hlate, if_true, or_true, Bool.false_eq_true, if_false,
          List.count_cons, List.count_nil, beq_iff_eq, Effect.close.injEq, reduceCtorEq]
        omega
      · have hfd : (startSettled start (pipes start.readyFd)).2.readyFd = start.readyFd := by
          obtain ⟨seen, hseen⟩ := startSettledLoop_keeps _ start (pipes start.readyFd)
          rw [startSettled, hseen]
        simp only [effectsOf, polled, hsettled, hlate, or_self, Bool.false_eq_true, if_false, List.count_nil,
          List.countP_cons, hfd]
        omega

/-! ### Every run -/

/-- A start that is watched, in the life of its process. -/
structure Follows (past : List Happened) (start : SrvStart) (l : Life) : Prop where
  life : lifeOf start.pid past = some l
  readyFd : l.readyFd = start.readyFd
  since : l.since = start.startedMs
  pipeOpen : l.pipeOpen = true
  running : l.reaped = false
  unkilled : l.kills = 0
  scanned : Scanned l.sent start.seen

structure Tracked (w : World) : Prop where
  pids : (w.table.starts.map SrvStart.pid).Nodup
  followed : ∀ start ∈ w.table.starts, ∃ l, Follows w.past start l
  once : ∀ pid l, lifeOf pid w.past = some l → l.kills ≤ 1
  closed : ClosedOnce w

theorem tracked_initial : Tracked World.initial where
  pids := List.nodup_nil
  followed := fun _ h => absurd h List.not_mem_nil
  once := by
    intro pid l h
    cases h
  closed := fun _ => rfl

theorem lifeOf_cons {pid : ℕ} {e : Event} {effects : List Effect} {past : List Happened}
    (h : .kill pid ∉ effects) : lifeOf pid (⟨e, effects⟩ :: past) = Life.next pid (lifeOf pid past) e := by
  rw [lifeOf, List.count_eq_zero_of_not_mem h]
  exact Option.map_id'

theorem next_kills {pid : ℕ} {life : Option Life} {e : Event} {l' : Life} (h : Life.next pid life e = some l') :
    l'.kills = 0 ∨ ∃ l, life = some l ∧ l'.kills = l.kills := by
  cases e with
  | watch p readyFd nowMs grown =>
    rw [Life.next] at h
    split at h
    · rw [← Option.some.inj h]
      exact Or.inl rfl
    · exact Or.inr ⟨l', h, rfl⟩
  | poll nowMs pipes =>
    obtain ⟨l, hl, rfl⟩ := Option.map_eq_some_iff.mp h
    exact Or.inr ⟨l, hl, rfl⟩
  | reaped p =>
    rw [Life.next] at h
    split at h
    · obtain ⟨l, hl, rfl⟩ := Option.map_eq_some_iff.mp h
      exact Or.inr ⟨l, hl, rfl⟩
    · exact Or.inr ⟨l', h, rfl⟩

/-- No second SIGTERM comes when none comes, or one to a process that has had none. -/
theorem once_cons {pid : ℕ} {e : Event} {effects : List Effect} {past : List Happened} {l' : Life}
    (hone : effects.count (.kill pid) ≤ 1)
    (hpast : ∀ l, lifeOf pid past = some l → l.kills + effects.count (.kill pid) ≤ 1)
    (h : lifeOf pid (⟨e, effects⟩ :: past) = some l') : l'.kills ≤ 1 := by
  obtain ⟨next, hnext, rfl⟩ := Option.map_eq_some_iff.mp h
  show next.kills + effects.count (.kill pid) ≤ 1
  rcases next_kills hnext with hzero | ⟨l, hl, hkills⟩
  · omega
  · have := hpast l hl
    omega

theorem once_of_unkilled {e : Event} {effects : List Effect} {past : List Happened}
    (hkill : ∀ pid, .kill pid ∉ effects) (hpast : ∀ pid l, lifeOf pid past = some l → l.kills ≤ 1) (pid : ℕ)
    (l : Life) (h : lifeOf pid (⟨e, effects⟩ :: past) = some l) : l.kills ≤ 1 := by
  have hzero : effects.count (.kill pid) = 0 := List.count_eq_zero_of_not_mem (hkill pid)
  apply once_cons (by omega) _ h
  intro l hl
  have := hpast pid l hl
  omega

theorem closedOnce_after {w : World} {e : Event} {r : Starts × List Effect}
    (h : ∀ fd, r.2.count (.close fd) + r.1.starts.countP (·.readyFd == fd) =
      w.table.starts.countP (·.readyFd == fd) + if e.watches fd then 1 else 0) (hw : ClosedOnce w) :
    ClosedOnce (w.after e r) := by
  intro fd
  have hpast := hw fd
  have hnow := h fd
  simp only [World.after, List.flatMap_cons, List.count_append, List.countP_cons]
  omega

theorem Tracked.watch {w : World} (h : Tracked w) {pid readyFd : ℕ} (nowMs : ℤ) (grown : Bool)
    (hpid : pid ∉ w.table.starts.map SrvStart.pid) :
    Tracked (w.after (.watch pid readyFd nowMs grown) (srvStartsWatch w.table pid readyFd nowMs grown)) ∧
      ∀ p, .kill p ∉ (srvStartsWatch w.table pid readyFd nowMs grown).2 := by
  have hkill : ∀ p, .kill p ∉ (srvStartsWatch w.table pid readyFd nowMs grown).2 := by
    intro p hp
    rcases srvStartsWatch_cases w.table pid readyFd nowMs grown with ⟨-, heffects⟩ | ⟨-, heffects⟩ <;>
    · rw [heffects] at hp
      simp at hp
  -- the others are not touched by the watch of `pid`
  have hothers : ∀ start ∈ w.table.starts, ∃ l, Follows (w.after (.watch pid readyFd nowMs grown)
      (srvStartsWatch w.table pid readyFd nowMs grown)).past start l := by
    intro start hstart
    obtain ⟨l, hl⟩ := h.followed start hstart
    refine ⟨l, { hl with life := ?_ }⟩
    have hne : pid ≠ start.pid := fun heq => hpid (heq ▸ List.mem_map_of_mem hstart)
    rw [World.after, lifeOf_cons (hkill _), Life.next, if_neg hne]
    exact hl.life
  refine ⟨⟨?_, ?_, once_of_unkilled hkill h.once, ?_⟩, hkill⟩
  · rcases srvStartsWatch_cases w.table pid readyFd nowMs grown with ⟨hstarts, -⟩ | ⟨hstarts, -⟩
    · rw [World.after, hstarts, List.map_append, List.nodup_append]
      refine ⟨h.pids, List.nodup_singleton _, fun p hp q hq heq => ?_⟩
      rw [heq, List.mem_singleton.mp hq] at hp
      exact hpid hp
    · rw [World.after, hstarts]
      exact h.pids
  · intro start hstart
    rcases srvStartsWatch_cases w.table pid readyFd nowMs grown with ⟨hstarts, -⟩ | ⟨hstarts, -⟩
    · rw [World.after, hstarts, List.mem_append, List.mem_singleton] at hstart
      rcases hstart with hstart | rfl
      · exact hothers start hstart
      · refine ⟨⟨readyFd, nowMs, [], true, false, 0⟩, ?_, rfl, rfl, rfl, rfl, rfl, scanned_nil⟩
        rw [World.after, lifeOf_cons (hkill _), Life.next, if_pos rfl]
    · rw [World.after, hstarts] at hstart
      exact hothers start hstart
  · apply closedOnce_after _ h.closed
    intro fd
    rcases srvStartsWatch_cases w.table pid readyFd nowMs grown with ⟨hstarts, heffects⟩ | ⟨hstarts, heffects⟩
    · rw [hstarts, heffects, List.countP_append, List.countP_singleton, List.count_nil, Nat.zero_add,
        Event.watches]
    · rw [hstarts, heffects, List.count_singleton, Event.watches]
      simp only [beq_iff_eq, Effect.close.injEq]
      omega

theorem Tracked.reaped {w : World} (h : Tracked w) (pid : ℕ) :
    Tracked (w.after (.reaped pid) (srvStartsReaped w.table pid)) ∧
      ∀ p, .kill p ∉ (srvStartsReaped w.table pid).2 := by
  have hkill : ∀ p, .kill p ∉ (srvStartsReaped w.table pid).2 := by
    intro p hp
    rcases srvStartsReaped_cases w.table pid with ⟨start, -, -, -, heffects⟩ | ⟨-, heq⟩
    · rw [heffects] at hp
      simp at hp
    · rw [heq] at hp
      exact List.not_mem_nil hp
  have hpids : ((srvStartsReaped w.table pid).1.starts.map SrvStart.pid).Nodup ∧
      ∀ start ∈ (srvStartsReaped w.table pid).1.starts, start ∈ w.table.starts ∧ start.pid ≠ pid := by
    rcases srvStartsReaped_cases w.table pid with ⟨start, -, hpid, hperm, -⟩ | ⟨hnot, heq⟩
    · have hnodup := (hperm.map SrvStart.pid).nodup_iff.mpr h.pids
      rw [List.map_cons, List.nodup_cons, hpid] at hnodup
      refine ⟨hnodup.2, fun other hother => ⟨?_, fun heq => ?_⟩⟩
      · exact hperm.mem_iff.mp (List.mem_cons_of_mem _ hother)
      · exact hnodup.1 (List.mem_map.mpr ⟨other, hother, heq⟩)
    · rw [heq]
      refine ⟨h.pids, fun other hother => ⟨hother, fun heq => ?_⟩⟩
      exact hnot (heq ▸ List.mem_map_of_mem hother)
  refine ⟨⟨hpids.1, fun start hstart => ?_, once_of_unkilled hkill h.once, ?_⟩, hkill⟩
  · obtain ⟨hmem, hne⟩ := hpids.2 start hstart
    obtain ⟨l, hl⟩ := h.followed start hmem
    refine ⟨l, { hl with life := ?_ }⟩
    rw [World.after, lifeOf_cons (hkill _), Life.next, if_neg hne.symm]
    exact hl.life
  · apply closedOnce_after _ h.closed
    intro fd
    rcases srvStartsReaped_cases w.table pid with ⟨start, -, -, hperm, heffects⟩ | ⟨-, heq⟩
    · have hcount := hperm.countP_eq (·.readyFd == fd)
      rw [List.countP_cons] at hcount
      rw [heffects, List.count_singleton, Event.watches]
      simp only [beq_iff_eq, Effect.close.injEq, Bool.false_eq_true, if_false] at hcount ⊢
      omega
    · rw [heq]
      exact Nat.zero_add _

/-- What a poll finds of a start that is watched. -/
theorem Follows.scan {past : List Happened} {start : SrvStart} {l : Life} (h : Follows past start l)
    (pipes : ℕ → List Read) : Scan l.sent start (pipes l.readyFd) (startSettled start (pipes start.readyFd)) := by
  rw [← h.readyFd]
  exact startSettled_scan h.scanned _

/-- A start whose pipe is open goes on being waited for exactly when nothing is found in a block. -/
theorem Follows.settled_iff {past : List Happened} {start : SrvStart} {l : Life} (h : Follows past start l)
    (pipes : ℕ → List Read) : (startSettled start (pipes start.readyFd)).1 = false ↔ PipeOpen (pipes l.readyFd) ∧
      ¬InBlock (seenSize - 1) Reported (l.sent ++ bytesOf (pipes l.readyFd)) := by
  have hscan := h.scan pipes
  generalize startSettled start (pipes start.readyFd) = r at hscan ⊢
  cases hscan with
  | settled start' hor =>
    refine ⟨fun hfalse => ?_, fun hand => ?_⟩
    · cases hfalse
    · exact absurd hor (not_or.mpr ⟨not_not.mpr hand.1, hand.2⟩)
  | waiting seen hopen hseen => exact iff_of_true rfl ⟨hopen, hseen.not_inBlock⟩

theorem mem_kill_poll {w : World} {nowMs : ℤ} {pipes : ℕ → List Read} {pid : ℕ} :
    .kill pid ∈ (srvStartsPoll w.table nowMs pipes).2 ↔ ∃ start ∈ w.table.starts, pid = start.pid ∧
      (startSettled start (pipes start.readyFd)).1 = false ∧ SRV_START_TIMEOUT_MS ≤ nowMs - start.startedMs := by
  rw [(srvStartsPoll_perm w.table nowMs pipes).2.mem_iff, List.mem_flatMap]
  simp only [kill_mem_effectsOf]

theorem Tracked.poll {w : World} (h : Tracked w) (nowMs : ℤ) (pipes : ℕ → List Read) :
    Tracked (w.after (.poll nowMs pipes) (srvStartsPoll w.table nowMs pipes)) := by
  obtain ⟨hleft, heffects⟩ := srvStartsPoll_perm w.table nowMs pipes
  refine ⟨?_, ?_, ?_, ?_⟩
  · apply (hleft.map SrvStart.pid).nodup_iff.mpr
    -- a start that is left has the pid it had
    have hsub : ((w.table.starts.filterMap (polled nowMs pipes)).map SrvStart.pid).Sublist
        (w.table.starts.map SrvStart.pid) := by
      induction w.table.starts with
      | nil => exact List.Sublist.slnil
      | cons start starts ih =>
        rw [List.filterMap_cons]
        split
        · exact ih.cons _
        · rename_i left hpolled
          obtain ⟨-, -, seen, rfl⟩ := polled_some hpolled
          exact ih.cons_cons _
    exact hsub.nodup h.pids
  · intro left hmem
    obtain ⟨start, hstart, hpolled⟩ := List.mem_filterMap.mp (hleft.mem_iff.mp hmem)
    obtain ⟨l, hl⟩ := h.followed start hstart
    obtain ⟨hsettled, hlate, -⟩ := polled_some hpolled
    have hunkilled : .kill start.pid ∉ (srvStartsPoll w.table nowMs pipes).2 := by
      intro hkill
      obtain ⟨other, hother, hpid, -, hotherLate⟩ := mem_kill_poll.mp hkill
      rw [← List.inj_on_of_nodup_map h.pids hstart hother hpid] at hotherLate
      exact hlate hotherLate
    have hscan := hl.scan pipes
    unfold polled at hpolled
    rw [if_neg (not_or.mpr ⟨Bool.eq_false_iff.mp hsettled, hlate⟩)] at hpolled
    rw [← Option.some.inj hpolled]
    generalize startSettled start (pipes start.readyFd) = r at hscan hsettled
    cases hscan with
    | settled start' hor => cases hsettled
    | waiting seen hopen hseen =>
      refine ⟨{ l with sent := l.sent ++ bytesOf (pipes l.readyFd) }, ?_, hl.readyFd, hl.since, hl.pipeOpen,
        hl.running, hl.unkilled, hseen⟩
      rw [World.after, lifeOf_cons hunkilled, Life.next]
      simp only [hl.life, Option.map_some, hl.pipeOpen, hopen, decide_true, Bool.and_self]
  · intro pid l hlife
    have hcount : (srvStartsPoll w.table nowMs pipes).2.count (.kill pid) ≤
        (w.table.starts.map SrvStart.pid).count pid := by
      rw [heffects.count_eq]
      exact count_kill_le nowMs pipes pid w.table.starts
    have hnodup := List.nodup_iff_count_le_one.mp h.pids pid
    apply once_cons (by omega) _ hlife
    intro before hbefore
    have hprior := h.once pid before hbefore
    by_cases hmem : pid ∈ w.table.starts.map SrvStart.pid
    · obtain ⟨start, hstart, rfl⟩ := List.mem_map.mp hmem
      obtain ⟨m, hm⟩ := h.followed start hstart
      obtain rfl : m = before := Option.some.inj (hm.life.symm.trans hbefore)
      have hzero := hm.unkilled
      omega
    · rw [List.count_eq_zero_of_not_mem hmem] at hcount
      omega
  · apply closedOnce_after _ h.closed
    intro fd
    rw [heffects.count_eq, hleft.countP_eq, count_close, Event.watches]
    rfl

theorem tracked_step {w v : World} {e : Event} (h : Tracked w) (hstep : machine.step w e = some v) :
    Tracked v := by
  cases e with
  | watch pid readyFd nowMs grown =>
    obtain ⟨hpid, rfl⟩ := of_guarded hstep
    exact (h.watch nowMs grown hpid).1
  | poll nowMs pipes =>
    obtain rfl := Option.some.inj hstep
    exact h.poll nowMs pipes
  | reaped pid =>
    obtain rfl := Option.some.inj hstep
    exact (h.reaped pid).1

theorem apart_step {w v : World} {e : Event} (h : Tracked w) (hstep : machine.step w e = some v) :
    Apart w.table.starts e v.table.starts := by
  cases e with
  | watch pid readyFd nowMs grown =>
    obtain ⟨-, rfl⟩ := of_guarded hstep
    rcases srvStartsWatch_cases w.table pid readyFd nowMs grown with ⟨hstarts, -⟩ | ⟨hstarts, -⟩
    · exact Or.inr hstarts
    · exact Or.inl hstarts
  | poll nowMs pipes =>
    obtain rfl := Option.some.inj hstep
    exact (srvStartsPoll_perm w.table nowMs pipes).1
  | reaped pid =>
    obtain rfl := Option.some.inj hstep
    show (srvStartsReaped w.table pid).1.starts.Perm _
    have hkept : ∀ starts : List SrvStart, pid ∉ starts.map SrvStart.pid →
        starts.filter (·.pid != pid) = starts := by
      intro starts hnot
      apply List.filter_eq_self.mpr
      intro start hstart
      exact bne_iff_ne.mpr fun heq => hnot (heq ▸ List.mem_map_of_mem hstart)
    rcases srvStartsReaped_cases w.table pid with ⟨start, -, hpid, hperm, -⟩ | ⟨hnot, heq⟩
    · have hnodup := (hperm.map SrvStart.pid).nodup_iff.mpr h.pids
      rw [List.map_cons, List.nodup_cons, hpid] at hnodup
      have hfilter := hperm.filter (·.pid != pid)
      rw [List.filter_cons_of_neg (by simp [hpid]), hkept _ hnodup.1] at hfilter
      exact hfilter
    · rw [heq, hkept _ hnot]

/-- A poll sends only the SIGTERMs that are due, where what is due to be reported is found. -/
theorem killsDue_step {w v : World} {e : Event} (h : Tracked w) (hdue : KillsDue w.past)
    (hwhole : ReportedWhole w e) (hstep : machine.step w e = some v) : KillsDue v.past := by
  have hnext := tracked_step h hstep
  cases e with
  | watch pid readyFd nowMs grown =>
    obtain ⟨hpid, rfl⟩ := of_guarded hstep
    exact ⟨hdue, hnext.once, fun p hp => absurd hp ((h.watch nowMs grown hpid).2 p)⟩
  | reaped pid =>
    obtain rfl := Option.some.inj hstep
    exact ⟨hdue, hnext.once, fun p hp => absurd hp ((h.reaped pid).2 p)⟩
  | poll nowMs pipes =>
    obtain rfl := Option.some.inj hstep
    refine ⟨hdue, hnext.once, fun p hp => ?_⟩
    obtain ⟨start, hstart, rfl, hsettled, hlate⟩ := mem_kill_poll.mp hp
    obtain ⟨l, hl⟩ := h.followed start hstart
    obtain ⟨hopen, hnot⟩ := (hl.settled_iff pipes).mp hsettled
    rw [← hl.since] at hlate
    refine ⟨nowMs, pipes, l, rfl, hl.life, hlate, ⟨hl.pipeOpen, hopen⟩, ?_, hl.running, hl.unkilled⟩
    intro hreport
    exact hnot (hwhole start hstart l hl.life hlate hopen hreport)

/-- Where a report is not found, a process is stopped that has made it. -/
theorem reportedWhole_of_killsDue {w v : World} {e : Event} (h : Tracked w)
    (hstep : machine.step w e = some v) (hdue : KillsDue v.past) : ReportedWhole w e := by
  cases e with
  | watch pid readyFd nowMs grown => exact trivial
  | reaped pid => exact trivial
  | poll nowMs pipes =>
    obtain rfl := Option.some.inj hstep
    intro start hstart l hlife hlate hopen hreport
    obtain ⟨m, hl⟩ := h.followed start hstart
    obtain rfl : m = l := Option.some.inj (hl.life.symm.trans hlife)
    by_contra hnot
    have hsettled := (hl.settled_iff pipes).mpr ⟨hopen, hnot⟩
    rw [hl.since] at hlate
    have hkill := mem_kill_poll.mpr ⟨start, hstart, rfl, hsettled, hlate⟩
    obtain ⟨now, reads, k, hevent, hk, hkillDue⟩ := hdue.2.2 start.pid hkill
    obtain rfl : k = m := Option.some.inj (hk.symm.trans hl.life)
    injection hevent with hnow hreads
    subst hreads
    exact hkillDue.unreported hreport

/-- In every run, exactly when the reports that are sent are each in one block before the time is up, SIGTERM is
sent only where it is due. Whatever is sent, each fd taken over is closed once, when its start is removed,
and no start makes a difference to another. -/
theorem run_watched {es : List Event} {w : World} (h : machine.run World.initial es = some w) :
    (machine.Meets ReportedWhole World.initial es ↔
        ∀ pre u, pre <+: es → machine.run World.initial pre = some u → KillsDue u.past) ∧
      ClosedOnce w ∧ ∀ e v, machine.step w e = some v → Apart w.table.starts e v.table.starts := by
  have htracked : Tracked w := machine.invariant (fun _ _ _ => tracked_step) tracked_initial h
  refine ⟨?_, htracked.closed, fun e v hstep => apart_step htracked hstep⟩
  apply machine.meets_iff_reached (I := fun u => Tracked u ∧ KillsDue u.past) (P := fun u => KillsDue u.past)
  · intro u e v hu hwhole hstep
    exact ⟨tracked_step hu.1 hstep, killsDue_step hu.1 hu.2 hwhole hstep⟩
  · exact fun u hu => hu.2
  · exact fun u e v hu hstep hdue => reportedWhole_of_killsDue hu.1 hstep hdue
  · exact ⟨tracked_initial, trivial⟩
  · exact h

/-- The first of three processes reports in one write, after a byte that is not part of it; the second never does,
and the third dies. The first's pid and fd are then used again. -/
def severalWatched : List Event :=
  [.watch 7 3 0 true, .watch 8 4 100 true, .watch 9 5 200 true,
    .poll 300 fun fd => if fd = 3 then [.data 10 completion] else [],
    .reaped 9, .poll 15100 fun _ => [], .reaped 8, .watch 7 3 15200 true]

theorem run_watched_several : ∃ w, machine.run World.initial severalWatched = some w ∧
    w.past.flatMap Happened.effects = [.kill 8, .close 4, .close 5, .close 3] ∧
    (∀ pre u, pre <+: severalWatched → machine.run World.initial pre = some u → KillsDue u.past) ∧
    ClosedOnce w ∧ ∀ e v, machine.step w e = some v → Apart w.table.starts e v.table.starts := by
  obtain ⟨w, hrun, heffects⟩ := Option.map_eq_some_iff.mp (by decide +kernel :
    (machine.run World.initial severalWatched).map (·.past.flatMap Happened.effects) =
      some [.kill 8, .close 4, .close 5, .close 3])
  obtain ⟨hdue, hclosed, hapart⟩ := run_watched hrun
  exact ⟨w, hrun, heffects, hdue.mp (by decide +kernel), hclosed, hapart⟩

/-- 30 bytes before the completion string: the buffer is emptied in the middle of it. -/
def cutReport : List Event :=
  [.watch 7 3 0 true, .poll 100 fun _ => [.data 45 (List.replicate 29 45 ++ completion)], .poll 15000 fun _ => []]

/-- The srv has reported, and is stopped. -/
theorem run_stops_reported : ∃ w, machine.run World.initial cutReport = some w ∧ ¬KillsDue w.past := by
  let before := (World.initial.after (.watch 7 3 0 true) (srvStartsWatch ⟨[], 0⟩ 7 3 0 true)).after
    (.poll 100 fun _ => [.data 45 (List.replicate 29 45 ++ completion)])
    (srvStartsPoll ⟨[⟨7, 3, 0, []⟩], 8⟩ 100 fun _ => [.data 45 (List.replicate 29 45 ++ completion)])
  refine ⟨before.after (.poll 15000 fun _ => []) (srvStartsPoll before.table 15000 fun _ => []), rfl, ?_⟩
  rintro ⟨-, -, hdue⟩
  have hkill : .kill 7 ∈ (srvStartsPoll before.table 15000 fun _ => []).2 := by decide +kernel
  have hsent : ((lifeOf 7 before.past).all fun l => decide (completion <:+: l.sent)) = true := by decide +kernel
  obtain ⟨nowMs, pipes, l, hevent, hl, hkillDue⟩ := hdue 7 hkill
  injection hevent with hnow hpipes
  rw [hl, Option.all_some] at hsent
  have hunreported := hkillDue.unreported
  rw [← hpipes, bytesOf, List.flatMap_nil, List.append_nil] at hunreported
  exact hunreported (of_decide_eq_true hsent)

end NoPorts.SrvStarts
