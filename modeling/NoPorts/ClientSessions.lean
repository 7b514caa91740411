import NoPorts.Lib.Machine
import NoPorts.Lib.Table
import Mathlib.Data.List.Dedup
import Mathlib.Data.Option.Basic

/-! The daemon's watch on the sessions of clients that sign with an enrollment key: each is ended
when a re-check finds its key withdrawn. -/
namespace NoPorts.ClientSessions
open Lib

/-- A tracked session, with the call of `trackClientSession` whose `end` it has. -/
structure ClientSession where
  signingKey : String
  call : ℕ
  ending : Bool
  deriving DecidableEq, Repr

/-- A call of `trackClientSession`; one for a live id ends its session at once and tracks nothing. -/
structure TrackCall where
  sessionId : String
  signingKey : String
  tracked : Bool
  /-- Its `ended` has completed. -/
  completed : Bool
  deriving DecidableEq, Repr

/-- Where a `_recheck` is: at `lookupDirect`, or at `withdrawnTo`. -/
inductive RecheckPc where
  | looking
  | missing
  | done
  deriving DecidableEq, Repr

structure Recheck where
  key : String
  pc : RecheckPc
  deriving DecidableEq, Repr

inductive Lookup where
  | published
  | missing
  | failed
  deriving DecidableEq, Repr

inductive Event where
  | track (sessionId signingKey : String)
  /-- `checkClientKeys` -/
  | tick
  | lookedUp (recheck : ℕ) (answer : Lookup)
  | told (recheck : ℕ) (withdrawnTo : Except String (Option String))
  /-- The `ended` that a call was given completes. -/
  | ended (call : ℕ)

structure Daemon where
  clientSessions : Table String ClientSession
  keysBeingChecked : List String
  rechecks : List Recheck
  calls : List TrackCall
  /-- The calls whose `end` has been called because of the key. -/
  endedByKey : List ℕ

namespace Daemon

def trackClientSession (s : Daemon) (sessionId signingKey : String) : Daemon :=
  if (s.clientSessions.get? sessionId).isSome then
    { s with calls := s.calls ++ [⟨sessionId, signingKey, false, false⟩] }
  else { s with
    clientSessions := s.clientSessions.set sessionId ⟨signingKey, s.calls.length, false⟩
    calls := s.calls ++ [⟨sessionId, signingKey, true, false⟩] }

/-- The keys to be checked now. -/
def keysToCheck (s : Daemon) : List String :=
  (((s.clientSessions.values.filter fun session => !session.ending).map (·.signingKey)).dedup).filter
    fun key => !s.keysBeingChecked.contains key

/-- Each `_recheck` up to its lookup. -/
def checkClientKeys (s : Daemon) : Daemon :=
  { s with
    keysBeingChecked := s.keysBeingChecked ++ s.keysToCheck
    rechecks := s.rechecks ++ s.keysToCheck.map fun key => ⟨key, .looking⟩ }

/-- The `finally` of `_recheck`. -/
def finish (s : Daemon) (r : ℕ) (key : String) : Daemon :=
  { s with
    keysBeingChecked := s.keysBeingChecked.filter (· != key)
    rechecks := s.rechecks.set r ⟨key, .done⟩ }

/-- The sessions to be ended when `key` is withdrawn. -/
def ofKey (key : String) (session : ClientSession) : Bool := !session.ending && session.signingKey == key

def endSessions (s : Daemon) (key : String) : Daemon :=
  { s with
    clientSessions := s.clientSessions.mapValues fun _ session =>
      if ofKey key session then { session with ending := true } else session
    endedByKey := s.endedByKey ++
      (s.clientSessions.entries.filter fun e => ofKey key e.2).map (·.2.call) }

def onLookup (s : Daemon) (r : ℕ) (key : String) : Lookup → Daemon
  | .missing => { s with rechecks := s.rechecks.set r ⟨key, .missing⟩ }
  -- a failed lookup keeps the sessions
  | .published | .failed => s.finish r key

def onTold (s : Daemon) (r : ℕ) (key : String) : Except String (Option String) → Daemon
  | .ok (some _) => (s.endSessions key).finish r key
  | _ => s.finish r key

/-- Only the `ended` of a tracked session is waited for. -/
def whenEnded (s : Daemon) (n : ℕ) (call : TrackCall) : Daemon :=
  { s with
    clientSessions :=
      if call.tracked then s.clientSessions.erase call.sessionId else s.clientSessions
    calls := s.calls.set n { call with completed := true } }

def step (s : Daemon) : Event → Option Daemon
  | .track sessionId signingKey => some (s.trackClientSession sessionId signingKey)
  | .tick => some s.checkClientKeys
  | .lookedUp r answer => do
    let recheck ← s.rechecks[r]?
    guard (recheck.pc = .looking)
    return s.onLookup r recheck.key answer
  | .told r withdrawnTo => do
    let recheck ← s.rechecks[r]?
    guard (recheck.pc = .missing)
    return s.onTold r recheck.key withdrawnTo
  | .ended n => do
    let call ← s.calls[n]?
    guard (call.completed = false)
    return s.whenEnded n call

def machine : Machine Daemon Event := ⟨step⟩

def start : Daemon := ⟨Table.empty, [], [], [], []⟩

/-- A re-check completes that finds the key of a tracked session withdrawn, the one tracked by `n`. -/
def Found (n : ℕ) (s : Daemon) (e : Event) : Prop :=
  ∃ r key place sessionId session, e = .told r (.ok (some place)) ∧ s.rechecks[r]? = some ⟨key, .missing⟩ ∧
    s.clientSessions.get? sessionId = some session ∧ session.call = n ∧ session.signingKey = key

/-- Call `n` tracks a session that has not ended. -/
def Live (s : Daemon) (n : ℕ) (call : TrackCall) : Prop :=
  s.calls[n]? = some call ∧ call.tracked = true ∧ call.completed = false

/-- What is to hold of a run. -/
structure Watched (es : List Event) (t : Daemon) : Prop where
  ended_iff : ∀ n, n ∈ t.endedByKey ↔ machine.At start es (Found n)
  once : t.endedByKey.Nodup
  single : ∀ (i j : ℕ) r r', t.rechecks[i]? = some r → t.rechecks[j]? = some r' → r.pc ≠ .done →
    r'.pc ≠ .done → r.key = r'.key → i = j
  table_iff : ∀ sessionId, (t.clientSessions.get? sessionId).isSome = true ↔
    ∃ n call, Live t n call ∧ call.sessionId = sessionId
  entry : ∀ sessionId session, t.clientSessions.get? sessionId = some session →
    ∃ call, Live t session.call call ∧ call.sessionId = sessionId ∧ call.signingKey = session.signingKey

/-! ### The invariant -/

/-- The table holds the live sessions. -/
structure Holds (s : Daemon) : Prop where
  entry : ∀ sessionId session, s.clientSessions.get? sessionId = some session →
    ∃ call, Live s session.call call ∧ call.sessionId = sessionId ∧ call.signingKey = session.signingKey
  live : ∀ n call, Live s n call → ∃ session, s.clientSessions.get? call.sessionId = some session ∧
    session.call = n

/-- A session is ending when its `end` has been called. -/
structure Ended (s : Daemon) : Prop where
  ending : ∀ sessionId session, s.clientSessions.get? sessionId = some session →
    (session.ending = true ↔ session.call ∈ s.endedByKey)
  called : ∀ n ∈ s.endedByKey, n < s.calls.length
  once : s.endedByKey.Nodup

/-- The keys being checked are those of the re-checks under way. -/
structure Checked (s : Daemon) : Prop where
  mem : ∀ key, key ∈ s.keysBeingChecked ↔ ∃ (i : ℕ) (r : Recheck), s.rechecks[i]? = some r ∧
    r.pc ≠ .done ∧ r.key = key
  single : ∀ (i j : ℕ) r r', s.rechecks[i]? = some r → s.rechecks[j]? = some r' → r.pc ≠ .done →
    r'.pc ≠ .done → r.key = r'.key → i = j

variable {s : Daemon}

theorem Live.lt {n : ℕ} {call : TrackCall} (h : Live s n call) : n < s.calls.length :=
  (List.getElem?_eq_some_iff.mp h.1).1

/-- A call is for one session. -/
theorem Holds.call_inj (h : Holds s) {id id' : String} {session session' : ClientSession}
    (hs : s.clientSessions.get? id = some session) (hs' : s.clientSessions.get? id' = some session')
    (hcall : session.call = session'.call) : id = id' := by
  obtain ⟨call, hlive, hid, -⟩ := h.entry id session hs
  obtain ⟨call', hlive', hid', -⟩ := h.entry id' session' hs'
  have hsame : call = call' := by
    have h1 := hlive.1
    rw [hcall, hlive'.1] at h1
    exact (Option.some.inj h1).symm
  rw [← hid, ← hid', hsame]

/-! ### `trackClientSession` -/

theorem Holds.track (h : Holds s) (sessionId signingKey : String) :
    Holds (s.trackClientSession sessionId signingKey) := by
  have hlater {n : ℕ} {call more : TrackCall} (hc : s.calls[n]? = some call) :
      (s.calls ++ [more])[n]? = some call := by
    rw [List.getElem?_append_left (List.getElem?_eq_some_iff.mp hc).1]
    exact hc
  rw [trackClientSession]
  split
  · refine ⟨fun id session hs => ?_, fun n call hlive => ?_⟩
    · obtain ⟨call, hlive, hcall⟩ := h.entry id session hs
      exact ⟨call, ⟨hlater hlive.1, hlive.2⟩, hcall⟩
    · rcases getElem?_concat_cases hlive.1 with hold | ⟨-, rfl⟩
      · exact h.live n call ⟨hold, hlive.2⟩
      · cases hlive.2.1
  · rename_i hfree
    refine ⟨fun id session hs => ?_, fun n call hlive => ?_⟩
    · rw [Table.get?_set] at hs
      split at hs
      · rename_i hid
        obtain rfl := Option.some.inj hs
        exact ⟨_, ⟨List.getElem?_concat_length, rfl, rfl⟩, hid.symm, rfl⟩
      · obtain ⟨call, hlive, hcall⟩ := h.entry id session hs
        exact ⟨call, ⟨hlater hlive.1, hlive.2⟩, hcall⟩
    · rcases getElem?_concat_cases hlive.1 with hold | ⟨rfl, rfl⟩
      · obtain ⟨session, hs, hcall⟩ := h.live n call ⟨hold, hlive.2⟩
        refine ⟨session, ?_, hcall⟩
        have hne : call.sessionId ≠ sessionId := by
          intro heq
          rw [heq] at hs
          rw [hs] at hfree
          exact hfree rfl
        rw [Table.get?_set, if_neg hne]
        exact hs
      · exact ⟨_, by rw [Table.get?_set, if_pos rfl], rfl⟩

theorem Ended.track (h : Ended s) (sessionId signingKey : String) :
    Ended (s.trackClientSession sessionId signingKey) := by
  have hcalled {more : TrackCall} : ∀ n ∈ s.endedByKey, n < (s.calls ++ [more]).length := by
    intro n hn
    have hlt := h.called n hn
    rw [List.length_append]
    omega
  rw [trackClientSession]
  split
  · exact ⟨h.ending, hcalled, h.once⟩
  · refine ⟨fun id session hs => ?_, hcalled, h.once⟩
    rw [Table.get?_set] at hs
    split at hs
    · obtain rfl := Option.some.inj hs
      -- no earlier `end` is this call's
      exact iff_of_false Bool.false_ne_true fun hn => absurd (h.called _ hn) (Nat.lt_irrefl _)
    · exact h.ending id session hs

/-! ### `checkClientKeys` and the end of a re-check -/

theorem mem_keysToCheck {key : String} : key ∈ s.keysToCheck → key ∉ s.keysBeingChecked := by
  intro hkey hmem
  have hnot := (List.mem_filter.mp hkey).2
  rw [List.contains_iff_mem.mpr hmem] at hnot
  cases hnot

theorem nodup_keysToCheck : s.keysToCheck.Nodup := (List.nodup_dedup _).filter _

theorem Checked.check (h : Checked s) : Checked s.checkClientKeys := by
  have hnew {i : ℕ} {r : Recheck} (hr : s.checkClientKeys.rechecks[i]? = some r) :
      s.rechecks[i]? = some r ∨ ∃ j key, i = s.rechecks.length + j ∧ s.keysToCheck[j]? = some key ∧
        r = ⟨key, .looking⟩ := by
    rw [checkClientKeys] at hr
    by_cases hi : i < s.rechecks.length
    · rw [List.getElem?_append_left hi] at hr
      exact Or.inl hr
    · rw [List.getElem?_append_right (Nat.le_of_not_lt hi), List.getElem?_map] at hr
      obtain ⟨key, hkey, rfl⟩ := Option.map_eq_some_iff.mp hr
      exact Or.inr ⟨_, key, by omega, hkey, rfl⟩
  refine ⟨fun key => ?_, fun i j r r' hi hj hr hr' hkey => ?_⟩
  · constructor
    · intro hkey
      rcases List.mem_append.mp hkey with hkey | hkey
      · obtain ⟨i, r, hi, hr⟩ := (h.mem key).mp hkey
        refine ⟨i, r, ?_, hr⟩
        rw [checkClientKeys, List.getElem?_append_left (List.getElem?_eq_some_iff.mp hi).1]
        exact hi
      · obtain ⟨j, hj⟩ := List.mem_iff_getElem?.mp hkey
        refine ⟨s.rechecks.length + j, ⟨key, .looking⟩, ?_, fun hn => (by cases hn), rfl⟩
        rw [checkClientKeys, List.getElem?_append_right (Nat.le_add_right _ _), Nat.add_sub_cancel_left,
          List.getElem?_map, hj]
        rfl
    · rintro ⟨i, r, hi, hr, rfl⟩
      rcases hnew hi with hi | ⟨j, key, -, hj, rfl⟩
      · exact List.mem_append_left _ ((h.mem _).mpr ⟨i, r, hi, hr, rfl⟩)
      · exact List.mem_append_right _ (List.mem_of_getElem? hj)
  · rcases hnew hi with hi | ⟨k, key, rfl, hk, rfl⟩ <;> rcases hnew hj with hj | ⟨l, key', rfl, hl, rfl⟩
    · exact h.single i j r r' hi hj hr hr' hkey
    · have hmem := (h.mem key').mpr ⟨i, r, hi, hr, hkey⟩
      exact absurd hmem (mem_keysToCheck (List.mem_of_getElem? hl))
    · have hmem := (h.mem key).mpr ⟨j, r', hj, hr', hkey.symm⟩
      exact absurd hmem (mem_keysToCheck (List.mem_of_getElem? hk))
    · have hsame : key = key' := hkey
      subst hsame
      obtain ⟨hlt, hk⟩ := List.getElem?_eq_some_iff.mp hk
      obtain ⟨hlt', hl⟩ := List.getElem?_eq_some_iff.mp hl
      rw [nodup_keysToCheck.getElem_inj_iff.mp (hk.trans hl.symm)]

theorem Checked.setDone (h : Checked s) {i : ℕ} {key : String} {pc : RecheckPc}
    (hi : s.rechecks[i]? = some ⟨key, pc⟩) (hpc : pc ≠ .done) : Checked (s.finish i key) := by
  have hother {j : ℕ} {r : Recheck} (hj : (s.finish i key).rechecks[j]? = some r) (hr : r.pc ≠ .done) :
      j ≠ i ∧ s.rechecks[j]? = some r := by
    rcases getElem?_set_cases hj with ⟨-, rfl⟩ | hj
    · exact absurd rfl hr
    · exact hj
  refine ⟨fun k => ?_, fun j l r r' hj hl hr hr' hkey => ?_⟩
  · rw [finish, List.mem_filter, h.mem]
    constructor
    · rintro ⟨⟨j, r, hj, hr, rfl⟩, hne⟩
      have hji : j ≠ i := by
        rintro rfl
        rw [hi] at hj
        obtain rfl := Option.some.inj hj
        simp at hne
      refine ⟨j, r, ?_, hr, rfl⟩
      rw [List.getElem?_set_ne fun heq => hji heq.symm]
      exact hj
    · rintro ⟨j, r, hj, hr, rfl⟩
      obtain ⟨hji, hj⟩ := hother hj hr
      refine ⟨⟨j, r, hj, hr, rfl⟩, ?_⟩
      have hne : r.key ≠ key := fun heq => hji (h.single j i r _ hj hi hr hpc heq)
      simpa using hne
  · exact h.single j l r r' (hother hj hr).2 (hother hl hr').2 hr hr' hkey

theorem Checked.setMissing (h : Checked s) {i : ℕ} {key : String}
    (hi : s.rechecks[i]? = some ⟨key, .looking⟩) :
    Checked { s with rechecks := s.rechecks.set i ⟨key, .missing⟩ } := by
  have hold {j : ℕ} {r : Recheck} (hj : (s.rechecks.set i ⟨key, .missing⟩)[j]? = some r) :
      ∃ r', s.rechecks[j]? = some r' ∧ r'.key = r.key ∧ (r'.pc ≠ .done ∨ r' = r) := by
    rcases getElem?_set_cases hj with ⟨rfl, rfl⟩ | ⟨-, hj⟩
    · exact ⟨_, hi, rfl, Or.inl fun hn => by cases hn⟩
    · exact ⟨r, hj, rfl, Or.inr rfl⟩
  have hrunning {r r' : Recheck} (h : r'.pc ≠ .done ∨ r' = r) (hr : r.pc ≠ .done) : r'.pc ≠ .done := by
    rcases h with h | rfl
    · exact h
    · exact hr
  refine ⟨fun k => ?_, fun j l r r' hj hl hr hr' hkey => ?_⟩
  · rw [h.mem]
    constructor
    · rintro ⟨j, r, hj, hr, rfl⟩
      by_cases hji : j = i
      · subst hji
        rw [hi] at hj
        obtain rfl := Option.some.inj hj
        exact ⟨j, ⟨key, .missing⟩, List.getElem?_set_self (List.getElem?_eq_some_iff.mp hi).1,
          fun hn => (by cases hn), rfl⟩
      · refine ⟨j, r, ?_, hr, rfl⟩
        rw [List.getElem?_set_ne fun heq => hji heq.symm]
        exact hj
    · rintro ⟨j, r, hj, hr, rfl⟩
      obtain ⟨r', hj', hkey, hpc⟩ := hold hj
      exact ⟨j, r', hj', hrunning hpc hr, hkey⟩
  · obtain ⟨q, hq, hqkey, hqpc⟩ := hold hj
    obtain ⟨q', hq', hqkey', hqpc'⟩ := hold hl
    exact h.single j l q q' hq hq' (hrunning hqpc hr) (hrunning hqpc' hr')
      (hqkey.trans (hkey.trans hqkey'.symm))

/-! ### `endSessions` -/

theorem Holds.endSessions (h : Holds s) (key : String) : Holds (s.endSessions key) := by
  refine ⟨fun id session hs => ?_, fun n call hlive => ?_⟩
  · rw [Daemon.endSessions, Table.get?_mapValues] at hs
    obtain ⟨old, hold, rfl⟩ := Option.map_eq_some_iff.mp hs
    obtain ⟨call, hlive, hid, hkey⟩ := h.entry id old hold
    split
    · exact ⟨call, hlive, hid, hkey⟩
    · exact ⟨call, hlive, hid, hkey⟩
  · obtain ⟨session, hs, hcall⟩ := h.live n call hlive
    refine ⟨_, by rw [Daemon.endSessions, Table.get?_mapValues, hs]; rfl, ?_⟩
    beta_reduce
    split
    · exact hcall
    · exact hcall

/-- The calls whose `end` is called when `key` is found withdrawn. -/
def endedNow (s : Daemon) (key : String) : List ℕ :=
  (s.clientSessions.entries.filter fun e => ofKey key e.2).map (·.2.call)

theorem mem_endedNow {key : String} {n : ℕ} : n ∈ s.endedNow key ↔
    ∃ id session, s.clientSessions.get? id = some session ∧ ofKey key session = true ∧
      session.call = n := by
  constructor
  · intro hn
    obtain ⟨⟨id, session⟩, hmem, rfl⟩ := List.mem_map.mp hn
    obtain ⟨hentry, hof⟩ := List.mem_filter.mp hmem
    exact ⟨id, session, Table.mem_entries_iff.mp hentry, hof, rfl⟩
  · rintro ⟨id, session, hs, hof, rfl⟩
    apply List.mem_map.mpr
    exact ⟨(id, session), List.mem_filter.mpr ⟨Table.mem_entries_iff.mpr hs, hof⟩, rfl⟩

theorem ofKey_iff {key : String} {session : ClientSession} :
    ofKey key session = true ↔ session.ending = false ∧ session.signingKey = key := by
  simp [ofKey]

theorem Ended.not_mem_endedNow (h : Ended s) {key : String} {n : ℕ} (hn : n ∈ s.endedByKey) :
    n ∉ s.endedNow key := by
  intro hnow
  obtain ⟨id, session, hs, hof, rfl⟩ := mem_endedNow.mp hnow
  have hending := (h.ending id session hs).mpr hn
  rw [(ofKey_iff.mp hof).1] at hending
  cases hending

theorem Holds.nodup_endedNow (h : Holds s) (key : String) : (s.endedNow key).Nodup := by
  have hentries : s.clientSessions.entries.Nodup := List.Nodup.of_map Prod.fst s.clientSessions.nodup
  apply List.Nodup.map_on _ (hentries.filter _)
  intro x hx y hy hcall
  have hx' := Table.mem_entries_iff.mp (List.mem_filter.mp hx).1
  have hy' := Table.mem_entries_iff.mp (List.mem_filter.mp hy).1
  have hid := h.call_inj hx' hy' hcall
  rw [← hid, hx'] at hy'
  exact Prod.ext hid (Option.some.inj hy')

theorem Ended.endSessions (h : Ended s) (hh : Holds s) (key : String) : Ended (s.endSessions key) := by
  refine ⟨fun id session hs => ?_, fun n hn => ?_, ?_⟩
  · rw [Daemon.endSessions, Table.get?_mapValues] at hs
    obtain ⟨old, hold, rfl⟩ := Option.map_eq_some_iff.mp hs
    split
    · rename_i hof
      exact iff_of_true rfl (List.mem_append_right _ (mem_endedNow.mpr ⟨id, old, hold, hof, rfl⟩))
    · rename_i hof
      rw [h.ending id old hold]
      constructor
      · exact List.mem_append_left _
      · intro hn
        rcases List.mem_append.mp hn with hn | hn
        · exact hn
        · -- the call is this session's alone
          obtain ⟨id', other, hother, hof', hcall⟩ := mem_endedNow.mp hn
          have hid := hh.call_inj hother hold hcall
          rw [hid, hold] at hother
          obtain rfl := Option.some.inj hother
          exact absurd hof' hof
  · rcases List.mem_append.mp hn with hn | hn
    · exact h.called n hn
    · obtain ⟨id, session, hs, -, rfl⟩ := mem_endedNow.mp hn
      obtain ⟨call, hlive, -⟩ := hh.entry id session hs
      exact hlive.lt
  · apply List.Nodup.append h.once (hh.nodup_endedNow key)
    intro n hn hnow
    exact h.not_mem_endedNow hn hnow

/-! ### A session ends -/

theorem Holds.whenEnded (h : Holds s) {n : ℕ} {call : TrackCall} (hcall : s.calls[n]? = some call)
    (hopen : call.completed = false) : Holds (s.whenEnded n call) := by
  refine ⟨fun id session hs => ?_, fun m other hlive => ?_⟩
  · -- what is left in the table was there, under another call than `n`
    have hleft : s.clientSessions.get? id = some session ∧ (call.tracked = true → id ≠ call.sessionId) := by
      rw [Daemon.whenEnded] at hs
      by_cases htracked : call.tracked = true
      · rw [if_pos htracked, Table.get?_erase] at hs
        split at hs
        · cases hs
        · rename_i hne
          exact ⟨hs, fun _ => hne⟩
      · rw [if_neg htracked] at hs
        exact ⟨hs, fun ht => absurd ht htracked⟩
    obtain ⟨c, hlive, hid, hkey⟩ := h.entry id session hleft.1
    have hne : session.call ≠ n := by
      intro heq
      have hsame := hlive.1
      rw [heq, hcall] at hsame
      obtain rfl := Option.some.inj hsame
      exact hleft.2 hlive.2.1 hid.symm
    refine ⟨c, ⟨?_, hlive.2⟩, hid, hkey⟩
    rw [Daemon.whenEnded, List.getElem?_set_ne fun heq => hne heq.symm]
    exact hlive.1
  · rcases getElem?_set_cases hlive.1 with ⟨-, rfl⟩ | ⟨hmn, hold⟩
    · cases hlive.2.2
    · obtain ⟨session, hs, hm⟩ := h.live m other ⟨hold, hlive.2⟩
      refine ⟨session, ?_, hm⟩
      rw [Daemon.whenEnded]
      by_cases htracked : call.tracked = true
      · obtain ⟨session', hs', hn⟩ := h.live n call ⟨hcall, htracked, hopen⟩
        have hne : other.sessionId ≠ call.sessionId := by
          intro heq
          rw [heq, hs'] at hs
          obtain rfl := Option.some.inj hs
          exact hmn (hm.symm.trans hn)
        rw [if_pos htracked, Table.get?_erase, if_neg hne]
        exact hs
      · rw [if_neg htracked]
        exact hs

theorem Ended.whenEnded (h : Ended s) (n : ℕ) (call : TrackCall) : Ended (s.whenEnded n call) := by
  refine ⟨fun id session hs => ?_, fun m hm => ?_, h.once⟩
  · rw [Daemon.whenEnded] at hs
    split at hs
    · rw [Table.get?_erase] at hs
      split at hs
      · cases hs
      · exact h.ending id session hs
    · exact h.ending id session hs
  · rw [Daemon.whenEnded, List.length_set]
    exact h.called m hm

/-! ### Runs -/

structure Inv (s : Daemon) : Prop where
  holds : Holds s
  ended : Ended s
  checked : Checked s

theorem inv_start : Inv start := by
  constructor
  · exact ⟨fun id session hs => (by cases hs), fun n call hlive => (by cases hlive.1)⟩
  · exact ⟨fun id session hs => (by cases hs), fun n hn => (by cases hn), List.nodup_nil⟩
  · refine ⟨fun key => ?_, fun i j r r' hi => (by cases hi)⟩
    constructor
    · intro hkey
      cases hkey
    · rintro ⟨i, r, hi, -⟩
      cases hi

/-- What a step can do. -/
theorem step_cases {e : Event} {t : Daemon} (h : s.step e = some t) :
    (∃ id key, e = .track id key ∧ t = s.trackClientSession id key) ∨
    (e = .tick ∧ t = s.checkClientKeys) ∨
    (∃ r key, e = .lookedUp r .missing ∧ s.rechecks[r]? = some ⟨key, .looking⟩ ∧
      t = { s with rechecks := s.rechecks.set r ⟨key, .missing⟩ }) ∨
    (∃ r key place, e = .told r (.ok (some place)) ∧ s.rechecks[r]? = some ⟨key, .missing⟩ ∧
      t = (s.endSessions key).finish r key) ∨
    (∃ r key pc, s.rechecks[r]? = some ⟨key, pc⟩ ∧ pc ≠ .done ∧ (∀ n, ¬Found n s e) ∧
      t = s.finish r key) ∨
    (∃ n call, e = .ended n ∧ s.calls[n]? = some call ∧ call.completed = false ∧
      t = s.whenEnded n call) := by
  cases e with
  | track id key => exact Or.inl ⟨id, key, rfl, (Option.some.inj h).symm⟩
  | tick => exact Or.inr (Or.inl ⟨rfl, (Option.some.inj h).symm⟩)
  | lookedUp r answer =>
    obtain ⟨⟨key, pc⟩, hr, h⟩ := Option.bind_eq_some_iff.mp h
    obtain ⟨_, hpc, h⟩ := Option.bind_eq_some_iff.mp h
    obtain rfl := Option.some.inj h
    obtain rfl : pc = .looking := (Option.guard_eq_some' _).mp hpc
    have hnone {answer : Lookup} : ∀ n, ¬Found n s (.lookedUp r answer) := by
      rintro n ⟨r', key', place, id, session, he, -⟩
      cases he
    cases answer with
    | missing => exact Or.inr (Or.inr (Or.inl ⟨r, key, rfl, hr, rfl⟩))
    | published | failed =>
      refine Or.inr (Or.inr (Or.inr (Or.inr (Or.inl ⟨r, key, _, hr, ?_, hnone, rfl⟩))))
      intro hdone
      cases hdone
  | told r withdrawnTo =>
    obtain ⟨⟨key, pc⟩, hr, h⟩ := Option.bind_eq_some_iff.mp h
    obtain ⟨_, hpc, h⟩ := Option.bind_eq_some_iff.mp h
    obtain rfl := Option.some.inj h
    obtain rfl : pc = .missing := (Option.guard_eq_some' _).mp hpc
    have hrunning : RecheckPc.missing ≠ .done := fun hdone => (by cases hdone)
    match withdrawnTo with
    | .ok (some place) => exact Or.inr (Or.inr (Or.inr (Or.inl ⟨r, key, place, rfl, hr, rfl⟩)))
    | .ok none =>
      refine Or.inr (Or.inr (Or.inr (Or.inr (Or.inl ⟨r, key, _, hr, hrunning, ?_, rfl⟩))))
      rintro n ⟨r', key', place, id, session, he, -⟩
      cases he
    | .error cause =>
      refine Or.inr (Or.inr (Or.inr (Or.inr (Or.inl ⟨r, key, _, hr, hrunning, ?_, rfl⟩))))
      rintro n ⟨r', key', place, id, session, he, -⟩
      cases he
  | ended n =>
    obtain ⟨call, hcall, h⟩ := Option.bind_eq_some_iff.mp h
    obtain ⟨_, hopen, h⟩ := Option.bind_eq_some_iff.mp h
    have hopen : call.completed = false := (Option.guard_eq_some' _).mp hopen
    exact Or.inr (Or.inr (Or.inr (Or.inr (Or.inr
      ⟨n, call, rfl, hcall, hopen, (Option.some.inj h).symm⟩))))

theorem Inv.step (h : Inv s) {e : Event} {t : Daemon} (hstep : s.step e = some t) : Inv t := by
  rcases step_cases hstep with ⟨id, key, -, rfl⟩ | ⟨-, rfl⟩ | ⟨r, key, -, hr, rfl⟩ |
    ⟨r, key, place, -, hr, rfl⟩ | ⟨r, key, pc, hr, hpc, -, rfl⟩ | ⟨n, call, -, hcall, hopen, rfl⟩
  · refine ⟨h.holds.track id key, h.ended.track id key, ?_⟩
    rw [trackClientSession]
    split
    · exact ⟨h.checked.mem, h.checked.single⟩
    · exact ⟨h.checked.mem, h.checked.single⟩
  · exact ⟨⟨h.holds.entry, h.holds.live⟩, ⟨h.ended.ending, h.ended.called, h.ended.once⟩,
      h.checked.check⟩
  · exact ⟨⟨h.holds.entry, h.holds.live⟩, ⟨h.ended.ending, h.ended.called, h.ended.once⟩,
      h.checked.setMissing hr⟩
  · have hholds := h.holds.endSessions key
    have hended := h.ended.endSessions h.holds key
    have hchecked : Checked (s.endSessions key) := ⟨h.checked.mem, h.checked.single⟩
    exact ⟨⟨hholds.entry, hholds.live⟩, ⟨hended.ending, hended.called, hended.once⟩,
      hchecked.setDone hr fun hdone => by cases hdone⟩
  · exact ⟨⟨h.holds.entry, h.holds.live⟩, ⟨h.ended.ending, h.ended.called, h.ended.once⟩,
      h.checked.setDone hr hpc⟩
  · exact ⟨h.holds.whenEnded hcall hopen, h.ended.whenEnded n call,
      ⟨h.checked.mem, h.checked.single⟩⟩

/-- A session's `end` is called by the step that finds its key withdrawn. -/
theorem Inv.mem_endedByKey_step (h : Inv s) {e : Event} {t : Daemon} (hstep : s.step e = some t)
    (n : ℕ) : n ∈ t.endedByKey ↔ n ∈ s.endedByKey ∨ Found n s e := by
  have hquiet (hnone : ¬Found n s e) (hsame : t.endedByKey = s.endedByKey) :
      n ∈ t.endedByKey ↔ n ∈ s.endedByKey ∨ Found n s e := by
    rw [hsame, or_iff_left hnone]
  rcases step_cases hstep with ⟨id, key, rfl, rfl⟩ | ⟨rfl, rfl⟩ | ⟨r, key, rfl, hr, rfl⟩ |
    ⟨r, key, place, rfl, hr, rfl⟩ | ⟨r, key, pc, hr, hpc, hnone, rfl⟩ | ⟨m, call, rfl, hcall, hopen, rfl⟩
  · apply hquiet
    · rintro ⟨_, _, _, _, _, he, -⟩
      cases he
    · rw [trackClientSession]
      split
      · rfl
      · rfl
  · apply hquiet _ rfl
    rintro ⟨_, _, _, _, _, he, -⟩
    cases he
  · apply hquiet _ rfl
    rintro ⟨_, _, _, _, _, he, -⟩
    cases he
  · constructor
    · intro hn
      rcases List.mem_append.mp hn with hn | hn
      · exact Or.inl hn
      · obtain ⟨id, session, hs, hof, hcall⟩ := mem_endedNow.mp hn
        exact Or.inr ⟨r, key, place, id, session, rfl, hr, hs, hcall, (ofKey_iff.mp hof).2⟩
    · rintro (hn | ⟨r', key', place', id, session, he, hr', hs, rfl, hkey⟩)
      · exact List.mem_append_left _ hn
      · injection he with he
        subst he
        have hsame := hr'.symm.trans hr
        injection hsame with hsame
        injection hsame with hsame
        cases hending : session.ending with
        | true => exact List.mem_append_left _ ((h.ended.ending id session hs).mp hending)
        | false =>
          apply List.mem_append_right
          exact mem_endedNow.mpr
            ⟨id, session, hs, ofKey_iff.mpr ⟨hending, hkey.trans hsame⟩, rfl⟩
  · exact hquiet (hnone n) rfl
  · apply hquiet _ rfl
    rintro ⟨_, _, _, _, _, he, -⟩
    cases he

theorem inv_run {es : List Event} {t : Daemon} (hr : machine.run start es = some t) : Inv t :=
  machine.invariant (fun _ _ _ h hstep => h.step hstep) inv_start hr

theorem watched_run {es : List Event} {t : Daemon} (hr : machine.run start es = some t) :
    Watched es t := by
  have h := inv_run hr
  refine ⟨?_, h.ended.once, h.checked.single, fun sessionId => ?_, h.holds.entry⟩
  · apply machine.run_induction (I := fun es t => ∀ n, n ∈ t.endedByKey ↔ machine.At start es (Found n))
      _ _ hr
    · intro n
      apply iff_of_false List.not_mem_nil
      rintro ⟨pre, e, post, u, hes, -⟩
      cases pre with
      | nil => cases hes
      | cons d pre => cases hes
    · intro es e u v hu ih hstep n
      rw [(inv_run hu).mem_endedByKey_step hstep, ih n]
      constructor
      · rintro (hat | hnow)
        · exact hat.later e
        · exact Machine.At.now hu hnow
      · intro hat
        exact hat.of_concat hu
  · rw [Option.isSome_iff_exists]
    constructor
    · rintro ⟨session, hs⟩
      obtain ⟨call, hlive, hid, -⟩ := h.holds.entry sessionId session hs
      exact ⟨_, call, hlive, hid⟩
    · rintro ⟨n, call, hlive, rfl⟩
      obtain ⟨session, hs, -⟩ := h.holds.live n call hlive
      exact ⟨session, hs⟩

/-! ### A session that joins a key's group during its lookup -/

/-- The second session comes while the first one's key is looked up; another one takes the first
one's id. -/
def overlapping : List Event :=
  [.track "s1" "key", .tick, .lookedUp 0 .missing, .track "s2" "key", .tick, .track "s1" "other",
    .told 0 (.ok (some "r.__e")), .ended 2, .ended 0]

theorem watched_run_sample : ∃ t, machine.run start overlapping = some t ∧ t.endedByKey = [0, 1] ∧
    t.rechecks.length = 1 ∧ Watched overlapping t := by
  have hrun : machine.run start overlapping = some _ := rfl
  exact ⟨_, hrun, rfl, rfl, watched_run hrun⟩

end Daemon
end NoPorts.ClientSessions
