import NoPorts.CDaemonSessions
import NoPorts.Lib.Machine
import Mathlib.Data.List.Perm.Basic
import Mathlib.Data.List.Nodup

/-! What the C daemon's session table keeps over every run of its calls: distinct
ids, bounded key checks, and a signal to each session whose key a check has found
withdrawn, once. -/
namespace NoPorts.CDaemon
open Lib

namespace ClientSessions

/-- One call on the table. `start` gives the process `start_key_check` answers with
for each key. -/
inductive Call where
  | track (sessionId signingKey : String) (srvPid : ℤ)
  | tick (now : ℤ) (start : String → ℤ)
  | reaped (pid : ℤ) (status : ExitStatus)

/-- `none` when the call crashes the daemon. -/
def call (cs : ClientSessions) : Call → Option (ClientSessions × List Signal)
  | .track sessionId signingKey srvPid => some (cs.track sessionId signingKey srvPid)
  | .tick now start => cs.tick now start
  | .reaped pid status => some (cs.reaped pid status)

def machine : Machine ClientSessions Call := ⟨fun cs c => (cs.call c).map (·.1)⟩

/-- Whether the key a call tracks names an atSign, as the uri of every `_apsk` record
does. -/
def Call.Addressed : Call → Prop
  | .track _ signingKey _ => '@' ∈ signingKey.toList
  | _ => True

instance : DecidablePred Call.Addressed
  | .track _ signingKey _ => inferInstanceAs (Decidable ('@' ∈ signingKey.toList))
  | .tick _ _ => .isTrue trivial
  | .reaped _ _ => .isTrue trivial

structure WellFormed (cs : ClientSessions) : Prop where
  ids : (cs.sessions.map (·.sessionId)).Nodup
  keys : (cs.checks.map (·.signingKey)).Nodup
  total : cs.checks.length ≤ clientSessionsMaxKeyChecks
  perAtsign : ∀ atsign, (cs.checks.countP fun c => atsignOf c.signingKey == some atsign) ≤
    clientSessionsMaxKeyChecksPerAtsign

/-- The exits by which a check reports its key withdrawn. -/
def Withdrawn (status : ExitStatus) : Prop :=
  status = .exited publicLookupKeyCheckRevoked ∨ status = .exited publicLookupKeyCheckDeleted

instance (status : ExitStatus) : Decidable (Withdrawn status) :=
  inferInstanceAs (Decidable (_ ∨ _))

/-- The check whose exit a reaped child's is: the first with its pid, unless it is the
srv of a session. -/
def finishedCheck (cs : ClientSessions) (pid : ℤ) : Option KeyCheck :=
  if cs.sessions.any (·.srvPid == pid) then none else cs.checks.find? (·.pid == pid)

/-- The sessions a call tells to end because of their key. -/
def told (cs : ClientSessions) : Call → List ClientSession
  | .reaped pid status =>
    match cs.finishedCheck pid with
    | some check =>
      if Withdrawn status then
        cs.sessions.filter fun s => !s.ending && s.signingKey == check.signingKey
      else []
    | none => []
  | _ => []

/-! ### Removal, marking and the start of checks -/

theorem removeSwap_perm {α : Type*} {xs : List α} {i : ℕ} (hi : i < xs.length) :
    (removeSwap xs i).Perm (xs.eraseIdx i) := by
  have hne : xs ≠ [] := List.ne_nil_of_length_pos (by omega)
  obtain ⟨front, last, rfl⟩ : ∃ front last, xs = front ++ [last] :=
    ⟨xs.dropLast, xs.getLast hne, (List.dropLast_append_getLast hne).symm⟩
  rw [List.length_append, List.length_singleton] at hi
  unfold removeSwap
  rw [List.getLast?_concat]
  show ((front ++ [last]).set i last).dropLast.Perm ((front ++ [last]).eraseIdx i)
  by_cases hlast : i < front.length
  · rw [List.set_append_left _ _ hlast, List.dropLast_concat,
      List.eraseIdx_append_of_lt_length hlast]
    exact (List.set_perm_cons_eraseIdx hlast last).trans
      (List.perm_append_singleton last _).symm
  · obtain rfl : i = front.length := by omega
    rw [List.set_append_right _ _ (le_refl _), Nat.sub_self, List.set_cons_zero,
      List.dropLast_concat, List.eraseIdx_append_of_length_le (le_refl _), Nat.sub_self]
    simp

theorem mem_of_mem_removeSwap {α : Type*} {xs : List α} {i : ℕ} {x : α} (hi : i < xs.length)
    (hx : x ∈ removeSwap xs i) : x ∈ xs :=
  (List.eraseIdx_sublist xs i).subset ((removeSwap_perm hi).mem_iff.mp hx)

/-- The sessions of `cs` and of `cs'` one for one, alike but for being due. -/
def SameSessions (cs cs' : ClientSessions) : Prop :=
  cs'.sessions.map (fun s => (s.sessionId, s.signingKey, s.srvPid, s.ending)) =
    cs.sessions.map (fun s => (s.sessionId, s.signingKey, s.srvPid, s.ending))

theorem SameSessions.trans {a b c : ClientSessions} (h : SameSessions a b)
    (h' : SameSessions b c) : SameSessions a c := Eq.trans h' h

theorem sameSessions_clearDue (cs : ClientSessions) (key : String) :
    SameSessions cs (cs.clearDue key) := by
  unfold SameSessions clearDue
  rw [List.map_map]
  refine List.map_congr_left fun s _ => ?_
  simp only [Function.comp_apply]
  split <;> rfl

theorem sameSessions_markDue (cs : ClientSessions) (now : ℤ) : SameSessions cs (cs.markDue now) := by
  unfold SameSessions markDue
  simp only
  generalize (if cs.nextDue = 0 then now + (cs.intervalSecs : ℤ) else cs.nextDue) = nextDue
  split
  · rw [List.map_map]
    rfl
  · rfl

theorem checks_markDue (cs : ClientSessions) (now : ℤ) : (cs.markDue now).checks = cs.checks := by
  unfold markDue
  simp only
  generalize (if cs.nextDue = 0 then now + (cs.intervalSecs : ℤ) else cs.nextDue) = nextDue
  split <;> rfl

theorem SameSessions.ids {cs cs' : ClientSessions} (h : SameSessions cs cs') :
    cs'.sessions.map (·.sessionId) = cs.sessions.map (·.sessionId) := by
  have hids := congrArg (List.map Prod.fst) h
  rwa [List.map_map, List.map_map] at hids

theorem SameSessions.exists_of_mem {cs cs' : ClientSessions} (h : SameSessions cs cs')
    {session' : ClientSession} (hs : session' ∈ cs'.sessions) :
    ∃ session ∈ cs.sessions, session'.sessionId = session.sessionId ∧
      session'.signingKey = session.signingKey ∧ session'.ending = session.ending := by
  have hmem : (session'.sessionId, session'.signingKey, session'.srvPid, session'.ending) ∈
      cs.sessions.map (fun s => (s.sessionId, s.signingKey, s.srvPid, s.ending)) := by
    rw [← h]
    exact List.mem_map.mpr ⟨session', hs, rfl⟩
  obtain ⟨session, hsession, heq⟩ := List.mem_map.mp hmem
  simp only [Prod.mk.injEq] at heq
  exact ⟨session, hsession, heq.1.symm, heq.2.1.symm, heq.2.2.2.symm⟩

/-- The bounds on the checks, and that no key is under two of them. -/
def ChecksBounded (checks : List KeyCheck) : Prop :=
  (checks.map (·.signingKey)).Nodup ∧ checks.length ≤ clientSessionsMaxKeyChecks ∧
    ∀ atsign, (checks.countP fun c => atsignOf c.signingKey == some atsign) ≤
      clientSessionsMaxKeyChecksPerAtsign

theorem ChecksBounded.sublist {checks checks' : List KeyCheck} (h : ChecksBounded checks)
    (hsub : checks'.Sublist checks) : ChecksBounded checks' :=
  ⟨h.1.sublist (hsub.map _), hsub.length_le.trans h.2.1,
    fun atsign => (hsub.countP_le).trans (h.2.2 atsign)⟩

theorem ChecksBounded.perm {checks checks' : List KeyCheck} (h : ChecksBounded checks)
    (hperm : checks'.Perm checks) : ChecksBounded checks' := by
  refine ⟨((hperm.map _).nodup_iff).mpr h.1, hperm.length_eq.le.trans h.2.1, fun atsign => ?_⟩
  rw [hperm.countP_eq]
  exact h.2.2 atsign

/-- What the loop of `checks_of_atsign` counts when it comes to its end. -/
theorem count_of_foldlM {atsign : List Char} {checks : List KeyCheck} {n m : ℕ}
    (h : checks.foldlM (countCheck (some atsign)) n = some m) :
    m = n + checks.countP fun c => atsignOf c.signingKey == some atsign := by
  induction checks generalizing n with
  | nil => exact (Option.some.inj h).symm
  | cons check checks ih =>
    rw [List.foldlM_cons] at h
    obtain ⟨k, hk, hrest⟩ := Option.bind_eq_some_iff.mp h
    obtain ⟨checked, hchecked, hk⟩ := Option.bind_eq_some_iff.mp hk
    have hcount : k = if checked = atsign then n + 1 else n := (Option.some.inj hk).symm
    rw [ih hrest, hcount, List.countP_cons, hchecked]
    by_cases hsame : checked = atsign
    · have hbeq : (some checked == some atsign) = true := beq_iff_eq.mpr (congrArg some hsame)
      rw [if_pos hsame, if_pos hbeq]
      omega
    · have hbeq : ¬(some checked == some atsign) = true := by
        intro hbeq
        exact hsame (Option.some.inj (beq_iff_eq.mp hbeq))
      rw [if_neg hsame, if_neg hbeq]
      rfl

theorem checksOfAtsign_eq {cs : ClientSessions} {key : String} {atsign : List Char} {n : ℕ}
    (hkey : atsignOf key = some atsign) (h : cs.checksOfAtsign key = some n) :
    n = cs.checks.countP fun c => atsignOf c.signingKey == some atsign := by
  rw [checksOfAtsign, hkey] at h
  rw [count_of_foldlM h, Nat.zero_add]

theorem atsignOf_addressed {key : String} (h : '@' ∈ key.toList) :
    ∃ atsign, atsignOf key = some atsign := ⟨fromLast '@' key.toList, if_pos h⟩

/-- The count comes to its end where every key names an atSign. -/
theorem checksOfAtsign_addressed {cs : ClientSessions} {key : String} (hkey : '@' ∈ key.toList)
    (hchecks : ∀ check ∈ cs.checks, '@' ∈ check.signingKey.toList) :
    ∃ n, cs.checksOfAtsign key = some n := by
  obtain ⟨atsign, hatsign⟩ := atsignOf_addressed hkey
  rw [checksOfAtsign, hatsign]
  generalize 0 = n
  generalize cs.checks = checks at hchecks
  induction checks generalizing n with
  | nil => exact ⟨n, rfl⟩
  | cons check checks ih =>
    obtain ⟨hcheck, hrest⟩ := List.forall_mem_cons.mp hchecks
    obtain ⟨checked, hchecked⟩ := atsignOf_addressed hcheck
    have hturn : countCheck (some atsign) n check =
        some (if checked = atsign then n + 1 else n) := by
      rw [countCheck, hchecked]
      rfl
    rw [List.foldlM_cons, hturn]
    exact ih _ hrest

theorem ChecksBounded.start {cs : ClientSessions} (h : ChecksBounded cs.checks) {key : String}
    {pid now : ℤ} {n : ℕ} (hroom : ¬clientSessionsMaxKeyChecks ≤ cs.checks.length)
    (hnew : ¬cs.isBeingChecked key = true) (hcount : cs.checksOfAtsign key = some n)
    (hatsign : ¬clientSessionsMaxKeyChecksPerAtsign ≤ n) :
    ChecksBounded (cs.checks ++ [⟨key, pid, now⟩]) := by
  refine ⟨?_, ?_, fun atsign => ?_⟩
  · rw [List.map_append, List.nodup_append]
    refine ⟨h.1, List.nodup_singleton _, ?_⟩
    intro key' hkey' other hother heq
    obtain ⟨check, hcheck, rfl⟩ := List.mem_map.mp hkey'
    have hother' : other = key := List.mem_singleton.mp hother
    refine hnew (List.any_eq_true.mpr ⟨check, hcheck, ?_⟩)
    rw [heq, hother']
    exact beq_self_eq_true key
  · rw [List.length_append, List.length_singleton]
    omega
  · rw [List.countP_append, List.countP_singleton]
    split
    · rename_i hsame
      have hkey : atsignOf key = some atsign := beq_iff_eq.mp hsame
      have hn := checksOfAtsign_eq hkey hcount
      omega
    · exact h.2.2 atsign

theorem startChecks_spec (now : ℤ) (start : String → ℤ) (left i : ℕ) {cs cs' : ClientSessions}
    (h : ChecksBounded cs.checks) (hstart : startChecks now start cs i left = some cs') :
    SameSessions cs cs' ∧ ChecksBounded cs'.checks := by
  induction left generalizing cs i with
  | zero =>
    obtain rfl := Option.some.inj hstart
    exact ⟨rfl, h⟩
  | succ left ih =>
    simp only [startChecks] at hstart
    split at hstart
    · obtain rfl := Option.some.inj hstart
      exact ⟨rfl, h⟩
    · rename_i hroom
      split at hstart
      · obtain rfl := Option.some.inj hstart
        exact ⟨rfl, h⟩
      · rename_i session hsession
        have hcleared : ChecksBounded (cs.clearDue session.signingKey).checks := h
        have hsame := sameSessions_clearDue cs session.signingKey
        split at hstart
        · exact ih (i + 1) h hstart
        · split at hstart
          · obtain ⟨hrest, hbounded⟩ := ih (i + 1) hcleared hstart
            exact ⟨hsame.trans hrest, hbounded⟩
          · rename_i hnew
            split at hstart
            · cases hstart
            · rename_i n hcount
              split at hstart
              · exact ih (i + 1) h hstart
              · rename_i hatsign
                split at hstart
                · obtain ⟨hrest, hbounded⟩ := ih (i + 1) hcleared hstart
                  exact ⟨hsame.trans hrest, hbounded⟩
                · have hstarted : ChecksBounded ({ cs.clearDue session.signingKey with
                      checks := cs.checks ++ [⟨session.signingKey, start session.signingKey, now⟩] } :
                        ClientSessions).checks := h.start hroom hnew hcount hatsign
                  obtain ⟨hrest, hbounded⟩ := ih (i + 1) hstarted hstart
                  exact ⟨hsame.trans hrest, hbounded⟩

theorem tick_spec {now : ℤ} {start : String → ℤ} {cs : ClientSessions}
    {r : ClientSessions × List Signal} (h : ChecksBounded cs.checks)
    (htick : cs.tick now start = some r) : SameSessions cs r.1 ∧ ChecksBounded r.1.checks := by
  unfold tick at htick
  split at htick
  · obtain rfl := Option.some.inj htick
    exact ⟨rfl, h⟩
  · obtain ⟨cs', hstart, rfl⟩ := Option.map_eq_some_iff.mp htick
    have hmarked : ChecksBounded (cs.markDue now).checks := by rwa [checks_markDue]
    obtain ⟨hsame, hbounded⟩ := startChecks_spec now start cs.sessions.length 0 hmarked hstart
    exact ⟨(sameSessions_markDue cs now).trans hsame, hbounded⟩

/-! ### Keys that name an atSign never crash the daemon -/

structure Addressed (cs : ClientSessions) : Prop where
  sessions : ∀ session ∈ cs.sessions, '@' ∈ session.signingKey.toList
  checks : ∀ check ∈ cs.checks, '@' ∈ check.signingKey.toList

theorem Addressed.same {cs cs' : ClientSessions} (h : cs.Addressed) (hsame : SameSessions cs cs')
    (hchecks : ∀ check ∈ cs'.checks, '@' ∈ check.signingKey.toList) : cs'.Addressed := by
  refine ⟨fun session' hs => ?_, hchecks⟩
  obtain ⟨session, hsession, -, hkey, -⟩ := hsame.exists_of_mem hs
  rw [hkey]
  exact h.sessions session hsession

theorem startChecks_addressed (now : ℤ) (start : String → ℤ) (left i : ℕ) {cs : ClientSessions}
    (h : cs.Addressed) : ∃ cs', startChecks now start cs i left = some cs' ∧ cs'.Addressed := by
  induction left generalizing cs i with
  | zero => exact ⟨cs, rfl, h⟩
  | succ left ih =>
    simp only [startChecks]
    split
    · exact ⟨cs, rfl, h⟩
    · split
      · exact ⟨cs, rfl, h⟩
      · rename_i session hsession
        have hkey := h.sessions session (List.mem_of_getElem? hsession)
        have hcleared : (cs.clearDue session.signingKey).Addressed :=
          h.same (sameSessions_clearDue cs _) h.checks
        obtain ⟨n, hcount⟩ := checksOfAtsign_addressed hkey h.checks
        split
        · exact ih (i + 1) h
        · split
          · exact ih (i + 1) hcleared
          · rw [hcount]
            simp only
            split
            · exact ih (i + 1) h
            · split
              · exact ih (i + 1) hcleared
              · refine ih (i + 1) ⟨hcleared.sessions, fun check hcheck => ?_⟩
                rcases List.mem_append.mp hcheck with hold | hnew
                · exact h.checks check hold
                · obtain rfl := List.mem_singleton.mp hnew
                  exact hkey

theorem tick_addressed {cs : ClientSessions} (h : cs.Addressed) (now : ℤ) (start : String → ℤ) :
    ∃ r, cs.tick now start = some r ∧ r.1.Addressed := by
  unfold tick
  split
  · exact ⟨_, rfl, h⟩
  · have hmarked : (cs.markDue now).Addressed := by
      refine h.same (sameSessions_markDue cs now) ?_
      rw [checks_markDue]
      exact h.checks
    obtain ⟨cs', hstart, haddressed⟩ :=
      startChecks_addressed now start cs.sessions.length 0 hmarked
    exact ⟨_, by rw [hstart, Option.map_some], haddressed⟩

theorem track_addressed {cs : ClientSessions} (h : cs.Addressed) {signingKey : String}
    (hkey : '@' ∈ signingKey.toList) (sessionId : String) (srvPid : ℤ) :
    (cs.track sessionId signingKey srvPid).1.Addressed := by
  unfold track
  split
  · exact h
  · refine ⟨fun session hs => ?_, h.checks⟩
    rcases List.mem_append.mp hs with hold | hnew
    · exact h.sessions session hold
    · obtain rfl := List.mem_singleton.mp hnew
      exact hkey

/-! ### One call -/

/-- A reaped child is a session's srv, or a finished check, or neither. -/
theorem reaped_cases (cs : ClientSessions) (pid : ℤ) (status : ExitStatus) :
    (∃ i, i < cs.sessions.length ∧ cs.finishedCheck pid = none ∧
        cs.reaped pid status = ({ cs with sessions := removeSwap cs.sessions i }, [])) ∨
      (cs.finishedCheck pid = none ∧ cs.reaped pid status = (cs, [])) ∨
      ∃ i check, i < cs.checks.length ∧ cs.finishedCheck pid = some check ∧
        cs.reaped pid status = { cs with checks := removeSwap cs.checks i }.keyCheckFinished
          check.signingKey status := by
  unfold reaped finishedCheck
  cases hsession : cs.sessions.findIdx? (·.srvPid == pid) with
  | some i =>
    obtain ⟨hi, hpid, -⟩ := List.findIdx?_eq_some_iff_getElem.mp hsession
    have hany : cs.sessions.any (·.srvPid == pid) = true :=
      List.any_eq_true.mpr ⟨cs.sessions[i], List.getElem_mem hi, hpid⟩
    refine Or.inl ⟨i, hi, ?_, rfl⟩
    rw [if_pos hany]
  | none =>
    have hany : ¬cs.sessions.any (·.srvPid == pid) = true := by
      intro hany
      obtain ⟨session, hmem, hpid⟩ := List.any_eq_true.mp hany
      exact absurd hpid (by simpa using List.findIdx?_eq_none_iff.mp hsession session hmem)
    rw [if_neg hany]
    cases hcheck : cs.checks.findIdx? (·.pid == pid) with
    | none =>
      have hfind : cs.checks.find? (·.pid == pid) = none := by
        rw [List.find?_eq_none]
        intro check hmem
        simpa using List.findIdx?_eq_none_iff.mp hcheck check hmem
      exact Or.inr (Or.inl ⟨hfind, rfl⟩)
    | some i =>
      obtain ⟨hi, hpid, -⟩ := List.findIdx?_eq_some_iff_getElem.mp hcheck
      cases hfind : cs.checks.find? (·.pid == pid) with
      | none => exact absurd hpid (List.find?_eq_none.mp hfind _ (List.getElem_mem hi))
      | some check => exact Or.inr (Or.inr ⟨i, check, hi, rfl, rfl⟩)

theorem finishedCheck_mem {cs : ClientSessions} {pid : ℤ} {check : KeyCheck}
    (h : cs.finishedCheck pid = some check) : check ∈ cs.checks ∧ check.pid = pid := by
  unfold finishedCheck at h
  split at h
  · cases h
  · refine ⟨List.mem_of_find?_eq_some h, ?_⟩
    have hpid := List.find?_some h
    exact beq_iff_eq.mp hpid

theorem reaped_addressed {cs : ClientSessions} (h : cs.Addressed) (pid : ℤ) (status : ExitStatus) :
    (cs.reaped pid status).1.Addressed := by
  rcases reaped_cases cs pid status with ⟨i, hi, -, heq⟩ | ⟨-, heq⟩ | ⟨i, check, hi, -, heq⟩
  · rw [heq]
    exact ⟨fun session hs => h.sessions session (mem_of_mem_removeSwap hi hs), h.checks⟩
  · rw [heq]
    exact h
  · rw [heq]
    have hchecks : ∀ check ∈ removeSwap cs.checks i, '@' ∈ check.signingKey.toList :=
      fun check hcheck => h.checks check (mem_of_mem_removeSwap hi hcheck)
    simp only [keyCheckFinished]
    split
    · refine ⟨fun session' hs => ?_, hchecks⟩
      obtain ⟨session, hsession, rfl⟩ := List.mem_map.mp hs
      have hkey := h.sessions session hsession
      split
      · exact hkey
      · exact hkey
    · exact ⟨h.sessions, hchecks⟩

/-- What is signalled on a reaped child is signalled to the sessions told to end. -/
theorem reaped_signals (cs : ClientSessions) (pid : ℤ) (status : ExitStatus) :
    (cs.reaped pid status).2 = (cs.told (.reaped pid status)).map (.sigterm ·.srvPid) := by
  rcases reaped_cases cs pid status with ⟨i, -, hnone, heq⟩ | ⟨hnone, heq⟩ |
    ⟨i, check, -, hsome, heq⟩
  · simp only [heq, told, hnone, List.map_nil]
  · simp only [heq, told, hnone, List.map_nil]
  · simp only [heq, told, hsome, keyCheckFinished]
    by_cases hwithdrawn : Withdrawn status
    · have hstatus := hwithdrawn
      unfold Withdrawn at hstatus
      rw [if_pos hwithdrawn, if_pos hstatus]
    · have hstatus := hwithdrawn
      unfold Withdrawn at hstatus
      rw [if_neg hwithdrawn, if_neg hstatus]
      rfl

/-- A call leaves each session as it is but for those it tells to end, takes out at
most one and puts in at most one. -/
theorem mem_call {cs : ClientSessions} {c : Call} {r : ClientSessions × List Signal}
    (h : cs.WellFormed) (hcall : cs.call c = some r) {session' : ClientSession}
    (hs : session' ∈ r.1.sessions) :
    (∃ session ∈ cs.sessions, session'.sessionId = session.sessionId ∧
        session'.signingKey = session.signingKey ∧
        (session'.ending = true ↔ session.ending = true ∨ session ∈ cs.told c)) ∨
      session'.ending = false ∧ cs.isWatched session'.sessionId = false := by
  have hkept {session : ClientSession} (hsession : session ∈ cs.sessions)
      (hnot : session ∉ cs.told c) :
      ∃ s ∈ cs.sessions, session.sessionId = s.sessionId ∧ session.signingKey = s.signingKey ∧
        (session.ending = true ↔ s.ending = true ∨ s ∈ cs.told c) :=
    ⟨session, hsession, rfl, rfl, by simp only [hnot, or_false]⟩
  cases c with
  | track sessionId signingKey srvPid =>
    obtain rfl := Option.some.inj hcall
    unfold track at hs
    split at hs
    · exact Or.inl (hkept hs List.not_mem_nil)
    · rename_i hwatched
      rcases List.mem_append.mp hs with hold | hnew
      · exact Or.inl (hkept hold List.not_mem_nil)
      · obtain rfl := List.mem_singleton.mp hnew
        exact Or.inr ⟨rfl, Bool.eq_false_iff.mpr hwatched⟩
  | tick now start =>
    obtain ⟨session, hsession, hid, hkey, hending⟩ :=
      (tick_spec ⟨h.keys, h.total, h.perAtsign⟩ hcall).1.exists_of_mem hs
    refine Or.inl ⟨session, hsession, hid, hkey, ?_⟩
    rw [hending]
    exact ⟨Or.inl, fun hor => hor.elim id fun hmem => absurd hmem List.not_mem_nil⟩
  | reaped pid status =>
    obtain rfl := Option.some.inj hcall
    rcases reaped_cases cs pid status with ⟨i, hi, hnone, heq⟩ | ⟨hnone, heq⟩ |
      ⟨i, check, -, hsome, heq⟩
    · rw [heq] at hs
      exact Or.inl (hkept (mem_of_mem_removeSwap hi hs) (by simp only [told, hnone]; exact List.not_mem_nil))
    · rw [heq] at hs
      exact Or.inl (hkept hs (by simp only [told, hnone]; exact List.not_mem_nil))
    · rw [heq] at hs
      by_cases hwithdrawn : Withdrawn status
      · have hstatus := hwithdrawn
        unfold Withdrawn at hstatus
        simp only [keyCheckFinished, if_pos hstatus] at hs
        obtain ⟨session, hsession, rfl⟩ := List.mem_map.mp hs
        refine Or.inl ⟨session, hsession, ?_⟩
        have htold : session ∈ cs.told (.reaped pid status) ↔
            (!session.ending && session.signingKey == check.signingKey) = true := by
          simp only [told, hsome, if_pos hwithdrawn, List.mem_filter, hsession, true_and]
        rw [htold]
        split
        · rename_i hends
          exact ⟨rfl, rfl, fun _ => Or.inr hends, fun _ => rfl⟩
        · rename_i hends
          exact ⟨rfl, rfl, Or.inl, fun hor => hor.elim id fun hmem => absurd hmem hends⟩
      · have hstatus := hwithdrawn
        unfold Withdrawn at hstatus
        simp only [keyCheckFinished, if_neg hstatus] at hs
        refine Or.inl (hkept hs ?_)
        simp only [told, hsome, if_neg hwithdrawn]
        exact List.not_mem_nil

theorem wellFormed_call {cs : ClientSessions} {c : Call} {r : ClientSessions × List Signal}
    (h : cs.WellFormed) (hcall : cs.call c = some r) : r.1.WellFormed := by
  cases c with
  | track sessionId signingKey srvPid =>
    obtain rfl := Option.some.inj hcall
    unfold track
    split
    · exact h
    · rename_i hwatched
      refine ⟨?_, h.keys, h.total, h.perAtsign⟩
      rw [List.map_append, List.nodup_append]
      refine ⟨h.ids, List.nodup_singleton _, ?_⟩
      intro id hid other hother heq
      obtain ⟨session, hsession, rfl⟩ := List.mem_map.mp hid
      refine hwatched ?_
      rw [isWatched, findSession, List.find?_isSome]
      refine ⟨session, hsession, beq_iff_eq.mpr ?_⟩
      rw [heq]
      exact List.mem_singleton.mp hother
  | tick now start =>
    obtain ⟨hsame, hkeys, htotal, hatsign⟩ := tick_spec ⟨h.keys, h.total, h.perAtsign⟩ hcall
    refine ⟨?_, hkeys, htotal, hatsign⟩
    rw [hsame.ids]
    exact h.ids
  | reaped pid status =>
    obtain rfl := Option.some.inj hcall
    have hbounded : ChecksBounded cs.checks := ⟨h.keys, h.total, h.perAtsign⟩
    rcases reaped_cases cs pid status with ⟨i, hi, -, heq⟩ | ⟨-, heq⟩ | ⟨i, check, hi, -, heq⟩
    · rw [heq]
      refine ⟨?_, h.keys, h.total, h.perAtsign⟩
      refine (((removeSwap_perm hi).map _).nodup_iff).mpr ?_
      exact h.ids.sublist ((List.eraseIdx_sublist _ _).map _)
    · rw [heq]
      exact h
    · rw [heq]
      obtain ⟨hkeys, htotal, hatsign⟩ :=
        (hbounded.sublist (List.eraseIdx_sublist _ i)).perm (removeSwap_perm hi)
      simp only [keyCheckFinished]
      split
      · refine ⟨?_, hkeys, htotal, hatsign⟩
        have hids : ∀ s : ClientSession, (if (!s.ending && s.signingKey == check.signingKey) = true
            then { s with ending := true } else s).sessionId = s.sessionId := by
          intro s
          split <;> rfl
        simp only [List.map_map, Function.comp_def, hids]
        exact h.ids
      · exact ⟨h.ids, hkeys, htotal, hatsign⟩

/-! ### Over whole runs -/

theorem step_eq {cs cs' : ClientSessions} {c : Call} (h : machine.step cs c = some cs') :
    ∃ signals, cs.call c = some (cs', signals) := by
  obtain ⟨r, hr, rfl⟩ := Option.map_eq_some_iff.mp h
  exact ⟨r.2, hr⟩

def Present (sessionId : String) (cs : ClientSessions) : Prop :=
  ∃ session ∈ cs.sessions, session.sessionId = sessionId

/-- The session has been told to end in the run, and has been in the table since. -/
def Told (cs : ClientSessions) (calls : List Call) (sessionId : String) : Prop :=
  ∃ pre c post u v, calls = pre ++ c :: post ∧ machine.run cs pre = some u ∧
    (∃ session ∈ u.told c, session.sessionId = sessionId) ∧ machine.step u c = some v ∧
    Present sessionId v ∧
    machine.Meets (fun u c => ∀ v, machine.step u c = some v → Present sessionId v) v post

theorem wellFormed_of_run {n : ℕ} {calls : List Call} {cs : ClientSessions}
    (hr : machine.run (init n) calls = some cs) : cs.WellFormed := by
  refine machine.invariant ?_ ?_ hr
  · intro u c v hu hstep
    obtain ⟨signals, hcall⟩ := step_eq hstep
    exact wellFormed_call hu hcall
  · exact ⟨List.nodup_nil, List.nodup_nil, Nat.zero_le _, fun _ => Nat.zero_le _⟩

theorem call_addressed {cs : ClientSessions} (h : cs.Addressed) {c : Call} (hc : c.Addressed) :
    ∃ r, cs.call c = some r ∧ r.1.Addressed := by
  cases c with
  | track sessionId signingKey srvPid => exact ⟨_, rfl, track_addressed h hc sessionId srvPid⟩
  | tick now start => exact tick_addressed h now start
  | reaped pid status => exact ⟨_, rfl, reaped_addressed h pid status⟩

/-- Calls whose keys name an atSign are taken to the last. -/
theorem run_addressed {cs : ClientSessions} (h : cs.Addressed) {calls : List Call}
    (hcalls : ∀ c ∈ calls, c.Addressed) : ∃ cs', machine.run cs calls = some cs' := by
  induction calls generalizing cs with
  | nil => exact ⟨cs, rfl⟩
  | cons c calls ih =>
    obtain ⟨hc, hcalls⟩ := List.forall_mem_cons.mp hcalls
    obtain ⟨r, hcall, hr⟩ := call_addressed h hc
    have hstep : machine.step cs c = some r.1 := by
      simp only [machine, hcall, Option.map_some]
    obtain ⟨cs', hrun⟩ := ih hr hcalls
    exact ⟨cs', by rw [machine.run_step hstep, hrun]⟩

theorem mem_told {cs : ClientSessions} {c : Call} {session : ClientSession}
    (h : session ∈ cs.told c) : session ∈ cs.sessions ∧ session.ending = false ∧
      ∃ pid status check, c = .reaped pid status ∧ cs.finishedCheck pid = some check ∧
        check.signingKey = session.signingKey ∧ Withdrawn status := by
  cases c with
  | track _ _ _ => cases h
  | tick _ _ => cases h
  | reaped pid status =>
    simp only [told] at h
    split at h
    · rename_i check hcheck
      split at h
      · rename_i hwithdrawn
        rw [List.mem_filter, Bool.and_eq_true, Bool.not_eq_true', beq_iff_eq] at h
        exact ⟨h.1, h.2.1, pid, status, check, rfl, hcheck, h.2.2.symm, hwithdrawn⟩
      · cases h
    · cases h

/-- Each session of the id is ending, as it stays while it is in the table. -/
def Ending (sessionId : String) (cs : ClientSessions) : Prop :=
  ∀ session ∈ cs.sessions, session.sessionId = sessionId → session.ending = true

theorem ending_call {cs : ClientSessions} {c : Call} {r : ClientSessions × List Signal}
    (h : cs.WellFormed) {sessionId : String} (hending : Ending sessionId cs)
    (hpresent : Present sessionId cs) (hcall : cs.call c = some r) : Ending sessionId r.1 := by
  intro session' hs hid
  rcases mem_call h hcall hs with ⟨session, hsession, hsame, -, hiff⟩ | ⟨-, hwatched⟩
  · exact hiff.mpr (Or.inl (hending session hsession (hsame.symm.trans hid)))
  · obtain ⟨session, hsession, hsame⟩ := hpresent
    refine absurd ?_ (Bool.eq_false_iff.mp hwatched)
    rw [isWatched, findSession, List.find?_isSome]
    exact ⟨session, hsession, beq_iff_eq.mpr (hsame.trans hid.symm)⟩

theorem ending_of_told {cs : ClientSessions} {c : Call} {r : ClientSessions × List Signal}
    (h : cs.WellFormed) {session : ClientSession} (htold : session ∈ cs.told c)
    (hcall : cs.call c = some r) : Ending session.sessionId r.1 := by
  intro session' hs hid
  obtain ⟨hmem, -, -⟩ := mem_told htold
  rcases mem_call h hcall hs with ⟨old, hold, hsame, -, hiff⟩ | ⟨-, hwatched⟩
  · have heq : old = session :=
      List.inj_on_of_nodup_map h.ids hold hmem (hsame.symm.trans hid)
    rw [hiff, heq]
    exact Or.inr htold
  · refine absurd ?_ (Bool.eq_false_iff.mp hwatched)
    rw [isWatched, findSession, List.find?_isSome]
    exact ⟨session, hmem, beq_iff_eq.mpr hid.symm⟩

theorem ending_of_Told {n : ℕ} {calls : List Call} {cs : ClientSessions} {sessionId : String}
    (hr : machine.run (init n) calls = some cs) (h : Told (init n) calls sessionId) :
    Ending sessionId cs := by
  obtain ⟨pre, c, post, u, v, rfl, hu, ⟨session, htold, rfl⟩, hstep, hpresent, hmeets⟩ := h
  have hwf : u.WellFormed := wellFormed_of_run hu
  obtain ⟨signals, hcall⟩ := step_eq hstep
  rw [machine.run_append, hu, Option.bind_some, machine.run_step hstep] at hr
  have hinv : cs.WellFormed ∧ Present session.sessionId cs ∧ Ending session.sessionId cs := by
    refine @Machine.invariant_of_meets _ _ machine _ (fun v => v.WellFormed ∧
      Present session.sessionId v ∧ Ending session.sessionId v) ?_ _ _ _
      ⟨wellFormed_call hwf hcall, hpresent, ending_of_told hwf htold hcall⟩ hmeets hr
    intro v d w hv hstays hstep
    obtain ⟨hv, hpv, hev⟩ := hv
    obtain ⟨signals, hd⟩ := step_eq hstep
    exact ⟨wellFormed_call hv hd, hstays w hstep, ending_call hv hev hpv hd⟩
  exact hinv.2.2

/-- A session that is ending has been told to end. -/
theorem told_of_ending {n : ℕ} {calls : List Call} {cs : ClientSessions}
    (hr : machine.run (init n) calls = some cs) :
    ∀ session ∈ cs.sessions, session.ending = true → Told (init n) calls session.sessionId := by
  refine @Machine.run_induction _ _ machine (init n) (fun calls cs => ∀ session ∈ cs.sessions,
    session.ending = true → Told (init n) calls session.sessionId) ?_ ?_ _ _ hr
  · intro session hs
    cases hs
  · intro calls c u v hu ih hstep session' hs hending
    obtain ⟨signals, hcall⟩ := step_eq hstep
    have hpresent : Present session'.sessionId v := ⟨session', hs, rfl⟩
    rcases mem_call (wellFormed_of_run hu) hcall hs with
      ⟨session, hsession, hsame, -, hiff⟩ | ⟨hnot, -⟩
    · rcases hiff.mp hending with hold | hnow
      · obtain ⟨pre, d, post, w, x, rfl, hw, htold, hx, hat, hmeets⟩ := ih session hsession hold
        rw [hsame] at hpresent ⊢
        refine ⟨pre, d, post ++ [c], w, x, by simp only [List.append_assoc, List.cons_append], hw,
          htold, hx, hat, machine.meets_concat.mpr ⟨hmeets, fun y hy z hz => ?_⟩⟩
        have huy : u = y := by
          rw [machine.run_append, hw, Option.bind_some, machine.run_step hx] at hu
          exact Option.some.inj (hu.symm.trans hy)
        rw [← huy, hstep] at hz
        rwa [← Option.some.inj hz]
      · rw [hsame] at hpresent ⊢
        exact ⟨calls, c, [], u, v, rfl, hu, ⟨session, hnow, rfl⟩, hstep, hpresent, trivial⟩
    · rw [hnot] at hending
      cases hending

/-- A pid that only one check has, and no session's srv, is that check's. -/
theorem finishedCheck_eq {cs : ClientSessions} {pid : ℤ} {check : KeyCheck}
    (hcheck : check ∈ cs.checks) (hpid : check.pid = pid)
    (hsrv : ∀ session ∈ cs.sessions, session.srvPid ≠ pid)
    (honly : ∀ other ∈ cs.checks, other.pid = pid → other = check) :
    cs.finishedCheck pid = some check := by
  have hnone : ¬cs.sessions.any (·.srvPid == pid) = true := by
    intro hany
    obtain ⟨session, hsession, heq⟩ := List.any_eq_true.mp hany
    exact hsrv session hsession (beq_iff_eq.mp heq)
  rw [finishedCheck, if_neg hnone]
  cases hfind : cs.checks.find? (·.pid == pid) with
  | none => exact absurd (beq_iff_eq.mpr hpid) (List.find?_eq_none.mp hfind check hcheck)
  | some other =>
    have hother : other.pid = pid := by
      have hfound := List.find?_some hfind
      exact beq_iff_eq.mp hfound
    rw [honly other (List.mem_of_find?_eq_some hfind) hother]

theorem sigterm_of_call {cs : ClientSessions} {c : Call} {r : ClientSessions × List Signal}
    {pid : ℤ} (hcall : cs.call c = some r) (hsignal : Signal.sigterm pid ∈ r.2) :
    (∃ session ∈ cs.told c, session.srvPid = pid) ∨
      ∃ sessionId signingKey, c = .track sessionId signingKey pid ∧
        cs.isWatched sessionId = true := by
  cases c with
  | track sessionId signingKey srvPid =>
    obtain rfl := Option.some.inj hcall
    unfold track at hsignal
    split at hsignal
    · rename_i hwatched
      obtain rfl := Signal.sigterm.inj (List.mem_singleton.mp hsignal)
      exact Or.inr ⟨sessionId, signingKey, rfl, hwatched⟩
    · cases hsignal
  | tick now start =>
    simp only [call, tick] at hcall
    split at hcall
    · obtain rfl := Option.some.inj hcall
      cases hsignal
    · obtain ⟨cs', -, rfl⟩ := Option.map_eq_some_iff.mp hcall
      obtain ⟨check, -, heq⟩ := List.mem_map.mp hsignal
      cases heq
  | reaped pid' status =>
    obtain rfl := Option.some.inj hcall
    rw [reaped_signals] at hsignal
    obtain ⟨session, hsession, heq⟩ := List.mem_map.mp hsignal
    exact Or.inl ⟨session, hsession, Signal.sigterm.inj heq⟩

/-- The table over every run of calls whose keys name an atSign: no call crashes; ids
and keys stay distinct and the checks within their bounds; a session is told to end by
its key only on the exit of a check that found that key withdrawn, once while it is in
the table; and on the exit of such a check, known by a pid that no other child has,
every session with that key is told, if it has not been. -/
theorem session_table {n : ℕ} {calls : List Call} (hcalls : ∀ c ∈ calls, c.Addressed) :
    ∃ cs, machine.run (init n) calls = some cs ∧ cs.WellFormed ∧
      (∀ c r, cs.call c = some r → ∀ pid, Signal.sigterm pid ∈ r.2 →
        (∃ session ∈ cs.told c, session.srvPid = pid) ∨
          ∃ sessionId signingKey, c = .track sessionId signingKey pid ∧
            cs.isWatched sessionId = true) ∧
      (∀ c, ∀ session ∈ cs.told c, session ∈ cs.sessions ∧ ¬Told (init n) calls session.sessionId ∧
        ∃ pid status check, c = .reaped pid status ∧ check ∈ cs.checks ∧ check.pid = pid ∧
          check.signingKey = session.signingKey ∧ Withdrawn status) ∧
      ∀ pid status, Withdrawn status → ∀ check ∈ cs.checks, check.pid = pid →
        (∀ session ∈ cs.sessions, session.srvPid ≠ pid) →
        (∀ other ∈ cs.checks, other.pid = pid → other = check) →
        (cs.reaped pid status).2 = (cs.told (.reaped pid status)).map (.sigterm ·.srvPid) ∧
          ∀ session ∈ cs.sessions, session.signingKey = check.signingKey →
            session ∈ cs.told (.reaped pid status) ∨ Told (init n) calls session.sessionId := by
  have hempty : (init n).Addressed :=
    ⟨fun _ hs => absurd hs List.not_mem_nil, fun _ hc => absurd hc List.not_mem_nil⟩
  obtain ⟨cs, hr⟩ := run_addressed hempty hcalls
  refine ⟨cs, hr, wellFormed_of_run hr, fun c r hcall pid hs => sigterm_of_call hcall hs, ?_, ?_⟩
  · intro c session htold
    obtain ⟨hmem, hending, pid, status, check, hc, hcheck, hkey, hwithdrawn⟩ := mem_told htold
    obtain ⟨hcheckMem, hpid⟩ := finishedCheck_mem hcheck
    refine ⟨hmem, fun hbefore => ?_, pid, status, check, hc, hcheckMem, hpid, hkey, hwithdrawn⟩
    rw [ending_of_Told hr hbefore session hmem rfl] at hending
    cases hending
  · intro pid status hwithdrawn check hcheck hpid hsrv honly
    have hfinished := finishedCheck_eq hcheck hpid hsrv honly
    refine ⟨reaped_signals cs pid status, fun session hsession hkey => ?_⟩
    cases hending : session.ending with
    | true => exact Or.inr (told_of_ending hr session hsession hending)
    | false =>
      refine Or.inl ?_
      simp only [told, hfinished, if_pos hwithdrawn, List.mem_filter, Bool.and_eq_true,
        Bool.not_eq_true', beq_iff_eq]
      exact ⟨hsession, hending, hkey⟩

/-- Two sessions of one key and one of another, whose keys are being checked. -/
def checkedCalls : List Call :=
  [.track "s1" "public:_apsk.1.a.__e@alice" 5, .track "s2" "public:_apsk.1.a.__e@alice" 6,
    .track "s3" "public:_apsk.2.a.__e@alice" 7, .tick 1 (fun _ => 0),
    .tick 11 (fun key => if key = "public:_apsk.1.a.__e@alice" then 20 else 21)]

def checkedTable : ClientSessions where
  intervalSecs := 10
  nextDue := 21
  sessions := [⟨"s1", "public:_apsk.1.a.__e@alice", 5, false, false⟩,
    ⟨"s2", "public:_apsk.1.a.__e@alice", 6, false, false⟩,
    ⟨"s3", "public:_apsk.2.a.__e@alice", 7, false, false⟩]
  checks := [⟨"public:_apsk.1.a.__e@alice", 20, 11⟩, ⟨"public:_apsk.2.a.__e@alice", 21, 11⟩]

/-- The first check reports its key revoked, and the two sessions of that key end. -/
theorem session_table_sample :
    machine.run (init 10) checkedCalls = some checkedTable ∧ checkedTable.WellFormed ∧
      (checkedTable.reaped 20 (.exited publicLookupKeyCheckRevoked)).2 = [.sigterm 5, .sigterm 6] ∧
      ∀ session ∈ checkedTable.sessions, session.signingKey = "public:_apsk.1.a.__e@alice" →
        session ∈ checkedTable.told (.reaped 20 (.exited publicLookupKeyCheckRevoked)) ∨
          Told (init 10) checkedCalls session.sessionId := by
  have hr : machine.run (init 10) checkedCalls = some checkedTable := by decide +kernel
  have hcalls : ∀ c ∈ checkedCalls, c.Addressed := by decide +kernel
  obtain ⟨cs, hcs, hwf, -, -, htold⟩ := @session_table 10 checkedCalls hcalls
  obtain rfl := Option.some.inj (hr.symm.trans hcs)
  obtain ⟨-, hended⟩ := htold 20 (.exited publicLookupKeyCheckRevoked) (Or.inl rfl) _
    List.mem_cons_self rfl (by decide +kernel) (by decide +kernel)
  exact ⟨hr, hwf, by decide +kernel, hended⟩

/-- Two sessions whose keys name no atSign. -/
def unaddressedCalls : List Call :=
  [.track "s1" "_apsk.1" 5, .track "s2" "_apsk.2" 6, .tick 1 (fun _ => 0), .tick 11 (fun _ => 20)]

/-- With the first key under check, the count for the second one crashes; and a pid of
both a session's srv and a check is taken for the srv's, so the check's exit tells no
one. -/
theorem session_table_anyKeys :
    machine.run (init 10) unaddressedCalls = none ∧
      machine.run (init 10) (checkedCalls ++ [.track "s4" "public:_apsk.3.a.__e@alice" 20]) =
        some (checkedTable.track "s4" "public:_apsk.3.a.__e@alice" 20).1 ∧
      ((checkedTable.track "s4" "public:_apsk.3.a.__e@alice" 20).1.reaped 20
        (.exited publicLookupKeyCheckRevoked)).2 = [] :=
  ⟨by decide +kernel, by decide +kernel, by decide +kernel⟩

end ClientSessions
end NoPorts.CDaemon
