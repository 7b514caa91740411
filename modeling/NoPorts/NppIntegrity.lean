import NoPorts.NppManager

/-! The policy store stays whole under every interleaving of a manager's
requests, and what its decisions are then. -/
namespace NoPorts.Npp
open Lib

/-- A property of the cache that each put and each delete keeps. -/
structure Kept (J : NppCache → Prop) : Prop where
  put : ∀ c newId e b c', J c → e.id ≠ none → c.put newId e = .ok (b, c') → J c'
  delete : ∀ c k id b c', J c → c.delete k id = .ok (b, c') → J c'

theorem kept_distinct : Kept NppCache.Distinct :=
  ⟨fun _ _ _ _ _ hc hid h => hc.put hid h, fun _ _ _ _ _ hc h => hc.delete h⟩

/-- What the task behind the lock relies on: the rules its put names are held,
and every rule that names the one it deletes is among those still to go. -/
def Holder (s : Shared) : Task → Prop
  | .putting _ e => e.id ≠ none ∧ ∀ k ∈ e.names, ∃ t ∈ s.cache.entries, t.key = k
  | .deleting _ d | .logging _ d =>
    (∀ x ∈ s.cache.entries, (d.entry.kind, some d.id) ∈ x.names → x ∈ d.links) ∧
      ∀ l ∈ d.links, l.kind = .clientGroupMember ∨ l.kind = .serviceACL
  | _ => True

/-- The assertion is about the cache alone. -/
theorem Holder.of_cache {s s' : Shared} {t : Task} (h : Holder s t) (hc : s'.cache = s.cache) :
    Holder s' t := by
  cases t with
  | putting c e =>
    simp only [Holder, hc] at h ⊢
    exact h
  | deleting c d =>
    simp only [Holder, hc] at h ⊢
    exact h
  | logging c d =>
    simp only [Holder, hc] at h ⊢
    exact h
  | _ => trivial

namespace ManagerRpcCallbacks
variable (m : ManagerRpcCallbacks) {J : NppCache → Prop} {s : Shared} {c : Change}

/-- A step behind the lock has ended well. -/
def Good (J : NppCache → Prop) (r : Shared × Task) : Prop :=
  (r.1.cache.Integrity ∧ J r.1.cache) ∧ Holder r.1 r.2

@[simp] theorem sendEvent_cache (fromAtSign : String) (build : String → PolicyEvent) :
    (m.sendEvent s fromAtSign build).cache = s.cache := by
  unfold sendEvent
  split <;> rfl

theorem conclude_good (hs : s.cache.Integrity ∧ J s.cache) (rule : List (String × Json))
    (result : Except Thrown AtRpcResp) : Good J (m.conclude s c rule result) := by
  refine ⟨?_, trivial⟩
  simpa only [conclude, logChange, sendEvent_cache] using hs

theorem store_good (hJ : Kept J) (hs : s.cache.Integrity ∧ J s.cache) {e : PolicyEntry}
    (hid : e.id ≠ none) (hnames : ∀ k ∈ e.names, ∃ t ∈ s.cache.entries, t.key = k)
    (newId : String) : Good J (m.store s c e newId) := by
  unfold store
  split
  · exact m.conclude_good hs _ _
  all_goals
    rename_i cache hput
    have hs' : cache.Integrity ∧ J cache :=
      ⟨hs.1.put hid hnames hput, hJ.put _ _ _ _ _ hs.2 hid hput⟩
  · exact m.conclude_good (s := { s with cache := cache }) hs' _ _
  · split
    · exact ⟨hs', trivial⟩
    · exact m.conclude_good (s := { s with cache := cache }) hs' _ _

theorem putEntry_good (hJ : Kept J) (hs : s.cache.Integrity ∧ J s.cache) (e : PolicyEntry)
    (newId : String) : Good J (m.putEntry s c e newId) := by
  simp only [putEntry]
  split
  · exact m.conclude_good hs _ _
  · rename_i hmissing
    have hnames := NppCache.missingReferences_nil (not_not.mp hmissing)
    rw [← PolicyEntry.names_setId e newId] at hnames
    have hid : (e.setId newId).id ≠ none := by simp
    split
    · exact m.conclude_good hs _ _
    · split
      · exact ⟨hs, hid, hnames⟩
      · exact m.store_good hJ hs hid hnames newId

theorem put_good (hJ : Kept J) (hs : s.cache.Integrity ∧ J s.cache) (newId : String) :
    Good J (m.put s c newId) := by
  unfold put
  repeat' split
  all_goals first
    | exact m.conclude_good hs _ _
    | exact m.putEntry_good hJ hs _ newId

/-- The rules deleted first are all those that name the one asked for. -/
theorem mem_links {cache : NppCache} {k : Kind} {id : String} {x : PolicyEntry}
    (hx : x ∈ cache.entries) (hname : (k, some id) ∈ x.names) (hheld : heldBack cache k id = none) :
    x ∈ links cache k id := by
  cases x with
  | clientGroupMember y =>
    have hy := NppCache.mem_entries_clientGroupMember.mp hx
    rcases List.mem_pair.mp hname with h | h <;> cases h
    · simpa [links, NppCache.getClientGroupMembersByClientId] using hy
    · simpa [links, NppCache.getClientGroupMembersByClientGroupId] using hy
  | service y =>
    have hy := NppCache.mem_entries_service.mp hx
    cases List.mem_singleton.mp hname
    have hin : y ∈ cache.getServicesByDaemonId y.daemonId :=
      List.mem_filter.mpr ⟨hy, by simp⟩
    simp only [heldBack, true_and, gt_iff_lt, List.length_pos_of_mem hin, if_true,
      reduceCtorEq] at hheld
  | serviceACL y =>
    have hy := NppCache.mem_entries_serviceACL.mp hx
    rcases List.mem_pair.mp hname with h | h <;> cases h
    · simpa [links, NppCache.getServiceACLsByServiceID] using hy
    · simpa [links, NppCache.getServiceACLsByClientGroupId] using hy
  | _ => cases hname

theorem kind_of_mem_links {cache : NppCache} {k : Kind} {id : String} {l : PolicyEntry}
    (hl : l ∈ links cache k id) : l.kind = .clientGroupMember ∨ l.kind = .serviceACL := by
  cases k <;> simp only [links, List.mem_append, List.mem_map, List.not_mem_nil] at hl
  case client =>
    obtain ⟨x, -, rfl⟩ := hl
    exact Or.inl rfl
  case clientGroup =>
    rcases hl with ⟨x, -, rfl⟩ | ⟨x, -, rfl⟩
    · exact Or.inl rfl
    · exact Or.inr rfl
  case service =>
    obtain ⟨x, -, rfl⟩ := hl
    exact Or.inr rfl

/-- Nothing names a member or a service ACL. -/
theorem not_mem_names {k : Kind} (hk : k = .clientGroupMember ∨ k = .serviceACL)
    (id : Option String) (x : PolicyEntry) : (k, id) ∉ x.names := by
  rcases hk with rfl | rfl <;> cases x <;> simp [PolicyEntry.names]

theorem delete_good (hs : s.cache.Integrity ∧ J s.cache) : Good J (m.delete s c) := by
  unfold delete
  split
  · exact m.conclude_good hs _ _
  · split
    · split
      · exact m.conclude_good hs _ _
      · split
        · exact m.conclude_good hs _ _
        · split
          · exact m.conclude_good hs _ _
          · rename_i id entry hread
            obtain ⟨i, -, hread⟩ := bind_eq_ok.mp hread
            obtain ⟨e, hget, heq⟩ := bind_eq_ok.mp hread
            obtain ⟨rfl, rfl⟩ := Prod.ext_iff.mp (Except.ok.inj heq)
            obtain ⟨-, hkey⟩ := NppCache.getById_ok hget
            obtain rfl : e.kind = _ := congrArg Prod.fst hkey
            split
            · exact m.conclude_good hs _ _
            · rename_i hheld
              exact ⟨hs, fun x hx hname => mem_links hx hname hheld,
                fun l hl => kind_of_mem_links hl⟩
    · exact m.conclude_good hs _ _

theorem removeNext_good (hJ : Kept J) (hs : s.cache.Integrity ∧ J s.cache) {d : Deletion}
    (hd : Holder s (.deleting c d)) : Good J (m.removeNext s c d) := by
  obtain ⟨hlinks, hkinds⟩ := hd
  unfold removeNext
  split
  · rename_i link rest hl
    split
    · exact m.conclude_good hs _ _
    · rename_i id hid
      split
      · exact m.conclude_good hs _ _
      · rename_i cache hdel
        have hk := hkinds link (hl ▸ List.mem_cons_self)
        have hfree : ∀ x ∈ s.cache.entries, (link.kind, some id) ∉ x.names :=
          fun x _ => not_mem_names hk _ x
        refine ⟨?_, ?_, ?_⟩
        · simpa only [logRemoved, sendEvent_cache] using
            And.intro (hs.1.delete hfree hdel) (hJ.delete _ _ _ _ _ hs.2 hdel)
        · intro x hx hname
          simp only [logRemoved, sendEvent_cache] at hx
          obtain ⟨hx, hne⟩ := hs.1.mem_delete hdel hx
          -- The link deleted is the one rule under its key, so `x` is another.
          rcases List.mem_cons.mp (hl ▸ hlinks x hx hname) with rfl | hrest
          · exact absurd (congrArg (Prod.mk x.kind) hid) hne
          · exact hrest
        · exact fun l hlr => hkinds l (hl ▸ List.mem_cons_of_mem link hlr)
  · rename_i hl
    have hfree : ∀ x ∈ s.cache.entries, (d.entry.kind, some d.id) ∉ x.names :=
      fun x hx hname => absurd (hl ▸ hlinks x hx hname) List.not_mem_nil
    split
    · exact m.conclude_good hs _ _
    · rename_i cache hdel
      exact m.conclude_good (s := { s with cache := cache })
        ⟨hs.1.delete hfree hdel, hJ.delete _ _ _ _ _ hs.2 hdel⟩ _ _

theorem change_good (hJ : Kept J) (hs : s.cache.Integrity ∧ J s.cache) (newId : String) :
    Good J (m.change s c newId) := by
  unfold change
  split
  · exact m.conclude_good hs _ _
  · split
    · exact m.put_good hJ hs newId
    · exact m.delete_good hs

theorem holds_handleRead (cache : NppCache) (req : AtRpcReq) (now : String) :
    holds (m.handleRead cache req now) = false := by
  unfold handleRead
  repeat' split
  all_goals rfl

/-- A task away from the lock leaves the rules as they are, and stays away from holding it. -/
theorem resume_away {s s' : Shared} {t t' : Task} {w : Wake} (h : m.resume s t w = some (s', t'))
    (hw : waits t = false) (hh : holds t = false) : s'.cache = s.cache ∧ holds t' = false := by
  cases t <;> cases hw <;> cases hh
  case call.refl.refl req fromAtSign =>
    obtain ⟨rfl, rfl⟩ := Prod.ext_iff.mp (Option.some.inj h)
    unfold handleRequest
    split
    · exact ⟨m.sendEvent_cache _ _, rfl⟩
    · split
      · split
        · exact ⟨rfl, rfl⟩
        · exact ⟨rfl, m.holds_handleRead _ _ _⟩
      · exact ⟨rfl, m.holds_handleRead _ _ _⟩
  case refusing.refl.refl reqId =>
    cases h
    exact ⟨rfl, rfl⟩
  case checking.refl.refl reqId result =>
    cases h
    exact ⟨rfl, rfl⟩
  case finished.refl.refl result => cases h
  case stopped.refl.refl => cases h

/-- Only a task behind the lock changes the rules, and it keeps them whole. -/
theorem tasks_keep (hJ : Kept J) :
    m.tasks.Keeps (fun s => s.cache.Integrity ∧ J s.cache) Holder := by
  refine ⟨fun s t w s' t' h hw hh => ?_, fun s t w s' t' h hs hin => ?_⟩
  · obtain ⟨hcache, hh'⟩ := m.resume_away h hw hh
    exact ⟨hh', fun hs => by rwa [hcache], fun q hq => hq.of_cache hcache⟩
  · suffices hg : Good J (s', t') from ⟨hg.1, fun _ => hg.2⟩
    cases t with
    | acquiring c =>
      rw [← Option.some.inj h]
      exact m.change_good hJ hs w.newId
    | putting c e =>
      have hA := (hin.resolve_left Bool.false_ne_true).2
      simp only [tasks, resume] at h
      split at h
      · rw [← Option.some.inj h]
        exact m.conclude_good hs _ _
      · rw [← Option.some.inj h]
        exact m.store_good hJ hs hA.1 hA.2 w.newId
    | stored c e =>
      rw [← Option.some.inj h]
      exact m.conclude_good hs _ _
    | deleting c d =>
      have hA := (hin.resolve_left Bool.false_ne_true).2
      rw [← Option.some.inj h]
      unfold deleteNext
      split
      · exact m.conclude_good hs _ _
      · exact m.removeNext_good hJ hs hA
    | logging c d =>
      have hA := (hin.resolve_left Bool.false_ne_true).2
      rw [← Option.some.inj h]
      exact ⟨hs, hA⟩
    | reporting result =>
      rw [← Option.some.inj h]
      exact ⟨hs, trivial⟩
    | stopChanges =>
      rw [← Option.some.inj h]
      exact ⟨hs, trivial⟩
    | _ => simp [tasks, waits, holds] at hin

/-- Any calls at all, none of them begun yet, over `cache`. -/
def before (cache : NppCache) (requests : List (AtRpcReq × String)) (stops : ℕ) :
    Locked.State Shared Task :=
  ⟨⟨cache, false, []⟩,
    requests.map (fun r => .call r.1 r.2) ++ List.replicate stops .stopChanges⟩

/-- None of the calls has the lock before it begins. -/
theorem holds_before {cache : NppCache} {requests : List (AtRpcReq × String)} {stops : ℕ}
    {task : Task} (h : task ∈ (before cache requests stops).tasks) : holds task = false := by
  rcases List.mem_append.mp h with h | h
  · obtain ⟨r, -, rfl⟩ := List.mem_map.mp h
    rfl
  · obtain rfl := List.eq_of_mem_replicate h
    rfl

theorem kept_of_run (hJ : Kept J) {cache : NppCache} (hi : cache.Integrity) (hc : J cache)
    {requests : List (AtRpcReq × String)} {stops : ℕ} {es : List (ℕ × Wake)}
    {t : Locked.State Shared Task}
    (hr : m.tasks.machine.run (before cache requests stops) es = some t) :
    t.shared.cache.Integrity ∧ J t.shared.cache := by
  exact (m.tasks.owned_run (m.tasks_keep hJ) ⟨hi, hc⟩ (fun _ => holds_before) hr).data

/-- Whatever is asked, however the calls interleave and the hooks end, the
references of the store resolve and its ids stay unique. -/
theorem integrity_of_run {cache : NppCache} (hi : cache.Integrity)
    (requests : List (AtRpcReq × String)) (stops : ℕ) {es : List (ℕ × Wake)}
    {t : Locked.State Shared Task}
    (hr : m.tasks.machine.run (before cache requests stops) es = some t) :
    t.shared.cache.Integrity :=
  (m.kept_of_run (J := fun _ => True) ⟨fun _ _ _ _ _ _ _ _ => trivial, fun _ _ _ _ _ _ _ => trivial⟩
    hi trivial hr).1

/-- A policy service of `@npp` without hooks. -/
def plain : ManagerRpcCallbacks where
  currentAtSign := "@npp"
  binariesVersion := "7.0.0"
  toAtsign s := some (String.ofList (s.toList.map Char.toLower))
  doAuthCheck c r :=
    c.doAuthCheck (fun s => some (String.ofList (s.toList.map Char.toLower))) r
  prePut _ := false
  postPut _ := false
  preDelete _ := false

def putDaemonRequest (atSign : String) : AtRpcReq where
  reqId := 1
  payload := [("operation", .str "put"), ("target", .str "Daemon"),
    ("value", .obj [("atSign", .str atSign)])]

def wake (newId : String) : Wake := ⟨.ok (), newId, "2025-01-01T00:00:00.000"⟩

/-- Call `i` from its start to its end, when it is a put without hooks. -/
def putSteps (i : ℕ) (newId : String) : List (ℕ × Wake) :=
  [(i, wake newId), (i, wake newId), (i, wake newId)]

/-- The same, with hooks before its deletes. -/
def hooked : ManagerRpcCallbacks := { plain with preDelete := fun _ => true }

def putRequest (target : String) (value : List (String × Json)) : AtRpcReq × String :=
  (⟨1, [("operation", .str "put"), ("target", .str target), ("value", .obj value)]⟩, "@npp")

/-- A client that two groups have, each with a permission for one service, the delete of a group, and a put. -/
def crewRequests : List (AtRpcReq × String) :=
  [putRequest "Client" [("name", .str "Alice"), ("atSign", .str "@alice")],
    putRequest "ClientGroup" [("name", .str "crew")], putRequest "ClientGroup" [("name", .str "ops")],
    putRequest "ClientGroupMember" [("clientId", .str "1"), ("clientGroupId", .str "2")],
    putRequest "ClientGroupMember" [("clientId", .str "1"), ("clientGroupId", .str "3")],
    putRequest "Daemon" [("atSign", .str "@dev")],
    putRequest "Service" [("daemonId", .str "6"), ("deviceName", .str "d"), ("deviceGroupName", .str "g")],
    putRequest "ServiceACL" [("serviceId", .str "7"), ("clientGroupId", .str "2"), ("permitOpen", .str "*:22")],
    putRequest "ServiceACL" [("serviceId", .str "7"), ("clientGroupId", .str "3"), ("permitOpen", .str "*:443")],
    (⟨2, [("operation", .str "delete"), ("target", .str "ClientGroup"),
      ("value", .obj [("clientGroupId", .str "2")])]⟩, "@npp"),
    putRequest "Client" [("name", .str "Bob"), ("atSign", .str "@bob")]]

/-- The rules are put, and the delete has begun. -/
def crewSteps : List (ℕ × Wake) :=
  putSteps 0 "1" ++ putSteps 1 "2" ++ putSteps 2 "3" ++ putSteps 3 "4" ++ putSteps 4 "5" ++ putSteps 5 "6" ++
    putSteps 6 "7" ++ putSteps 7 "8" ++ putSteps 8 "9" ++ [(9, wake "")]

/-- From the lock on, the delete takes the group's member, and its hook fails at the group's permission; a put has begun
meanwhile. -/
def brokenDelete : List (ℕ × Wake) :=
  [(9, wake ""), (9, wake ""), (10, wake ""), (9, wake ""), (9, ⟨.error "disk full", "", ""⟩)]

/-- The delete has ended, and the put goes on. -/
def crewRun : List (ℕ × Wake) :=
  crewSteps ++ brokenDelete ++ [(9, wake ""), (10, wake "10"), (10, wake "10")]

/-- How many rules of each kind are left. -/
def counts (c : NppCache) : List ℕ :=
  [c.clients.length, c.clientGroups.length, c.clientGroupMembers.length, c.daemons.length, c.services.length,
    c.serviceACLs.length]

theorem run_crewRun : ∃ t, hooked.tasks.machine.run (before .empty crewRequests 1) crewRun = some t ∧
    counts t.shared.cache = [2, 2, 1, 1, 1, 2] := by
  have hcounts : (hooked.tasks.machine.run (before .empty crewRequests 1) crewRun).map
      (fun t => counts t.shared.cache) = some [2, 2, 1, 1, 1, 2] := by decide +kernel
  exact Option.map_eq_some_iff.mp hcounts

theorem integrity_of_run_put : ∃ t,
    hooked.tasks.machine.run (before .empty crewRequests 1) crewRun = some t ∧
      counts t.shared.cache = [2, 2, 1, 1, 1, 2] ∧ t.shared.cache.Integrity := by
  obtain ⟨t, hrun, hcounts⟩ := run_crewRun
  exact ⟨t, hrun, hcounts, hooked.integrity_of_run NppCache.integrity_empty crewRequests 1 hrun⟩

/-- In every store built by puts and deletes, a decision is exact for just the
requests whose daemon's atSign no two of its daemons spell. -/
theorem doAuthCheck_exact_of_run (requests : List (AtRpcReq × String)) (stops : ℕ)
    {es : List (ℕ × Wake)} {t : Locked.State Shared Task}
    (hr : m.tasks.machine.run (before .empty requests stops) es = some t)
    (r : NPAAuthCheckRequest) :
    NppCache.Exact m.toAtsign t.shared.cache r ↔
      NppCache.OneDaemon m.toAtsign t.shared.cache r.daemonAtsign := by
  obtain ⟨hi, hc⟩ := m.kept_of_run kept_distinct NppCache.integrity_empty NppCache.distinct_empty hr
  exact NppCache.doAuthCheck_exact hi hc r

theorem doAuthCheck_exact_of_run_put : ∃ t,
    hooked.tasks.machine.run (before .empty crewRequests 1) crewRun = some t ∧
      counts t.shared.cache = [2, 2, 1, 1, 1, 2] ∧
      (NppCache.Exact hooked.toAtsign t.shared.cache ⟨"@Dev", "d", "g", "@alice"⟩ ↔
        NppCache.OneDaemon hooked.toAtsign t.shared.cache "@Dev") := by
  obtain ⟨t, hrun, hcounts⟩ := run_crewRun
  exact ⟨t, hrun, hcounts, hooked.doAuthCheck_exact_of_run crewRequests 1 hrun ⟨"@Dev", "d", "g", "@alice"⟩⟩

/-- Two puts of one daemon's atSign, spelled differently, and every request
for that daemon throws. -/
theorem doAuthCheck_throws_two_spellings : ∃ t, plain.tasks.machine.run
    (before .empty [(putDaemonRequest "@dev", "@npp"), (putDaemonRequest "@DEV", "@npp")] 0)
      (putSteps 0 "1" ++ putSteps 1 "2") = some t ∧
    t.shared.cache.doAuthCheck plain.toAtsign ⟨"@dev", "d", "g", "@alice"⟩ =
      .error (.exception "Found more than one Daemon object with atSign @dev") ∧
    ¬NppCache.Exact plain.toAtsign t.shared.cache ⟨"@dev", "d", "g", "@alice"⟩ := by
  refine ⟨_, rfl, rfl, ?_⟩
  rintro ⟨a, ha, -⟩
  cases ha

end ManagerRpcCallbacks
end NoPorts.Npp
