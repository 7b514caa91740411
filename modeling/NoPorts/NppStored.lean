import NoPorts.NppPersistence

/-! The manager's requests with the rules kept in files: after every one of
them the directory holds the rules the cache does. -/
namespace NoPorts.Npp
open Lib

/-- The data all calls share, and the policy directory. -/
structure Stored where
  shared : Shared
  directory : Directory

namespace ManagerRpcCallbacks

/-- The rule whose pre-delete hook a delete is at. -/
def Deletion.nextEntry (d : Deletion) : PolicyEntry :=
  match d.links with
  | link :: _ => link
  | [] => d.entry

/-- What the hook a task awaits does to the directory when it does not throw. -/
def runHook (directory : Directory) : Task → Directory
  | .putting _ e => Npp.prePut directory e
  | .deleting _ d => Npp.preDelete directory (Deletion.nextEntry d)
  | _ => directory

section
variable (m : ManagerRpcCallbacks)

/-- The callbacks with `nppOperationHooksForFiles`, which sets no post-put hook. -/
def withFileHooks : ManagerRpcCallbacks :=
  { m with prePut := fun _ => true, postPut := fun _ => false, preDelete := fun _ => true }

/-- A hook has its whole effect by the time its await ends, or throws without any. -/
def resumeStored (s : Stored) (t : Task) (w : Wake) : Option (Stored × Task) :=
  (m.withFileHooks.resume s.shared t w).map fun r =>
    match w.outcome with
    | .ok () => (⟨r.1, runHook s.directory t⟩, r.2)
    | .error _ => (⟨r.1, s.directory⟩, r.2)

def storedTasks : Locked Stored Task Wake := ⟨waits, holds, m.resumeStored⟩

end

/-- A policy service that has loaded its rules from the files of `directory`,
as they were listed, with any calls to come. -/
def started (directory : Directory) (newId : String) (files : List (String × Json))
    (requests : List (AtRpcReq × String)) (stops : ℕ) : Locked.State Stored Task :=
  let s := before (nppCacheFromFiles newId (some files)).2 requests stops
  ⟨⟨s.shared, directory⟩, s.tasks⟩

/-- The directories that policy services leave, one after another: the first
finds no files, each later one loads those it finds, and each may end anywhere. -/
inductive Left : Directory → Prop
  | fresh : Left .empty
  | served {directory : Directory} (h : Left directory) (m : ManagerRpcCallbacks)
      {files : List (String × Json)} (hf : files.Perm directory.entries) (newId : String)
      (requests : List (AtRpcReq × String)) (stops : ℕ) {es : List (ℕ × Wake)}
      {t : Locked.State Stored Task}
      (hr : m.storedTasks.machine.run (started directory newId files requests stops) es = some t) :
      Left t.shared.directory

/-! What the task behind the lock relies on. -/

/-- The rules a delete is still to remove, in its order. -/
def Deletion.pending (d : Deletion) : List PolicyEntry := d.links ++ [d.entry]

/-- A put has passed its check, and a delete finds each of the rules it is
still to remove. -/
def Ready (s : Shared) : Task → Prop
  | .putting _ e => s.cache.checkPut e = .ok ()
  | .deleting _ d | .logging _ d =>
    (∀ x ∈ Deletion.pending d, x ∈ s.cache.entries) ∧ (Deletion.pending d).Nodup ∧
      d.entry.id = some d.id
  | _ => True

theorem Ready.of_cache {s s' : Shared} {t : Task} (h : Ready s t) (hc : s'.cache = s.cache) :
    Ready s' t := by
  cases t with
  | putting c e =>
    simp only [Ready, hc] at h ⊢
    exact h
  | deleting c d =>
    simp only [Ready, hc] at h ⊢
    exact h
  | logging c d =>
    simp only [Ready, hc] at h ⊢
    exact h
  | _ => trivial

variable (m : ManagerRpcCallbacks) {s : Shared} {c : Change}

@[simp] theorem conclude_cache (rule : List (String × Json)) (result : Except Thrown AtRpcResp) :
    (m.conclude s c rule result).1.cache = s.cache := by
  simp only [conclude, logChange, sendEvent_cache]

/-- What a step that leaves the rules alone goes on to. -/
def Idle (s : Shared) (r : Shared × Task) : Prop := r.1.cache = s.cache ∧ Ready r.1 r.2

theorem conclude_idle (rule : List (String × Json)) (result : Except Thrown AtRpcResp) :
    Idle s (m.conclude s c rule result) :=
  ⟨m.conclude_cache rule result, trivial⟩

theorem put_idle (newId : String) : Idle s (m.withFileHooks.put s c newId) := by
  unfold put
  repeat' split
  all_goals try exact conclude_idle _ _ _
  -- What is left is a rule read from the request.
  simp only [putEntry]
  split
  · exact conclude_idle _ _ _
  · split
    · exact conclude_idle _ _ _
    · rename_i hcheck
      exact ⟨rfl, hcheck⟩

theorem links_sublist (cache : NppCache) (k : Kind) (id : String) :
    (links cache k id).Sublist cache.entries := by
  have hmembers (p : ClientGroupMember → Bool) :
      ((cache.clientGroupMembers.filter p).map PolicyEntry.clientGroupMember).Sublist
        (cache.clientGroupMembers.map .clientGroupMember) := List.filter_sublist.map _
  have hacls (p : ServiceACL → Bool) :
      ((cache.serviceACLs.filter p).map PolicyEntry.serviceACL).Sublist
        (cache.daemons.map .daemon ++ (cache.services.map .service ++
          cache.serviceACLs.map .serviceACL)) :=
    ((List.filter_sublist.map _).trans (List.sublist_append_right _ _)).trans
      (List.sublist_append_right _ _)
  have htail {l : List PolicyEntry} (h : l.Sublist (cache.clientGroupMembers.map .clientGroupMember ++
      (cache.daemons.map .daemon ++ (cache.services.map .service ++
        cache.serviceACLs.map .serviceACL)))) : l.Sublist cache.entries :=
    (h.trans (List.sublist_append_right _ _)).trans (List.sublist_append_right _ _)
  cases k with
  | client => exact htail ((hmembers _).trans (List.sublist_append_left _ _))
  | clientGroup => exact htail ((hmembers _).append (hacls _))
  | service => exact htail ((hacls _).trans (List.sublist_append_right _ _))
  | _ => exact List.nil_sublist _

theorem not_mem_links {cache : NppCache} {e : PolicyEntry} {id : String} :
    e ∉ links cache e.kind id := by
  intro h
  have hkind := kind_of_mem_links h
  rcases hkind with hk | hk <;> rw [hk] at h <;> exact absurd h List.not_mem_nil

theorem delete_idle (hi : s.cache.Integrity) : Idle s (m.withFileHooks.delete s c) := by
  unfold delete
  repeat' split
  all_goals try exact conclude_idle _ _ _
  rename_i id entry hread _ _
  obtain ⟨i, -, hread⟩ := bind_eq_ok.mp hread
  obtain ⟨e, hget, heq⟩ := bind_eq_ok.mp hread
  obtain ⟨rfl, rfl⟩ := Prod.ext_iff.mp (Except.ok.inj heq)
  obtain ⟨he, hkey⟩ := NppCache.getById_ok hget
  obtain rfl : e.kind = _ := congrArg Prod.fst hkey
  have hsub := links_sublist s.cache e.kind i
  have hnodup : s.cache.entries.Nodup := List.Nodup.of_map _ (s.cache.integrity_iff.mp hi).unique
  refine ⟨rfl, fun x hx => ?_, ?_, congrArg Prod.snd hkey⟩
  · rcases List.mem_append.mp hx with hx | hx
    · exact hsub.subset hx
    · rwa [List.mem_singleton.mp hx]
  · apply List.nodup_append.mpr
    refine ⟨hsub.nodup hnodup, List.nodup_singleton e, fun x hx y hy hxy => ?_⟩
    rw [hxy, List.mem_singleton.mp hy] at hx
    exact not_mem_links hx

theorem change_idle (hi : s.cache.Integrity) (newId : String) :
    Idle s (m.withFileHooks.change s c newId) := by
  unfold change
  split
  · exact conclude_idle _ _ _
  · split
    · exact m.put_idle newId
    · exact m.delete_idle hi

/-! What the hooks and the cache do together. -/

/-- The directory holds the files of the cache's rules, and no others. -/
def Mirrored (s : Stored) : Prop := s.directory.Mirrors file s.shared.cache.entries

theorem store_stored {directory : Directory} (hd : s.cache.Distinct)
    (hk : directory.Mirrors file s.cache.entries) {e : PolicyEntry} (hid : e.id ≠ none)
    (hcheck : s.cache.checkPut e = .ok ()) (newId : String) :
    (Npp.prePut directory e).Mirrors file (m.withFileHooks.store s c e newId).1.cache.entries ∧
      Ready (m.withFileHooks.store s c e newId).1 (m.withFileHooks.store s c e newId).2 := by
  obtain ⟨cache, hput⟩ := NppCache.put_of_check hcheck newId
  have hstore : m.withFileHooks.store s c e newId =
      m.withFileHooks.concludePut { s with cache := cache } c e := by
    simp only [store, hput, withFileHooks, Bool.false_eq_true, if_false]
  have hp := (NppCache.put_ok hid hput).2.2
  rw [hstore]
  refine ⟨?_, trivial⟩
  rw [concludePut, conclude_cache]
  have hfresh : ∀ x ∈ s.cache.entries, (file x).1 ≠ (file e).1 := by
    intro x hx heq
    exact NppCache.checkPut_ok_fresh hid hcheck x hx (key_of_fileName (hd.given x hx) hid heq)
  exact (hk.set hfresh).perm hp.symm

/-- The rule a delete comes to is in the cache; its file and it go together. -/
theorem delete_stored {cache : NppCache} {directory : Directory} (hi : cache.Integrity)
    (hk : directory.Mirrors file cache.entries) {e : PolicyEntry} {id : String}
    (he : e ∈ cache.entries) (hid : e.id = some id) :
    ∃ cache', cache.delete e.kind id = .ok (true, cache') ∧
      cache.entries.Perm (e :: cache'.entries) ∧
        (Npp.preDelete directory e).Mirrors file cache'.entries := by
  obtain ⟨cache', hdel⟩ := NppCache.delete_of_mem he hid
  obtain ⟨x, hkey, hp⟩ := NppCache.delete_ok hdel
  have hx : x = e := by
    apply List.inj_on_of_nodup_map (cache.integrity_iff.mp hi).unique _ he
    · rw [hkey, ← hid]
      rfl
    · exact hp.mem_iff.mpr List.mem_cons_self
  rw [hx] at hp
  exact ⟨cache', hdel, hp, (hk.perm hp).erase⟩

theorem removeNext_stored {directory : Directory} (hi : s.cache.Integrity)
    (hdist : s.cache.Distinct) (hk : directory.Mirrors file s.cache.entries) {d : Deletion}
    (hd : Ready s (.deleting c d)) :
    (Npp.preDelete directory (Deletion.nextEntry d)).Mirrors file
        (m.removeNext s c d).1.cache.entries ∧
      Ready (m.removeNext s c d).1 (m.removeNext s c d).2 := by
  obtain ⟨hmem, hnodup, hdid⟩ := hd
  cases hl : d.links with
  | nil =>
    have he : d.entry ∈ s.cache.entries := hmem _ (by simp [Deletion.pending])
    obtain ⟨cache', hdel, -, hkept⟩ := delete_stored hi hk he hdid
    simp only [Deletion.nextEntry, removeNext, hl, hdel, concludeDelete, conclude_cache]
    exact ⟨hkept, trivial⟩
  | cons link rest =>
    have hpending : Deletion.pending d = link :: (rest ++ [d.entry]) := by
      rw [Deletion.pending, hl, List.cons_append]
    rw [hpending] at hmem hnodup
    obtain ⟨hnot, hnodup'⟩ := List.nodup_cons.mp hnodup
    have he : link ∈ s.cache.entries := hmem link List.mem_cons_self
    obtain ⟨id, hid⟩ := Option.ne_none_iff_exists'.mp (hdist.given link he)
    obtain ⟨cache', hdel, hp, hkept⟩ := delete_stored hi hk he hid
    simp only [Deletion.nextEntry, removeNext, hl, hid, hdel, logRemoved, sendEvent_cache]
    refine ⟨hkept, fun x hx => ?_, hnodup', hdid⟩
    simp only [sendEvent_cache]
    -- The rules after the link are others than it, so they are still there.
    rcases List.mem_cons.mp (hp.mem_iff.mp (hmem x (List.mem_cons_of_mem link hx))) with rfl | hx'
    · exact absurd hx hnot
    · exact hx'

/-! Every run. -/

theorem resumeStored_some {s s' : Stored} {t t' : Task} {w : Wake}
    (h : m.resumeStored s t w = some (s', t')) :
    m.withFileHooks.resume s.shared t w = some (s'.shared, t') ∧
      s'.directory = match w.outcome with
        | .ok () => runHook s.directory t
        | .error _ => s.directory := by
  obtain ⟨r, hr, hout⟩ := Option.map_eq_some_iff.mp h
  rcases hw : w.outcome with e | u <;> rw [hw] at hout <;> cases hout <;> exact ⟨hr, rfl⟩

/-- One step: at the lock or behind it, the files and the rules change together. -/
theorem stored_step {s s' : Stored} {t t' : Task} {w : Wake}
    (h : m.resumeStored s t w = some (s', t'))
    (hs : (s.shared.cache.Integrity ∧ s.shared.cache.Distinct) ∧ Mirrored s)
    (hin : waits t = true ∨ holds t = true ∧ Holder s.shared t ∧ Ready s.shared t) :
    Mirrored s' ∧ Ready s'.shared t' := by
  obtain ⟨hr, hdir⟩ := m.resumeStored_some h
  obtain ⟨⟨hi, hd⟩, hk⟩ := hs
  have hidle {r : Shared × Task} (hr' : Idle s.shared r) (hr : some r = some (s'.shared, t'))
      (hdir : s'.directory = s.directory) : Mirrored s' ∧ Ready s'.shared t' := by
    obtain rfl := Option.some.inj hr
    refine ⟨?_, hr'.2⟩
    rw [Mirrored, hdir, hr'.1]
    exact hk
  have hsame (hn : ∀ directory, runHook directory t = directory) : s'.directory = s.directory := by
    rw [hdir]
    split
    · exact hn _
    · rfl
  cases t with
  | acquiring c => exact hidle (m.change_idle hi w.newId) hr (hsame fun _ => rfl)
  | stored c e => exact hidle (conclude_idle _ _ _) hr (hsame fun _ => rfl)
  | reporting result =>
    exact hidle (r := (s.shared, .finished result)) ⟨rfl, trivial⟩ hr (hsame fun _ => rfl)
  | stopChanges =>
    exact hidle (r := ({ s.shared with stopping := true }, .stopped)) ⟨rfl, trivial⟩ hr
      (hsame fun _ => rfl)
  | logging c d =>
    have hready := (hin.resolve_left Bool.false_ne_true).2.2
    exact hidle (r := (s.shared, .deleting c d)) ⟨rfl, hready⟩ hr (hsame fun _ => rfl)
  | putting c e =>
    obtain ⟨-, hholder, hready⟩ := hin.resolve_left Bool.false_ne_true
    simp only [resume] at hr
    split at hr
    · rename_i e' herr
      rw [herr] at hdir
      exact hidle (conclude_idle _ _ _) hr hdir
    · rename_i hok
      rw [hok] at hdir
      have hstored := m.store_stored (c := c) hd hk hholder.1 hready w.newId
      rw [Option.some.inj hr] at hstored
      refine ⟨?_, hstored.2⟩
      rw [Mirrored, hdir]
      exact hstored.1
  | deleting c d =>
    obtain ⟨-, -, hready⟩ := hin.resolve_left Bool.false_ne_true
    have hnext : m.withFileHooks.deleteNext s.shared c d w.outcome = (s'.shared, t') :=
      Option.some.inj hr
    simp only [deleteNext, withFileHooks, if_true] at hnext
    split at hnext
    · rename_i e' herr
      rw [herr] at hdir
      exact hidle (conclude_idle _ _ _) (congrArg some hnext) hdir
    · rename_i hok
      rw [hok] at hdir
      have hstored := m.withFileHooks.removeNext_stored (c := c) hi hd hk hready
      simp only [withFileHooks] at hstored
      rw [hnext] at hstored
      refine ⟨?_, hstored.2⟩
      rw [Mirrored, hdir]
      exact hstored.1
  | _ => simp [waits, holds] at hin

theorem storedTasks_keep : m.storedTasks.Keeps
    (fun s => (s.shared.cache.Integrity ∧ s.shared.cache.Distinct) ∧ Mirrored s)
    (fun s t => Holder s.shared t ∧ Ready s.shared t) := by
  have hbase := m.withFileHooks.tasks_keep kept_distinct
  refine ⟨fun s t w s' t' h hw hh => ?_, fun s t w s' t' h hs hin => ?_⟩
  · obtain ⟨hr, hdir⟩ := m.resumeStored_some h
    obtain ⟨hcache, hh'⟩ := m.withFileHooks.resume_away hr hw hh
    have hdir' : s'.directory = s.directory := by
      cases t <;> cases hw <;> cases hh <;> rw [hdir] <;> split <;> rfl
    refine ⟨hh', fun hs => ?_, fun q hq => ⟨hq.1.of_cache hcache, hq.2.of_cache hcache⟩⟩
    rw [Mirrored, hdir', hcache]
    exact hs
  · obtain ⟨hr, -⟩ := m.resumeStored_some h
    have hin' : waits t = true ∨ holds t = true ∧ Holder s.shared t :=
      hin.imp_right fun hin => ⟨hin.1, hin.2.1⟩
    obtain ⟨hwhole, hholder⟩ := hbase.locked _ _ _ _ _ hr hs.1 hin'
    obtain ⟨hkept, hready⟩ := m.stored_step h hs hin
    exact ⟨⟨hwhole, hkept⟩, fun hh => ⟨hholder hh, hready⟩⟩

theorem mirrored_of_started {directory : Directory} {c : NppCache} (hi : c.Integrity)
    (hd : c.Distinct) (hk : directory.Mirrors file c.entries) {files : List (String × Json)}
    (hf : files.Perm directory.entries) {newId : String} {requests : List (AtRpcReq × String)}
    {stops : ℕ} {es : List (ℕ × Wake)} {t : Locked.State Stored Task}
    (hr : m.storedTasks.machine.run (started directory newId files requests stops) es = some t) :
    (t.shared.shared.cache.Integrity ∧ t.shared.shared.cache.Distinct) ∧ Mirrored t.shared := by
  obtain ⟨c', hload, hp⟩ := nppCacheFromFiles_of_whole hi hd (hf.trans hk) newId
  have hi' : c'.Integrity := c'.integrity_iff.mpr ((c.integrity_iff.mp hi).perm hp)
  have hstart : (started directory newId files requests stops).shared.shared.cache = c' := by
    rw [started, hload]
    rfl
  refine (m.storedTasks.owned_run m.storedTasks_keep ⟨?_, ?_⟩ ?_ hr).data
  · rw [hstart]
    exact ⟨hi', hd.perm hp⟩
  · rw [Mirrored, hstart]
    exact hk.perm hp.symm
  · intro task htask
    exact holds_before (show task ∈ (before c' requests stops).tasks from htask)

/-- A directory left behind holds the files of rules that are whole. -/
theorem Left.whole {directory : Directory} (h : Left directory) :
    ∃ c : NppCache, (c.Integrity ∧ c.Distinct) ∧ directory.Mirrors file c.entries := by
  induction h with
  | fresh => exact ⟨.empty, ⟨NppCache.integrity_empty, NppCache.distinct_empty⟩, Table.mirrors_empty⟩
  | served h m hf newId requests stops hr ih =>
    obtain ⟨c, ⟨hi, hd⟩, hk⟩ := ih
    exact ⟨_, m.mirrored_of_started hi hd hk hf hr⟩

/-- At every moment of a service's life, so after each put or delete however it
ended, the directory holds kind by kind the rules of the cache; and its files,
listed in any order, load to those rules with none removed. -/
theorem stored_rules_of_run {directory : Directory} (hl : Left directory)
    {files : List (String × Json)} (hf : files.Perm directory.entries) (newId : String)
    (requests : List (AtRpcReq × String)) (stops : ℕ) {es : List (ℕ × Wake)}
    {t : Locked.State Stored Task}
    (hr : m.storedTasks.machine.run (started directory newId files requests stops) es = some t) :
    t.shared.directory.Mirrors file t.shared.shared.cache.entries ∧
      (∀ kind, (storedRules t.shared.directory kind).Perm (t.shared.shared.cache.rules kind)) ∧
        ∀ (newId' : String) (files' : List (String × Json)),
          files'.Perm t.shared.directory.entries →
            ∃ c', nppCacheFromFiles newId' (some files') = ([], c') ∧
              ∀ kind, (c'.rules kind).Perm (t.shared.shared.cache.rules kind) := by
  obtain ⟨c, ⟨hi, hd⟩, hk⟩ := hl.whole
  obtain ⟨⟨hi', hd'⟩, hk'⟩ := m.mirrored_of_started hi hd hk hf hr
  refine ⟨hk', storedRules_of_mirrors hd' hk', fun newId' files' hf' => ?_⟩
  obtain ⟨c', hload, hp⟩ := nppCacheFromFiles_of_whole hi' hd' (hf'.trans hk') newId'
  refine ⟨c', hload, fun kind => ?_⟩
  rw [← NppCache.filter_kind_entries, ← NppCache.filter_kind_entries]
  exact hp.filter _

/-- Call `i` from its start to its end, when it is a put whose hook ends so. -/
def storedPutSteps (i : ℕ) (newId : String) (hook : Except String Unit) : List (ℕ × Wake) :=
  [(i, wake newId), (i, wake newId), (i, ⟨hook, newId, ""⟩), (i, wake newId)]

/-- A put whose hook throws, then the same put with a hook that does not. -/
theorem stored_rules_of_run_put : ∃ t,
    plain.storedTasks.machine.run
      (started .empty "" [] [(putDaemonRequest "@dev", "@npp"), (putDaemonRequest "@dev", "@npp")] 0)
      (storedPutSteps 0 "1" (.error "disk full") ++ storedPutSteps 1 "2" (.ok ())) = some t ∧
    t.shared.directory.entries =
      [("2_daemon.json", .obj [("id", .str "2"), ("atSign", .str "@dev")])] ∧
    ∃ c', nppCacheFromFiles "" (some t.shared.directory.entries) = ([], c') ∧
      ∀ kind, (c'.rules kind).Perm (t.shared.shared.cache.rules kind) := by
  refine ⟨_, rfl, rfl, ?_⟩
  apply (plain.stored_rules_of_run .fresh (List.Perm.refl []) ""
    [(putDaemonRequest "@dev", "@npp"), (putDaemonRequest "@dev", "@npp")] 0
    (rfl : plain.storedTasks.machine.run _
      (storedPutSteps 0 "1" (.error "disk full") ++ storedPutSteps 1 "2" (.ok ())) = _)).2.2
  exact List.Perm.refl _

end ManagerRpcCallbacks
end NoPorts.Npp
