import NoPorts.NppModels
import NoPorts.Lib.RefStore

/-! The policy store in memory. Each `Set` of the source holds objects compared
by identity, in insertion order; here it is the list of their values. -/
namespace NoPorts.Npp
open Lib

structure NppCache where
  clients : List Client
  clientGroups : List ClientGroup
  clientGroupMembers : List ClientGroupMember
  daemons : List Daemon
  services : List Service
  serviceACLs : List ServiceACL
  deriving DecidableEq, Repr

namespace NppCache

def empty : NppCache := ⟨[], [], [], [], [], []⟩

/-- Every rule the cache holds. -/
def entries (c : NppCache) : List PolicyEntry :=
  c.clients.map .client ++ (c.clientGroups.map .clientGroup ++
    (c.clientGroupMembers.map .clientGroupMember ++ (c.daemons.map .daemon ++
      (c.services.map .service ++ c.serviceACLs.map .serviceACL))))

/-- The rules of one kind. -/
def rules (c : NppCache) : Kind → List PolicyEntry
  | .client => c.clients.map .client
  | .clientGroup => c.clientGroups.map .clientGroup
  | .clientGroupMember => c.clientGroupMembers.map .clientGroupMember
  | .daemon => c.daemons.map .daemon
  | .service => c.services.map .service
  | .serviceACL => c.serviceACLs.map .serviceACL

/-! Lookups by id and by link. -/

/-- `rules.where((r) => r.id == id).first` -/
def firstById {α : Type} (idOf : α → Option String) (rules : List α) (id : String) :
    Except Thrown α :=
  match rules.find? (fun r => idOf r == some id) with
  | some r => .ok r
  | none => .error .noElement

def getClientById (c : NppCache) (clientId : String) : Except Thrown Client :=
  firstById (·.id) c.clients clientId

def getClientGroupById (c : NppCache) (clientGroupId : String) : Except Thrown ClientGroup :=
  firstById (·.id) c.clientGroups clientGroupId

def getClientGroupMemberById (c : NppCache) (clientGroupMemberId : String) :
    Except Thrown ClientGroupMember :=
  firstById (·.id) c.clientGroupMembers clientGroupMemberId

def getDaemonById (c : NppCache) (daemonId : String) : Except Thrown Daemon :=
  firstById (·.id) c.daemons daemonId

def getServiceById (c : NppCache) (serviceId : String) : Except Thrown Service :=
  firstById (·.id) c.services serviceId

def getServiceACLById (c : NppCache) (serviceACLId : String) : Except Thrown ServiceACL :=
  firstById (·.id) c.serviceACLs serviceACLId

def getById (c : NppCache) (kind : Kind) (id : String) : Except Thrown PolicyEntry :=
  match kind with
  | .client => .client <$> c.getClientById id
  | .clientGroup => .clientGroup <$> c.getClientGroupById id
  | .clientGroupMember => .clientGroupMember <$> c.getClientGroupMemberById id
  | .daemon => .daemon <$> c.getDaemonById id
  | .service => .service <$> c.getServiceById id
  | .serviceACL => .serviceACL <$> c.getServiceACLById id

def getClientGroupMembersByClientId (c : NppCache) (clientId : String) :
    List ClientGroupMember :=
  c.clientGroupMembers.filter (·.clientId == clientId)

def getClientGroupMembersByClientGroupId (c : NppCache) (clientGroupId : String) :
    List ClientGroupMember :=
  c.clientGroupMembers.filter (·.clientGroupId == clientGroupId)

def getServicesByDaemonId (c : NppCache) (daemonId : String) : List Service :=
  c.services.filter (·.daemonId == daemonId)

def getServiceACLsByServiceID (c : NppCache) (serviceId : String) : List ServiceACL :=
  c.serviceACLs.filter (·.serviceId == serviceId)

def getServiceACLsByClientGroupId (c : NppCache) (clientGroupId : String) : List ServiceACL :=
  c.serviceACLs.filter (·.clientGroupId == clientGroupId)

/-! Puts. -/

def checkPutClient (c : NppCache) (client : Client) : Except Thrown Unit :=
  forM c.clients fun x =>
    if x.atSign = client.atSign then
      throw (.exception ("Attempted to add a new client with atSign " ++ client.atSign ++
        " when that atSign already exists in the policy cache. It's very important to " ++
        "maintain 1 atSign = 1 client property of policy cache"))
    else if client.id ≠ none ∧ x.id = client.id then
      throw (.exception ("Attempted to add a new client with id " ++ client.id.getD "null" ++
        " when that id already exists in the policy cache."))
    else .ok ()

def checkPutClientGroup (c : NppCache) (clientGroup : ClientGroup) : Except Thrown Unit :=
  forM c.clientGroups fun cg =>
    if cg.name = clientGroup.name then
      throw (.exception ("Found duplicate client group name " ++ clientGroup.name))
    else if cg.id ≠ none ∧ cg.id = clientGroup.id then
      throw (.exception ("Found duplicate client group id " ++ clientGroup.id.getD "null"))
    else .ok ()

def checkPutClientGroupMember (c : NppCache) (clientGroupMember : ClientGroupMember) :
    Except Thrown Unit :=
  forM c.clientGroupMembers fun cgm =>
    if cgm.clientId = clientGroupMember.clientId ∧
        cgm.clientGroupId = clientGroupMember.clientGroupId then
      throw (.exception ("Found duplicate value for " ++ clientGroupMember.clientId ++ " and " ++
        clientGroupMember.clientGroupId))
    else if cgm.id ≠ none ∧ cgm.id = clientGroupMember.id then
      throw (.exception ("Found duplicate client group member id " ++
        clientGroupMember.id.getD "null"))
    else .ok ()

def checkPutDaemon (c : NppCache) (daemon : Daemon) : Except Thrown Unit :=
  forM c.daemons fun d =>
    if d.atSign = daemon.atSign then
      throw (.exception ("Found duplicate daemon atSign " ++ daemon.atSign))
    else if daemon.id ≠ none ∧ d.id = daemon.id then
      throw (.exception ("Found duplicate daemon id " ++ daemon.id.getD "null"))
    else .ok ()

def checkPutService (c : NppCache) (service : Service) : Except Thrown Unit :=
  forM c.services fun s =>
    if s.daemonId = service.daemonId ∧ s.deviceName = service.deviceName ∧
        s.deviceGroupName = service.deviceGroupName then
      throw (.exception ("Found duplicate service daemonId: " ++ service.daemonId ++
        " deviceName: " ++ service.deviceName ++ " deviceGroupName: " ++
        service.deviceGroupName))
    else if service.id ≠ none ∧ s.id = service.id then
      throw (.exception ("Found duplicate service id " ++ service.id.getD "null"))
    else .ok ()

def checkPutServiceACL (c : NppCache) (serviceACL : ServiceACL) : Except Thrown Unit :=
  forM c.serviceACLs fun sa =>
    if sa.clientGroupId = serviceACL.clientGroupId ∧ sa.serviceId = serviceACL.serviceId ∧
        sa.permitOpen = serviceACL.permitOpen then
      throw (.exception ("Found duplicate service ACL for clientGroupId: " ++
        serviceACL.clientGroupId ++ " serviceId: " ++ serviceACL.serviceId ++
        " permitOpen: " ++ serviceACL.permitOpen))
    else if sa.id = none then
      throw (.exception ("Encountered ServiceACL with null id: Instance of 'ServiceACL', " ++
        "which should never happen"))
    else if sa.id = serviceACL.id then
      throw (.exception ("Found duplicate service ACL id " ++ serviceACL.id.getD "null"))
    else .ok ()

/-- `id ??= newPolicyEntryId()` -/
def orNewId (id : Option String) (newId : String) : Option String := some (id.getD newId)

/-! An object built for its put is in no set yet, so `Set.add` returns true. -/

def putClient (c : NppCache) (newId : String) (client : Client) :
    Except Thrown (Bool × NppCache) := do
  c.checkPutClient client
  return (true, { c with clients := c.clients ++ [{ client with id := orNewId client.id newId }] })

def putClientGroup (c : NppCache) (newId : String) (g : ClientGroup) :
    Except Thrown (Bool × NppCache) := do
  c.checkPutClientGroup g
  return (true, { c with clientGroups := c.clientGroups ++ [{ g with id := orNewId g.id newId }] })

def putClientGroupMember (c : NppCache) (newId : String) (m : ClientGroupMember) :
    Except Thrown (Bool × NppCache) := do
  c.checkPutClientGroupMember m
  return (true, { c with
    clientGroupMembers := c.clientGroupMembers ++ [{ m with id := orNewId m.id newId }] })

def putDaemon (c : NppCache) (newId : String) (d : Daemon) :
    Except Thrown (Bool × NppCache) := do
  c.checkPutDaemon d
  return (true, { c with daemons := c.daemons ++ [{ d with id := orNewId d.id newId }] })

def putService (c : NppCache) (newId : String) (s : Service) :
    Except Thrown (Bool × NppCache) := do
  c.checkPutService s
  return (true, { c with services := c.services ++ [{ s with id := orNewId s.id newId }] })

def putServiceACL (c : NppCache) (newId : String) (a : ServiceACL) :
    Except Thrown (Bool × NppCache) := do
  c.checkPutServiceACL a
  return (true, { c with serviceACLs := c.serviceACLs ++ [{ a with id := orNewId a.id newId }] })

def checkPut (c : NppCache) : PolicyEntry → Except Thrown Unit
  | .client x => c.checkPutClient x
  | .clientGroup x => c.checkPutClientGroup x
  | .clientGroupMember x => c.checkPutClientGroupMember x
  | .daemon x => c.checkPutDaemon x
  | .service x => c.checkPutService x
  | .serviceACL x => c.checkPutServiceACL x

def put (c : NppCache) (newId : String) : PolicyEntry → Except Thrown (Bool × NppCache)
  | .client x => c.putClient newId x
  | .clientGroup x => c.putClientGroup newId x
  | .clientGroupMember x => c.putClientGroupMember newId x
  | .daemon x => c.putDaemon newId x
  | .service x => c.putService newId x
  | .serviceACL x => c.putServiceACL newId x

/-- The closure `need` of `missingReferences`. -/
def need {α : Type} (rules : List α) (idOf : α → Option String) (kind id : String) :
    List String :=
  if ∃ rule ∈ rules, idOf rule = some id then [] else [kind ++ " with id " ++ id]

/-- What `entry` names that the cache does not hold, as `<kind> with id <id>`. -/
def missingReferences (c : NppCache) (entry : PolicyEntry) : List String :=
  match entry with
  | .clientGroupMember m =>
    need c.clients (·.id) "Client" m.clientId ++
      need c.clientGroups (·.id) "ClientGroup" m.clientGroupId
  | .service s => need c.daemons (·.id) "Daemon" s.daemonId
  | .serviceACL a =>
    need c.services (·.id) "Service" a.serviceId ++
      need c.clientGroups (·.id) "ClientGroup" a.clientGroupId
  | _ => []

/-- The rules of one kind that name a missing one, with what each misses. -/
def namingMissing (c : NppCache) (kind : Kind) : List (String × PolicyEntry × List String) :=
  ((c.rules kind).filter fun rule => c.missingReferences rule ≠ []).map fun rule =>
    (kind.target, rule, c.missingReferences rule)

/-- The rules removed, and the cache without them. A rule of these three kinds
never names one of its own kind, so each kind goes at once. -/
def removeRulesNamingMissing (c : NppCache) :
    List (String × PolicyEntry × List String) × NppCache :=
  let c₁ := { c with services :=
    c.services.filter fun s => c.missingReferences (.service s) = [] }
  let c₂ := { c₁ with serviceACLs :=
    c₁.serviceACLs.filter fun a => c₁.missingReferences (.serviceACL a) = [] }
  let c₃ := { c₂ with clientGroupMembers :=
    c₂.clientGroupMembers.filter fun m => c₂.missingReferences (.clientGroupMember m) = [] }
  (c.namingMissing .service ++
    (c₁.namingMissing .serviceACL ++ c₂.namingMissing .clientGroupMember), c₃)

/-! Deletes. The object removed is the first with the id, which the lookup
before it has found. -/

def removeById {α : Type} (idOf : α → Option String) (rules : List α) (id : String) :
    Except Thrown (List α) := do
  let _ ← firstById idOf rules id
  return rules.eraseP (fun r => idOf r == some id)

def deleteClient (c : NppCache) (clientId : String) : Except Thrown (Bool × NppCache) := do
  return (true, { c with clients := ← removeById (·.id) c.clients clientId })

def deleteClientGroup (c : NppCache) (clientGroupId : String) :
    Except Thrown (Bool × NppCache) := do
  return (true, { c with clientGroups := ← removeById (·.id) c.clientGroups clientGroupId })

def deleteClientGroupMember (c : NppCache) (clientGroupMemberId : String) :
    Except Thrown (Bool × NppCache) := do
  return (true, { c with
    clientGroupMembers := ← removeById (·.id) c.clientGroupMembers clientGroupMemberId })

def deleteDaemon (c : NppCache) (daemonId : String) : Except Thrown (Bool × NppCache) := do
  return (true, { c with daemons := ← removeById (·.id) c.daemons daemonId })

def deleteService (c : NppCache) (serviceId : String) : Except Thrown (Bool × NppCache) := do
  return (true, { c with services := ← removeById (·.id) c.services serviceId })

def deleteServiceACL (c : NppCache) (serviceACLId : String) : Except Thrown (Bool × NppCache) := do
  return (true, { c with serviceACLs := ← removeById (·.id) c.serviceACLs serviceACLId })

def delete (c : NppCache) : Kind → String → Except Thrown (Bool × NppCache)
  | .client, id => c.deleteClient id
  | .clientGroup, id => c.deleteClientGroup id
  | .clientGroupMember, id => c.deleteClientGroupMember id
  | .daemon, id => c.deleteDaemon id
  | .service, id => c.deleteService id
  | .serviceACL, id => c.deleteServiceACL id

/-! What the operations do to the rules held. -/

@[simp] theorem mem_entries_client {c : NppCache} {x : Client} :
    PolicyEntry.client x ∈ c.entries ↔ x ∈ c.clients := by simp [entries]

@[simp] theorem mem_entries_clientGroup {c : NppCache} {x : ClientGroup} :
    PolicyEntry.clientGroup x ∈ c.entries ↔ x ∈ c.clientGroups := by simp [entries]

@[simp] theorem mem_entries_clientGroupMember {c : NppCache} {x : ClientGroupMember} :
    PolicyEntry.clientGroupMember x ∈ c.entries ↔ x ∈ c.clientGroupMembers := by simp [entries]

@[simp] theorem mem_entries_daemon {c : NppCache} {x : Daemon} :
    PolicyEntry.daemon x ∈ c.entries ↔ x ∈ c.daemons := by simp [entries]

@[simp] theorem mem_entries_service {c : NppCache} {x : Service} :
    PolicyEntry.service x ∈ c.entries ↔ x ∈ c.services := by simp [entries]

@[simp] theorem mem_entries_serviceACL {c : NppCache} {x : ServiceACL} :
    PolicyEntry.serviceACL x ∈ c.entries ↔ x ∈ c.serviceACLs := by simp [entries]

theorem filter_kind_entries (c : NppCache) (k : Kind) :
    c.entries.filter (fun e => decide (e.kind = k)) = c.rules k := by
  cases k <;>
    simp [entries, rules, List.filter_append, List.filter_map, Function.comp_def, PolicyEntry.kind]

theorem mem_rules {c : NppCache} {k : Kind} {e : PolicyEntry} :
    e ∈ c.rules k ↔ e ∈ c.entries ∧ e.kind = k := by
  rw [← filter_kind_entries, List.mem_filter, decide_eq_true_iff]

/-- A rule of kind `client` held under `id`, and so for each kind. -/
theorem exists_entry_iff (c : NppCache) (k : Kind) (id : Option String) :
    (∃ e ∈ c.entries, e.key = (k, id)) ↔
      match k with
      | .client => ∃ x ∈ c.clients, x.id = id
      | .clientGroup => ∃ x ∈ c.clientGroups, x.id = id
      | .clientGroupMember => ∃ x ∈ c.clientGroupMembers, x.id = id
      | .daemon => ∃ x ∈ c.daemons, x.id = id
      | .service => ∃ x ∈ c.services, x.id = id
      | .serviceACL => ∃ x ∈ c.serviceACLs, x.id = id := by
  cases k <;> simp [entries, PolicyEntry.key, PolicyEntry.kind, PolicyEntry.id, or_and_right,
    exists_or]

theorem checkPutClient_ok {c : NppCache} {x : Client} : c.checkPutClient x = .ok () ↔
    ∀ y ∈ c.clients, y.atSign ≠ x.atSign ∧ ¬(x.id ≠ none ∧ y.id = x.id) := by
  simp only [checkPutClient, forM_eq_ok, throwIf_ok, and_true]

theorem checkPutClientGroup_ok {c : NppCache} {x : ClientGroup} :
    c.checkPutClientGroup x = .ok () ↔
      ∀ y ∈ c.clientGroups, y.name ≠ x.name ∧ ¬(y.id ≠ none ∧ y.id = x.id) := by
  simp only [checkPutClientGroup, forM_eq_ok, throwIf_ok, and_true]

theorem checkPutClientGroupMember_ok {c : NppCache} {x : ClientGroupMember} :
    c.checkPutClientGroupMember x = .ok () ↔
      ∀ y ∈ c.clientGroupMembers,
        ¬(y.clientId = x.clientId ∧ y.clientGroupId = x.clientGroupId) ∧
          ¬(y.id ≠ none ∧ y.id = x.id) := by
  simp only [checkPutClientGroupMember, forM_eq_ok, throwIf_ok, and_true]

theorem checkPutDaemon_ok {c : NppCache} {x : Daemon} : c.checkPutDaemon x = .ok () ↔
    ∀ y ∈ c.daemons, y.atSign ≠ x.atSign ∧ ¬(x.id ≠ none ∧ y.id = x.id) := by
  simp only [checkPutDaemon, forM_eq_ok, throwIf_ok, and_true]

theorem checkPutService_ok {c : NppCache} {x : Service} : c.checkPutService x = .ok () ↔
    ∀ y ∈ c.services, ¬(y.daemonId = x.daemonId ∧ y.deviceName = x.deviceName ∧
      y.deviceGroupName = x.deviceGroupName) ∧ ¬(x.id ≠ none ∧ y.id = x.id) := by
  simp only [checkPutService, forM_eq_ok, throwIf_ok, and_true]

theorem checkPutServiceACL_ok {c : NppCache} {x : ServiceACL} :
    c.checkPutServiceACL x = .ok () ↔
      ∀ y ∈ c.serviceACLs, ¬(y.clientGroupId = x.clientGroupId ∧ y.serviceId = x.serviceId ∧
        y.permitOpen = x.permitOpen) ∧ y.id ≠ none ∧ y.id ≠ x.id := by
  simp only [checkPutServiceACL, forM_eq_ok, throwIf_ok, and_true]

/-- A check that passes has found the id unused among the rules of its kind. -/
theorem checkPut_ok_fresh {c : NppCache} {e : PolicyEntry} (hid : e.id ≠ none)
    (h : c.checkPut e = .ok ()) : ∀ t ∈ c.entries, t.key ≠ e.key := by
  intro t ht hk
  obtain ⟨hkind, hkey⟩ := Prod.ext_iff.mp hk
  cases e <;> cases t <;> try cases hkind
  case client.client x y =>
    exact (checkPutClient_ok.mp h y (mem_entries_client.mp ht)).2 ⟨hid, hkey⟩
  case clientGroup.clientGroup x y =>
    exact (checkPutClientGroup_ok.mp h y (mem_entries_clientGroup.mp ht)).2
      ⟨fun hn => hid (hkey.symm.trans hn), hkey⟩
  case clientGroupMember.clientGroupMember x y =>
    exact (checkPutClientGroupMember_ok.mp h y (mem_entries_clientGroupMember.mp ht)).2
      ⟨fun hn => hid (hkey.symm.trans hn), hkey⟩
  case daemon.daemon x y =>
    exact (checkPutDaemon_ok.mp h y (mem_entries_daemon.mp ht)).2 ⟨hid, hkey⟩
  case service.service x y =>
    exact (checkPutService_ok.mp h y (mem_entries_service.mp ht)).2 ⟨hid, hkey⟩
  case serviceACL.serviceACL x y =>
    exact (checkPutServiceACL_ok.mp h y (mem_entries_serviceACL.mp ht)).2.2 hkey

/-- It has also found what is distinctive about the entry unused. -/
theorem checkPut_ok_distinctive {c : NppCache} {e : PolicyEntry} (h : c.checkPut e = .ok ()) :
    ∀ t ∈ c.entries, t.distinctive ≠ e.distinctive := by
  intro t ht hd
  cases e <;> cases t <;>
    simp only [PolicyEntry.distinctive, Prod.mk.injEq, List.cons.injEq, and_true, true_and,
      reduceCtorEq, false_and] at hd
  case client.client x y =>
    exact (checkPutClient_ok.mp h y (mem_entries_client.mp ht)).1 hd
  case clientGroup.clientGroup x y =>
    exact (checkPutClientGroup_ok.mp h y (mem_entries_clientGroup.mp ht)).1 hd
  case clientGroupMember.clientGroupMember x y =>
    exact (checkPutClientGroupMember_ok.mp h y (mem_entries_clientGroupMember.mp ht)).1 hd
  case daemon.daemon x y =>
    exact (checkPutDaemon_ok.mp h y (mem_entries_daemon.mp ht)).1 hd
  case service.service x y =>
    exact (checkPutService_ok.mp h y (mem_entries_service.mp ht)).1 hd
  case serviceACL.serviceACL x y =>
    exact (checkPutServiceACL_ok.mp h y (mem_entries_serviceACL.mp ht)).1 hd

/-- A rule whose id and distinctive part are unused passes the check. -/
theorem checkPut_of_fresh {c : NppCache} {e : PolicyEntry}
    (hgiven : ∀ t ∈ c.entries, t.id ≠ none) (hkey : ∀ t ∈ c.entries, t.key ≠ e.key)
    (hdist : ∀ t ∈ c.entries, t.distinctive ≠ e.distinctive) : c.checkPut e = .ok () := by
  cases e with
  | client x =>
    apply checkPutClient_ok.mpr
    intro y hy
    have ht := mem_entries_client.mpr hy
    exact ⟨fun h => hdist _ ht (by rw [PolicyEntry.distinctive, h]; rfl),
      fun h => hkey _ ht (Prod.ext rfl h.2)⟩
  | clientGroup x =>
    apply checkPutClientGroup_ok.mpr
    intro y hy
    have ht := mem_entries_clientGroup.mpr hy
    exact ⟨fun h => hdist _ ht (by rw [PolicyEntry.distinctive, h]; rfl),
      fun h => hkey _ ht (Prod.ext rfl h.2)⟩
  | clientGroupMember x =>
    apply checkPutClientGroupMember_ok.mpr
    intro y hy
    have ht := mem_entries_clientGroupMember.mpr hy
    exact ⟨fun h => hdist _ ht (by rw [PolicyEntry.distinctive, h.1, h.2]; rfl),
      fun h => hkey _ ht (Prod.ext rfl h.2)⟩
  | daemon x =>
    apply checkPutDaemon_ok.mpr
    intro y hy
    have ht := mem_entries_daemon.mpr hy
    exact ⟨fun h => hdist _ ht (by rw [PolicyEntry.distinctive, h]; rfl),
      fun h => hkey _ ht (Prod.ext rfl h.2)⟩
  | service x =>
    apply checkPutService_ok.mpr
    intro y hy
    have ht := mem_entries_service.mpr hy
    exact ⟨fun h => hdist _ ht (by rw [PolicyEntry.distinctive, h.1, h.2.1, h.2.2]; rfl),
      fun h => hkey _ ht (Prod.ext rfl h.2)⟩
  | serviceACL x =>
    apply checkPutServiceACL_ok.mpr
    intro y hy
    have ht := mem_entries_serviceACL.mpr hy
    exact ⟨fun h => hdist _ ht (by rw [PolicyEntry.distinctive, h.1, h.2.1, h.2.2]; rfl),
      hgiven _ ht, fun h => hkey _ ht (Prod.ext rfl h)⟩

/-- A put that passes its check returns. -/
theorem put_of_check {c : NppCache} {e : PolicyEntry} (h : c.checkPut e = .ok ())
    (newId : String) : ∃ c', c.put newId e = .ok (true, c') := by
  cases e
  all_goals exact ⟨_, bind_eq_ok.mpr ⟨(), h, rfl⟩⟩

theorem orNewId_eq {id : Option String} (h : id ≠ none) (newId : String) :
    orNewId id newId = id := by
  cases id with
  | none => exact absurd rfl h
  | some i => rfl

/-- A put that returns has passed its check and added its one rule. -/
theorem put_ok {c c' : NppCache} {e : PolicyEntry} {newId : String} {b : Bool}
    (hid : e.id ≠ none) (h : c.put newId e = .ok (b, c')) :
    b = true ∧ c.checkPut e = .ok () ∧ c'.entries.Perm (e :: c.entries) := by
  cases e
  all_goals
    rename_i x
    obtain ⟨⟨⟩, hc, hp⟩ := bind_eq_ok.mp h
    obtain ⟨rfl, rfl⟩ := Prod.ext_iff.mp (Except.ok.inj hp)
    refine ⟨rfl, hc, List.perm_iff_count.mpr fun a => ?_⟩
    cases x
    simp only [PolicyEntry.id] at hid
    simp only [orNewId_eq hid, entries, List.map_append, List.map_cons, List.map_nil,
      List.count_append, List.count_cons, List.count_nil]
    omega

theorem firstById_ok {α : Type} {idOf : α → Option String} {rules : List α} {id : String} {x : α}
    (h : firstById idOf rules id = .ok x) : x ∈ rules ∧ idOf x = some id := by
  unfold firstById at h
  split at h
  · rename_i r hr
    obtain rfl := Except.ok.inj h
    exact ⟨List.mem_of_find?_eq_some hr, by simpa using List.find?_some hr⟩
  · cases h

theorem removeById_ok {α : Type} {idOf : α → Option String} {rules rest : List α} {id : String}
    (h : removeById idOf rules id = .ok rest) :
    ∃ pre x post, idOf x = some id ∧ rules = pre ++ x :: post ∧ rest = pre ++ post := by
  obtain ⟨x, hx, hr⟩ := bind_eq_ok.mp h
  obtain rfl := Except.ok.inj hr
  obtain ⟨hmem, hid⟩ := firstById_ok hx
  obtain ⟨a, pre, post, -, ha, hsplit, hrest⟩ :=
    List.exists_of_eraseP (p := fun r => idOf r == some id) hmem (by simpa using hid)
  exact ⟨pre, a, post, by simpa using ha, hsplit, hrest⟩

/-- A delete that returns has removed one rule of the kind, with the id. -/
theorem delete_ok {c c' : NppCache} {k : Kind} {id : String} {b : Bool}
    (h : c.delete k id = .ok (b, c')) :
    ∃ e : PolicyEntry, e.key = (k, some id) ∧ c.entries.Perm (e :: c'.entries) := by
  cases k
  all_goals
    obtain ⟨rest, hrem, hp⟩ := bind_eq_ok.mp h
    obtain ⟨rfl, rfl⟩ := Prod.ext_iff.mp (Except.ok.inj hp)
    obtain ⟨pre, x, post, hid, hrules, rfl⟩ := removeById_ok hrem
  case' client => refine ⟨.client x, Prod.ext rfl hid, ?_⟩
  case' clientGroup => refine ⟨.clientGroup x, Prod.ext rfl hid, ?_⟩
  case' clientGroupMember => refine ⟨.clientGroupMember x, Prod.ext rfl hid, ?_⟩
  case' daemon => refine ⟨.daemon x, Prod.ext rfl hid, ?_⟩
  case' service => refine ⟨.service x, Prod.ext rfl hid, ?_⟩
  case' serviceACL => refine ⟨.serviceACL x, Prod.ext rfl hid, ?_⟩
  all_goals
    refine List.perm_iff_count.mpr fun a => ?_
    simp only [hrules, entries, List.map_append, List.map_cons, List.count_append,
      List.count_cons]
    omega

theorem firstById_of_mem {α : Type} {idOf : α → Option String} {rules : List α} {id : String}
    {x : α} (hx : x ∈ rules) (hid : idOf x = some id) : ∃ y, firstById idOf rules id = .ok y := by
  have hsome : (rules.find? fun r => idOf r == some id).isSome = true :=
    List.find?_isSome.mpr ⟨x, hx, by simpa using hid⟩
  obtain ⟨y, hy⟩ := Option.isSome_iff_exists.mp hsome
  exact ⟨y, by rw [firstById, hy]⟩

/-- A rule held can be deleted. -/
theorem delete_of_mem {c : NppCache} {e : PolicyEntry} {id : String} (he : e ∈ c.entries)
    (hid : e.id = some id) : ∃ c', c.delete e.kind id = .ok (true, c') := by
  have hremove {α : Type} (idOf : α → Option String) {rules : List α} {x : α} (hx : x ∈ rules)
      (hx' : idOf x = some id) : ∃ rest, removeById idOf rules id = .ok rest := by
    obtain ⟨y, hy⟩ := firstById_of_mem hx hx'
    exact ⟨_, bind_eq_ok.mpr ⟨y, hy, rfl⟩⟩
  cases e
  case' client x => obtain ⟨rest, h⟩ := hremove (·.id) (mem_entries_client.mp he) hid
  case' clientGroup x => obtain ⟨rest, h⟩ := hremove (·.id) (mem_entries_clientGroup.mp he) hid
  case' clientGroupMember x =>
    obtain ⟨rest, h⟩ := hremove (·.id) (mem_entries_clientGroupMember.mp he) hid
  case' daemon x => obtain ⟨rest, h⟩ := hremove (·.id) (mem_entries_daemon.mp he) hid
  case' service x => obtain ⟨rest, h⟩ := hremove (·.id) (mem_entries_service.mp he) hid
  case' serviceACL x => obtain ⟨rest, h⟩ := hremove (·.id) (mem_entries_serviceACL.mp he) hid
  all_goals exact ⟨_, bind_eq_ok.mpr ⟨rest, h, rfl⟩⟩

/-- A lookup that returns has found a rule of the kind, with the id. -/
theorem getById_ok {c : NppCache} {k : Kind} {id : String} {e : PolicyEntry}
    (h : c.getById k id = .ok e) : e ∈ c.entries ∧ e.key = (k, some id) := by
  cases k
  all_goals
    obtain ⟨x, hx, he⟩ := map_eq_ok.mp h
    obtain rfl := he
    obtain ⟨hmem, hid⟩ := firstById_ok hx
    exact ⟨by simpa using hmem, Prod.ext rfl hid⟩

theorem need_eq_nil {α : Type} {rules : List α} {idOf : α → Option String} {kind id : String} :
    need rules idOf kind id = [] ↔ ∃ r ∈ rules, idOf r = some id := by
  unfold need
  split <;> simp_all

/-- When no reference is missing, every rule the entry names is held. -/
theorem missingReferences_nil {c : NppCache} {e : PolicyEntry} (h : c.missingReferences e = []) :
    ∀ k ∈ e.names, ∃ t ∈ c.entries, t.key = k := by
  rintro ⟨k, id⟩ hk
  rw [exists_entry_iff]
  cases e with
  | clientGroupMember m =>
    obtain ⟨h1, h2⟩ := List.append_eq_nil_iff.mp h
    rcases List.mem_pair.mp hk with hk | hk <;> cases hk
    · exact need_eq_nil.mp h1
    · exact need_eq_nil.mp h2
  | service s =>
    cases List.mem_singleton.mp hk
    exact need_eq_nil.mp h
  | serviceACL a =>
    obtain ⟨h1, h2⟩ := List.append_eq_nil_iff.mp h
    rcases List.mem_pair.mp hk with hk | hk <;> cases hk
    · exact need_eq_nil.mp h1
    · exact need_eq_nil.mp h2
  | _ => cases hk

/-- A rule whose references are all held misses none. -/
theorem missingReferences_eq_nil {c : NppCache} {e : PolicyEntry}
    (h : ∀ k ∈ e.names, ∃ t ∈ c.entries, t.key = k) : c.missingReferences e = [] := by
  cases e with
  | clientGroupMember m =>
    apply List.append_eq_nil_iff.mpr
    constructor
    · exact need_eq_nil.mpr ((c.exists_entry_iff .client _).mp
        (h (.client, some m.clientId) (by simp [PolicyEntry.names])))
    · exact need_eq_nil.mpr ((c.exists_entry_iff .clientGroup _).mp
        (h (.clientGroup, some m.clientGroupId) (by simp [PolicyEntry.names])))
  | service s =>
    exact need_eq_nil.mpr ((c.exists_entry_iff .daemon _).mp
      (h (.daemon, some s.daemonId) (by simp [PolicyEntry.names])))
  | serviceACL a =>
    apply List.append_eq_nil_iff.mpr
    constructor
    · exact need_eq_nil.mpr ((c.exists_entry_iff .service _).mp
        (h (.service, some a.serviceId) (by simp [PolicyEntry.names])))
    · exact need_eq_nil.mpr ((c.exists_entry_iff .clientGroup _).mp
        (h (.clientGroup, some a.clientGroupId) (by simp [PolicyEntry.names])))
  | _ => rfl

/-- Nothing is removed from a cache whose references all resolve. -/
theorem removeRulesNamingMissing_eq {c : NppCache}
    (h : ∀ e ∈ c.entries, c.missingReferences e = []) : c.removeRulesNamingMissing = ([], c) := by
  have hnone (k : Kind) : c.namingMissing k = [] := by
    rw [namingMissing, List.map_eq_nil_iff, List.filter_eq_nil_iff]
    intro e he
    simp [h e (mem_rules.mp he).1]
  have hs : c.services.filter (fun s => decide (c.missingReferences (.service s) = [])) =
      c.services :=
    List.filter_eq_self.mpr fun s hs => by simp [h _ (mem_entries_service.mpr hs)]
  have ha : c.serviceACLs.filter (fun a => decide (c.missingReferences (.serviceACL a) = [])) =
      c.serviceACLs :=
    List.filter_eq_self.mpr fun a ha => by simp [h _ (mem_entries_serviceACL.mpr ha)]
  have hm : c.clientGroupMembers.filter
      (fun m => decide (c.missingReferences (.clientGroupMember m) = [])) = c.clientGroupMembers :=
    List.filter_eq_self.mpr fun m hm => by simp [h _ (mem_entries_clientGroupMember.mpr hm)]
  simp only [removeRulesNamingMissing, hs, ha, hm, hnone, List.append_nil]

/-! The store is a `RefStore` of rules under kind and id. -/

/-- Every reference resolves, and ids are unique within a kind. -/
structure Integrity (c : NppCache) : Prop where
  members : ∀ m ∈ c.clientGroupMembers,
    (∃ x ∈ c.clients, x.id = some m.clientId) ∧
      ∃ g ∈ c.clientGroups, g.id = some m.clientGroupId
  services : ∀ s ∈ c.services, ∃ d ∈ c.daemons, d.id = some s.daemonId
  serviceACLs : ∀ a ∈ c.serviceACLs,
    (∃ s ∈ c.services, s.id = some a.serviceId) ∧
      ∃ g ∈ c.clientGroups, g.id = some a.clientGroupId
  clientIds : (c.clients.map (·.id)).Nodup
  clientGroupIds : (c.clientGroups.map (·.id)).Nodup
  memberIds : (c.clientGroupMembers.map (·.id)).Nodup
  daemonIds : (c.daemons.map (·.id)).Nodup
  serviceIds : (c.services.map (·.id)).Nodup
  serviceACLIds : (c.serviceACLs.map (·.id)).Nodup

theorem nodup_tagged {α : Type} (k : Kind) (idOf : α → Option String) (rules : List α) :
    (rules.map fun x => ((k, idOf x) : PolicyEntry.Key)).Nodup ↔ (rules.map idOf).Nodup := by
  have hm : (rules.map fun x => ((k, idOf x) : PolicyEntry.Key)) =
      (rules.map idOf).map (Prod.mk k) := by
    rw [List.map_map]
    rfl
  rw [hm, List.nodup_map_iff fun a b h => (Prod.ext_iff.mp h).2]

theorem keys_nodup_iff (c : NppCache) : (c.entries.map PolicyEntry.key).Nodup ↔
    (c.clients.map (·.id)).Nodup ∧ (c.clientGroups.map (·.id)).Nodup ∧
      (c.clientGroupMembers.map (·.id)).Nodup ∧ (c.daemons.map (·.id)).Nodup ∧
        (c.services.map (·.id)).Nodup ∧ (c.serviceACLs.map (·.id)).Nodup := by
  have hkeys : c.entries.map PolicyEntry.key =
      c.clients.map (fun x => (Kind.client, x.id)) ++
        (c.clientGroups.map (fun x => (Kind.clientGroup, x.id)) ++
          (c.clientGroupMembers.map (fun x => (Kind.clientGroupMember, x.id)) ++
            (c.daemons.map (fun x => (Kind.daemon, x.id)) ++
              (c.services.map (fun x => (Kind.service, x.id)) ++
                c.serviceACLs.map (fun x => (Kind.serviceACL, x.id)))))) := by
    simp only [entries, List.map_append, List.map_map]
    rfl
  rw [hkeys]
  -- Rules of different kinds never share a key, so only the six parts are left.
  simp only [List.nodup_append, nodup_tagged, List.mem_append, List.mem_map]
  refine ⟨fun h => ⟨h.1, h.2.1.1, h.2.1.2.1.1, h.2.1.2.1.2.1.1, h.2.1.2.1.2.1.2.1.1,
    h.2.1.2.1.2.1.2.1.2.1⟩, fun h => ⟨h.1, ⟨h.2.1, ⟨h.2.2.1, ⟨h.2.2.2.1, ⟨h.2.2.2.2.1,
      h.2.2.2.2.2, ?_⟩, ?_⟩, ?_⟩, ?_⟩, ?_⟩⟩
  all_goals
    rintro _ ⟨x, -, rfl⟩ b hb rfl
    simp at hb

theorem names_resolve_iff (c : NppCache) :
    (∀ e ∈ c.entries, ∀ k ∈ e.names, ∃ t ∈ c.entries, t.key = k) ↔
      (∀ m ∈ c.clientGroupMembers, (∃ x ∈ c.clients, x.id = some m.clientId) ∧
        ∃ g ∈ c.clientGroups, g.id = some m.clientGroupId) ∧
      (∀ s ∈ c.services, ∃ d ∈ c.daemons, d.id = some s.daemonId) ∧
      (∀ a ∈ c.serviceACLs, (∃ s ∈ c.services, s.id = some a.serviceId) ∧
        ∃ g ∈ c.clientGroups, g.id = some a.clientGroupId) := by
  constructor
  · intro h
    refine ⟨fun m hm => ?_, fun s hs => ?_, fun a ha => ?_⟩
    · have hh := h (.clientGroupMember m) (mem_entries_clientGroupMember.mpr hm)
      exact ⟨(c.exists_entry_iff _ _).mp (hh (.client, some m.clientId) (by simp [PolicyEntry.names])),
        (c.exists_entry_iff _ _).mp
          (hh (.clientGroup, some m.clientGroupId) (by simp [PolicyEntry.names]))⟩
    · exact (c.exists_entry_iff _ _).mp (h (.service s) (mem_entries_service.mpr hs)
        (.daemon, some s.daemonId) (by simp [PolicyEntry.names]))
    · have hh := h (.serviceACL a) (mem_entries_serviceACL.mpr ha)
      exact ⟨(c.exists_entry_iff _ _).mp (hh (.service, some a.serviceId) (by simp [PolicyEntry.names])),
        (c.exists_entry_iff _ _).mp
          (hh (.clientGroup, some a.clientGroupId) (by simp [PolicyEntry.names]))⟩
  · rintro ⟨hm, hs, ha⟩ e he ⟨k, id⟩ hk
    rw [exists_entry_iff]
    cases e with
    | clientGroupMember m =>
      obtain ⟨h1, h2⟩ := hm m (mem_entries_clientGroupMember.mp he)
      rcases List.mem_pair.mp hk with hk | hk <;> cases hk
      · exact h1
      · exact h2
    | service s =>
      cases List.mem_singleton.mp hk
      exact hs s (mem_entries_service.mp he)
    | serviceACL a =>
      obtain ⟨h1, h2⟩ := ha a (mem_entries_serviceACL.mp he)
      rcases List.mem_pair.mp hk with hk | hk <;> cases hk
      · exact h1
      · exact h2
    | _ => cases hk

theorem integrity_iff (c : NppCache) :
    c.Integrity ↔ RefStore PolicyEntry.key PolicyEntry.names c.entries := by
  constructor
  · intro h
    exact ⟨c.names_resolve_iff.mpr ⟨h.members, h.services, h.serviceACLs⟩,
      c.keys_nodup_iff.mpr ⟨h.clientIds, h.clientGroupIds, h.memberIds, h.daemonIds,
        h.serviceIds, h.serviceACLIds⟩⟩
  · intro h
    obtain ⟨hm, hs, ha⟩ := c.names_resolve_iff.mp h.resolved
    obtain ⟨h1, h2, h3, h4, h5, h6⟩ := c.keys_nodup_iff.mp h.unique
    exact ⟨hm, hs, ha, h1, h2, h3, h4, h5, h6⟩

/-- A put whose references are held keeps the store whole. -/
theorem Integrity.put {c c' : NppCache} {e : PolicyEntry} {newId : String} {b : Bool}
    (hc : c.Integrity) (hid : e.id ≠ none)
    (hnames : ∀ k ∈ e.names, ∃ t ∈ c.entries, t.key = k)
    (h : c.put newId e = .ok (b, c')) : c'.Integrity := by
  obtain ⟨-, hcheck, hp⟩ := put_ok hid h
  exact (integrity_iff c').mpr
    ((((integrity_iff c).mp hc).insert (checkPut_ok_fresh hid hcheck) hnames).perm hp)

/-- A delete of a rule that no rule names keeps the store whole. -/
theorem Integrity.delete {c c' : NppCache} {k : Kind} {id : String} {b : Bool}
    (hc : c.Integrity) (hfree : ∀ x ∈ c.entries, (k, some id) ∉ x.names)
    (h : c.delete k id = .ok (b, c')) : c'.Integrity := by
  obtain ⟨e, hkey, hp⟩ := delete_ok h
  refine (integrity_iff c').mpr ((((integrity_iff c).mp hc).perm hp.symm).remove fun x hx => ?_)
  rw [hkey]
  exact hfree x (hp.mem_iff.mpr (List.mem_cons_of_mem e hx))

/-- What a delete leaves, and that the removed key is gone. -/
theorem Integrity.mem_delete {c c' : NppCache} {k : Kind} {id : String} {b : Bool}
    (hc : c.Integrity) (h : c.delete k id = .ok (b, c')) {x : PolicyEntry}
    (hx : x ∈ c'.entries) : x ∈ c.entries ∧ x.key ≠ (k, some id) := by
  obtain ⟨e, hkey, hp⟩ := delete_ok h
  exact ⟨hp.mem_iff.mpr (List.mem_cons_of_mem e hx),
    hkey ▸ (((integrity_iff c).mp hc).perm hp.symm).key_ne_of_remove hx⟩

/-- Every rule has its id, and no two share what is distinctive about them. -/
structure Distinct (c : NppCache) : Prop where
  given : ∀ e ∈ c.entries, e.id ≠ none
  distinct : (c.entries.map PolicyEntry.distinctive).Nodup

theorem Distinct.put {c c' : NppCache} {e : PolicyEntry} {newId : String} {b : Bool}
    (hc : c.Distinct) (hid : e.id ≠ none) (h : c.put newId e = .ok (b, c')) : c'.Distinct := by
  obtain ⟨-, hcheck, hp⟩ := put_ok hid h
  refine ⟨fun t ht => ?_, (hp.map _).nodup_iff.mpr ?_⟩
  · rcases List.mem_cons.mp (hp.mem_iff.mp ht) with rfl | ht
    · exact hid
    · exact hc.given t ht
  · rw [List.map_cons, List.nodup_cons]
    refine ⟨fun hm => ?_, hc.distinct⟩
    obtain ⟨t, ht, hd⟩ := List.mem_map.mp hm
    exact checkPut_ok_distinctive hcheck t ht hd

theorem Distinct.delete {c c' : NppCache} {k : Kind} {id : String} {b : Bool}
    (hc : c.Distinct) (h : c.delete k id = .ok (b, c')) : c'.Distinct := by
  obtain ⟨e, -, hp⟩ := delete_ok h
  refine ⟨fun t ht => hc.given t (hp.mem_iff.mpr (List.mem_cons_of_mem e ht)), ?_⟩
  have hn := (hp.map PolicyEntry.distinctive).nodup_iff.mp hc.distinct
  exact (List.nodup_cons.mp hn).2

theorem Distinct.perm {c c' : NppCache} (hc : c.Distinct) (hp : c'.entries.Perm c.entries) :
    c'.Distinct :=
  ⟨fun e he => hc.given e (hp.mem_iff.mp he), (hp.map _).nodup_iff.mpr hc.distinct⟩

/-- Two held rules that agree in what is distinctive are one rule. -/
theorem Distinct.eq_of_distinctive {c : NppCache} (hc : c.Distinct) {e t : PolicyEntry}
    (he : e ∈ c.entries) (ht : t ∈ c.entries) (h : e.distinctive = t.distinctive) : e = t :=
  List.inj_on_of_nodup_map hc.distinct he ht h

theorem integrity_empty : empty.Integrity := (integrity_iff empty).mpr .nil

theorem distinct_empty : empty.Distinct := ⟨by simp [empty, entries], by simp [empty, entries]⟩

end NppCache
end NoPorts.Npp
