import NoPorts.Lib.Table
import NoPorts.NppDecision

/-! The two policy services that decide by user groups: one compiles a YAML file's groups into an index, the
other goes through its groups at each request. -/
namespace NoPorts.GroupPolicies
open Lib Npp

/-! ### admin/models.dart -/

/-- A `Device`; a `DeviceGroup` has the same fields. -/
structure Device where
  name : String
  permitOpens : List String
  deriving DecidableEq, Repr

structure UserGroup where
  userAtSigns : List String
  daemonAtSigns : List String
  devices : List Device
  deviceGroups : List Device
  deriving DecidableEq, Repr

/-! ### The file -/

/-- A map from names to lists, each list or the map itself null where it is left out. -/
abbrev NamedLists := Option (Table String (Option (List String)))

structure Permissions where
  daemonAtSigns : Option (List String)
  deviceNames : NamedLists
  deviceGroupNames : NamedLists

structure YamlGroup where
  userAtSigns : List String
  permissions : Permissions

def NamedLists.devices (named : NamedLists) : List Device :=
  (named.getD .empty).entries.map fun e => ⟨e.1, e.2.getD []⟩

/-- The same group as a record. -/
def YamlGroup.userGroup (g : YamlGroup) : UserGroup :=
  { userAtSigns := g.userAtSigns
    daemonAtSigns := g.permissions.daemonAtSigns.getD []
    devices := g.permissions.deviceNames.devices
    deviceGroups := g.permissions.deviceGroupNames.devices }

/-! `toAtsign` reads a canonical atSign out of a text, `none` where the source's throws; `canonicalAtsign` is that
with the throw caught. -/
variable (toAtsign : String → Option String)

def sameAtsign (a b : String) : Bool :=
  match toAtsign a with
  | some canonical => toAtsign b == some canonical
  | none => false

/-- Those of `items` that `xs` doesn't hold, added at its end. -/
def addAll (xs items : List String) : List String :=
  items.foldl (fun xs item => if xs.contains item then xs else xs ++ [item]) xs

/-! ### npp_file.dart -/

structure DaemonEntry where
  deviceNames : Table String (List String)
  deviceGroupNames : Table String (List String)

/-- Of one user, by daemon. -/
abbrev Daemons := Table String DaemonEntry

structure FileBasedPolicy where
  userAtSigns : Table String Daemons
  daemons : List String

def addDevices (devices : Table String (List String)) (named : NamedLists) : Table String (List String) :=
  (named.getD .empty).entries.foldl
    (fun devices e => (devices.putIfAbsent e.1 []).modify e.1 fun permitOpens => addAll permitOpens (e.2.getD []))
    devices

def addDaemon (p : Permissions) (daemons : Daemons) (rawDaemonAtSign : String) : Daemons :=
  match toAtsign rawDaemonAtSign with
  | none => daemons
  | some daemonAtSign => (daemons.putIfAbsent daemonAtSign ⟨.empty, .empty⟩).modify daemonAtSign fun entry =>
      ⟨addDevices entry.deviceNames p.deviceNames, addDevices entry.deviceGroupNames p.deviceGroupNames⟩

def addUser (p : Permissions) (users : Table String Daemons) (rawUserAtSign : String) : Table String Daemons :=
  match toAtsign rawUserAtSign with
  | none => users
  | some userAtSign => (users.putIfAbsent userAtSign .empty).modify userAtSign fun daemons =>
      (p.daemonAtSigns.getD []).foldl (addDaemon toAtsign p) daemons

namespace FileBasedPolicy

def addGroup (policy : FileBasedPolicy) (g : YamlGroup) : FileBasedPolicy :=
  { daemons := addAll policy.daemons ((g.permissions.daemonAtSigns.getD []).filterMap toAtsign)
    userAtSigns := g.userAtSigns.foldl (addUser toAtsign g.permissions) policy.userAtSigns }

/-- The constructor. -/
def make (yaml : List YamlGroup) : FileBasedPolicy := yaml.foldl (addGroup toAtsign) ⟨.empty, []⟩

def hasRulesFor (policy : FileBasedPolicy) (daemonAtsign : String) : Bool := policy.daemons.contains daemonAtsign

def doAuthCheck (policy : FileBasedPolicy) (r : NPAAuthCheckRequest) : NPAAuthCheckResponse :=
  match (toAtsign r.clientAtsign).bind policy.userAtSigns.get? with
  | none => ⟨false, some ("No permissions for " ++ r.clientAtsign), []⟩
  | some clientEntry =>
    match (toAtsign r.daemonAtsign).bind clientEntry.get? with
    | none => ⟨false, some ("No permissions for " ++ r.clientAtsign ++ " at " ++ r.daemonAtsign), []⟩
    | some daemonEntry =>
      match daemonEntry.deviceNames.get? r.daemonDeviceName with
      | some permitOpens =>
        ⟨true, some (r.clientAtsign ++ " has permission for device " ++ r.daemonDeviceName ++ " at daemon " ++
          r.daemonAtsign), permitOpens⟩
      | none =>
        match daemonEntry.deviceGroupNames.get? r.daemonDeviceGroupName with
        | some permitOpens =>
          ⟨true, some (r.clientAtsign ++ " has permission for device group " ++ r.daemonDeviceGroupName ++
            " at daemon " ++ r.daemonAtsign), permitOpens⟩
        | none =>
          ⟨false, some ("No permissions for " ++ r.clientAtsign ++ " at " ++ r.daemonAtsign ++
            " for either the device " ++ r.daemonDeviceName ++ " or the deviceGroup " ++ r.daemonDeviceGroupName), []⟩

end FileBasedPolicy

/-! ### admin/impl.dart and npp_atserver.dart -/

/-- What the service holds: the groups, in the order of their ids' entries. -/
structure PolicyServiceInMem where
  groups : List UserGroup

namespace PolicyServiceInMem

def hasRulesFor (api : PolicyServiceInMem) (daemonAtsign : String) : Bool :=
  api.groups.any fun g => g.daemonAtSigns.any fun atSign => toAtsign atSign == some daemonAtsign

def getGroupsForUser (api : PolicyServiceInMem) (atSign : String) : List UserGroup :=
  match toAtsign atSign with
  | none => []
  | some asked => api.groups.filter fun g => g.userAtSigns.any fun user => toAtsign user == some asked

end PolicyServiceInMem

structure Handler where
  api : PolicyServiceInMem

namespace Handler

def hasRulesFor (h : Handler) (daemonAtsign : String) : Bool := h.api.hasRulesFor toAtsign daemonAtsign

/-- The permit-opens of the devices of a name, added to `permitOpens`. -/
def addMatching (permitOpens : List String) (devices : List Device) (name : String) : List String :=
  devices.foldl (fun permitOpens d => if d.name = name then addAll permitOpens d.permitOpens else permitOpens)
    permitOpens

def addGroup (r : NPAAuthCheckRequest) (permitOpens : List String) (g : UserGroup) : List String :=
  if g.daemonAtSigns.any fun a => sameAtsign toAtsign a r.daemonAtsign then
    addMatching (addMatching permitOpens g.devices r.daemonDeviceName) g.deviceGroups r.daemonDeviceGroupName
  else permitOpens

def doAuthCheck (h : Handler) (r : NPAAuthCheckRequest) : NPAAuthCheckResponse :=
  let groups := h.api.getGroupsForUser toAtsign r.clientAtsign
  if groups.isEmpty then ⟨false, some ("No permissions for " ++ r.clientAtsign), []⟩
  else
    let permitOpens := groups.foldl (addGroup toAtsign r) []
    if !permitOpens.isEmpty then
      ⟨true, some (r.clientAtsign ++ " has permission for device " ++ r.daemonDeviceName ++ " and/or device group " ++
        r.daemonDeviceGroupName ++ " at daemon " ++ r.daemonAtsign), permitOpens⟩
    else
      ⟨false, some ("No permissions for " ++ r.clientAtsign ++ " at " ++ r.daemonAtsign ++
        " for either the device " ++ r.daemonDeviceName ++ " or the deviceGroup " ++ r.daemonDeviceGroupName), []⟩

end Handler

/-- The service over the same groups. -/
def handlerOf (yaml : List YamlGroup) : Handler := ⟨⟨yaml.map YamlGroup.userGroup⟩⟩

/-! ### What the groups say -/

/-- The group is about the request's client and daemon. -/
structure UserGroup.About (g : UserGroup) (r : NPAAuthCheckRequest) : Prop where
  user : ∃ canonical, toAtsign r.clientAtsign = some canonical ∧ canonical ∈ g.userAtSigns.filterMap toAtsign
  daemon : ∃ canonical, toAtsign r.daemonAtsign = some canonical ∧ canonical ∈ g.daemonAtSigns.filterMap toAtsign

/-- A group about the request names its device; with `devices` the device groups, its device group. -/
def Names (groups : List UserGroup) (r : NPAAuthCheckRequest) (devices : UserGroup → List Device) (name : String) :
    Prop := ∃ g ∈ groups, g.About toAtsign r ∧ ∃ d ∈ devices g, d.name = name

/-- And permits `permitOpen` there. -/
def Permits (groups : List UserGroup) (r : NPAAuthCheckRequest) (devices : UserGroup → List Device) (name permitOpen : String) :
    Prop := ∃ g ∈ groups, g.About toAtsign r ∧ ∃ d ∈ devices g, d.name = name ∧ permitOpen ∈ d.permitOpens

/-- The same `authorized` and the same set of `permitOpen`. -/
def SameDecision (x y : NPAAuthCheckResponse) : Prop :=
  x.authorized = y.authorized ∧ ∀ permitOpen, permitOpen ∈ x.permitOpen ↔ permitOpen ∈ y.permitOpen

/-- Nothing that the two services combine differently comes into the request: what is named is not without
permit-opens, and the device group permits nothing beyond a device that is named too. -/
structure Undivided (groups : List UserGroup) (r : NPAAuthCheckRequest) : Prop where
  device : Names toAtsign groups r UserGroup.devices r.daemonDeviceName →
    (∃ permitOpen, Permits toAtsign groups r UserGroup.devices r.daemonDeviceName permitOpen) ∧
      ∀ permitOpen, Permits toAtsign groups r UserGroup.deviceGroups r.daemonDeviceGroupName permitOpen →
        Permits toAtsign groups r UserGroup.devices r.daemonDeviceName permitOpen
  deviceGroup : ¬Names toAtsign groups r UserGroup.devices r.daemonDeviceName →
    Names toAtsign groups r UserGroup.deviceGroups r.daemonDeviceGroupName →
      ∃ permitOpen, Permits toAtsign groups r UserGroup.deviceGroups r.daemonDeviceGroupName permitOpen

/-! ### The index -/

variable {toAtsign}

theorem mem_addAll {x : String} {xs items : List String} : x ∈ addAll xs items ↔ x ∈ xs ∨ x ∈ items := by
  have h (xs : List String) (item : String) :
      x ∈ (if xs.contains item then xs else xs ++ [item]) ↔ x ∈ xs ∨ x = item := by
    split
    · rename_i hmem
      refine ⟨Or.inl, fun hor => hor.elim id fun heq => ?_⟩
      rw [heq]
      exact List.contains_iff_mem.mp hmem
    · rw [List.mem_append, List.mem_singleton]
  refine (Table.foldl_adds (P := fun xs => x ∈ xs) h items xs).trans ?_
  rw [exists_eq_right']

/-- What `P` says of a list of permit-opens, `Q` says of those that are added to it. -/
structure Adds (P Q : List String → Prop) : Prop where
  more : ∀ permitOpens items, P (addAll permitOpens items) ↔ P permitOpens ∨ Q items
  first : ∀ items, P (addAll [] items) ↔ Q items

theorem adds_true : Adds (fun _ => True) fun _ => True :=
  ⟨fun _ _ => (true_or True).symm ▸ Iff.rfl, fun _ => Iff.rfl⟩

theorem adds_mem (permitOpen : String) : Adds (permitOpen ∈ ·) (permitOpen ∈ ·) := by
  refine ⟨fun _ _ => mem_addAll, fun items => mem_addAll.trans ?_⟩
  rw [or_iff_right List.not_mem_nil]

variable {P Q : List String → Prop} (hadds : Adds P Q) {name : String}
include hadds

theorem hasAt_addDevices {devices : Table String (List String)} {named : NamedLists} :
    (addDevices devices named).HasAt name P ↔ devices.HasAt name P ∨ ∃ d ∈ named.devices, d.name = name ∧ Q d.permitOpens := by
  have hstep (devices : Table String (List String)) (e : String × Option (List String)) :
      ((devices.putIfAbsent e.1 []).modify e.1 fun permitOpens => addAll permitOpens (e.2.getD [])).HasAt name P ↔
        devices.HasAt name P ∨ name = e.1 ∧ Q (e.2.getD []) :=
    Table.hasAt_putIfAbsent_modify (fun permitOpens => hadds.more permitOpens _) (hadds.first _)
  refine (Table.foldl_adds (P := fun devices : Table String (List String) => devices.HasAt name P) hstep _ _).trans ?_
  simp only [NamedLists.devices, List.mem_map, exists_exists_and_eq_and, eq_comm (a := name)]

variable {pick : DaemonEntry → Table String (List String)} {named : Permissions → NamedLists}
  (hpick : ∀ e p, pick ⟨addDevices e.deviceNames (Permissions.deviceNames p),
    addDevices e.deviceGroupNames (Permissions.deviceGroupNames p)⟩ = addDevices (pick e) (named p))
  (hempty : pick ⟨.empty, .empty⟩ = .empty)
include hpick hempty

/-- What a group's permissions say of a daemon, `d` its canonical atSign. -/
theorem hasAt_foldl_addDaemon {p : Permissions} {daemons : Daemons} {d : String} (raws : List String) :
    (raws.foldl (addDaemon toAtsign p) daemons).HasAt d (fun e => (pick e).HasAt name P) ↔
      daemons.HasAt d (fun e => (pick e).HasAt name P) ∨ d ∈ raws.filterMap toAtsign ∧
        ∃ dev ∈ (named p).devices, dev.name = name ∧ Q dev.permitOpens := by
  have hstep (daemons : Daemons) (raw : String) :
      (addDaemon toAtsign p daemons raw).HasAt d (fun e => (pick e).HasAt name P) ↔
        daemons.HasAt d (fun e => (pick e).HasAt name P) ∨ toAtsign raw = some d ∧
          ∃ dev ∈ (named p).devices, dev.name = name ∧ Q dev.permitOpens := by
    rw [addDaemon]
    cases hraw : toAtsign raw with
    | none => simp
    | some canonical =>
      simp only [Option.some.injEq, eq_comm (b := d)]
      apply Table.hasAt_putIfAbsent_modify
      · intro e
        rw [hpick, hasAt_addDevices hadds]
      · rw [hpick, hasAt_addDevices hadds, hempty, or_iff_right (Table.not_hasAt_empty _ _)]
  refine (Table.foldl_adds (P := fun daemons : Daemons => daemons.HasAt d fun e => (pick e).HasAt name P) hstep _ _).trans ?_
  simp only [List.mem_filterMap, ← exists_and_right, and_assoc]

/-- What the file's groups say of a user at a daemon. -/
theorem hasAt_make {yaml : List YamlGroup} {u d : String} :
    (FileBasedPolicy.make toAtsign yaml).userAtSigns.HasAt u
        (fun daemons => daemons.HasAt d fun e => (pick e).HasAt name P) ↔
      ∃ g ∈ yaml, u ∈ g.userAtSigns.filterMap toAtsign ∧
        d ∈ (g.permissions.daemonAtSigns.getD []).filterMap toAtsign ∧
          ∃ dev ∈ (named g.permissions).devices, dev.name = name ∧ Q dev.permitOpens := by
  have huser (g : YamlGroup) (users : Table String Daemons) (raw : String) :
      (addUser toAtsign g.permissions users raw).HasAt u
          (fun daemons => daemons.HasAt d fun e => (pick e).HasAt name P) ↔
        users.HasAt u (fun daemons => daemons.HasAt d fun e => (pick e).HasAt name P) ∨ toAtsign raw = some u ∧
          d ∈ (g.permissions.daemonAtSigns.getD []).filterMap toAtsign ∧
            ∃ dev ∈ (named g.permissions).devices, dev.name = name ∧ Q dev.permitOpens := by
    rw [addUser]
    cases hraw : toAtsign raw with
    | none => simp
    | some canonical =>
      simp only [Option.some.injEq, eq_comm (b := u)]
      apply Table.hasAt_putIfAbsent_modify
      · exact fun daemons => hasAt_foldl_addDaemon hadds hpick hempty _
      · rw [hasAt_foldl_addDaemon hadds hpick hempty, or_iff_right (Table.not_hasAt_empty _ _)]
  have hgroup (policy : FileBasedPolicy) (g : YamlGroup) :
      (policy.addGroup toAtsign g).userAtSigns.HasAt u
          (fun daemons => daemons.HasAt d fun e => (pick e).HasAt name P) ↔
        policy.userAtSigns.HasAt u (fun daemons => daemons.HasAt d fun e => (pick e).HasAt name P) ∨
          u ∈ g.userAtSigns.filterMap toAtsign ∧
          d ∈ (g.permissions.daemonAtSigns.getD []).filterMap toAtsign ∧
            ∃ dev ∈ (named g.permissions).devices, dev.name = name ∧ Q dev.permitOpens := by
    refine (Table.foldl_adds (P := fun users : Table String Daemons => users.HasAt u fun daemons =>
      daemons.HasAt d fun e => (pick e).HasAt name P) (huser g) _ _).trans ?_
    simp only [List.mem_filterMap (l := g.userAtSigns), ← exists_and_right, and_assoc]
  refine (Table.foldl_adds (P := fun policy : FileBasedPolicy => policy.userAtSigns.HasAt u fun daemons =>
    daemons.HasAt d fun e => (pick e).HasAt name P) hgroup _ _).trans ?_
  exact or_iff_right (Table.not_hasAt_empty _ _)

omit hadds hpick hempty

/-! ### The two decisions -/

variable (toAtsign) in
/-- The entry that the file's service comes to has a list under `name` that meets `P`. -/
def FileBasedPolicy.Comes (policy : FileBasedPolicy) (r : NPAAuthCheckRequest)
    (pick : DaemonEntry → Table String (List String)) (name : String) (P : List String → Prop) : Prop :=
  ∃ clientEntry daemonEntry, (toAtsign r.clientAtsign).bind policy.userAtSigns.get? = some clientEntry ∧
    (toAtsign r.daemonAtsign).bind clientEntry.get? = some daemonEntry ∧ (pick daemonEntry).HasAt name P

variable {yaml : List YamlGroup} {r : NPAAuthCheckRequest}

theorem FileBasedPolicy.comes_iff_hasAt {policy : FileBasedPolicy} {pick : DaemonEntry → Table String (List String)} :
    policy.Comes toAtsign r pick name P ↔ ∃ u d, toAtsign r.clientAtsign = some u ∧ toAtsign r.daemonAtsign = some d ∧
      policy.userAtSigns.HasAt u fun daemons => daemons.HasAt d fun e => (pick e).HasAt name P := by
  constructor
  · rintro ⟨clientEntry, daemonEntry, hclient, hdaemon, hname⟩
    obtain ⟨u, hu, hclient⟩ := Option.bind_eq_some_iff.mp hclient
    obtain ⟨d, hd, hdaemon⟩ := Option.bind_eq_some_iff.mp hdaemon
    exact ⟨u, d, hu, hd, clientEntry, hclient, daemonEntry, hdaemon, hname⟩
  · rintro ⟨u, d, hu, hd, clientEntry, hclient, daemonEntry, hdaemon, hname⟩
    exact ⟨clientEntry, daemonEntry, Option.bind_eq_some_iff.mpr ⟨u, hu, hclient⟩,
      Option.bind_eq_some_iff.mpr ⟨d, hd, hdaemon⟩, hname⟩

/-- A group that lists the canonical atSigns of the request's client and daemon is about the request. -/
theorem exists_about_iff {groups : List UserGroup} {R : UserGroup → Prop} :
    (∃ u d, toAtsign r.clientAtsign = some u ∧ toAtsign r.daemonAtsign = some d ∧
      ∃ g ∈ groups, u ∈ g.userAtSigns.filterMap toAtsign ∧ d ∈ g.daemonAtSigns.filterMap toAtsign ∧ R g) ↔
    ∃ g ∈ groups, g.About toAtsign r ∧ R g := by
  constructor
  · rintro ⟨u, d, hu, hd, g, hg, huser, hdaemon, hR⟩
    exact ⟨g, hg, ⟨⟨u, hu, huser⟩, ⟨d, hd, hdaemon⟩⟩, hR⟩
  · rintro ⟨g, hg, ⟨⟨u, hu, huser⟩, ⟨d, hd, hdaemon⟩⟩, hR⟩
    exact ⟨u, d, hu, hd, g, hg, huser, hdaemon, hR⟩

theorem comes_iff (named : Permissions → NamedLists) (hadds : Adds P Q) {devices : UserGroup → List Device}
    (hpick : ∀ e p, pick ⟨addDevices e.deviceNames (Permissions.deviceNames p),
      addDevices e.deviceGroupNames (Permissions.deviceGroupNames p)⟩ = addDevices (pick e) (named p))
    (hempty : pick ⟨.empty, .empty⟩ = .empty) (hdevices : ∀ g : YamlGroup, devices g.userGroup = (named g.permissions).devices) :
    (FileBasedPolicy.make toAtsign yaml).Comes toAtsign r pick name P ↔
      ∃ g ∈ yaml.map YamlGroup.userGroup, g.About toAtsign r ∧ ∃ d ∈ devices g, d.name = name ∧ Q d.permitOpens := by
  rw [FileBasedPolicy.comes_iff_hasAt, ← exists_about_iff]
  simp only [hasAt_make hadds hpick hempty, List.mem_map, exists_exists_and_eq_and, hdevices]
  rfl

theorem FileBasedPolicy.doAuthCheck_spec (toAtsign : String → Option String) (policy : FileBasedPolicy)
    (r : NPAAuthCheckRequest) :
    ((policy.doAuthCheck toAtsign r).authorized = true ↔
      policy.Comes toAtsign r DaemonEntry.deviceNames r.daemonDeviceName (fun _ => True) ∨
        policy.Comes toAtsign r DaemonEntry.deviceGroupNames r.daemonDeviceGroupName fun _ => True) ∧
    ∀ permitOpen, permitOpen ∈ (policy.doAuthCheck toAtsign r).permitOpen ↔
      policy.Comes toAtsign r DaemonEntry.deviceNames r.daemonDeviceName (permitOpen ∈ ·) ∨
        ¬policy.Comes toAtsign r DaemonEntry.deviceNames r.daemonDeviceName (fun _ => True) ∧
          policy.Comes toAtsign r DaemonEntry.deviceGroupNames r.daemonDeviceGroupName (permitOpen ∈ ·) := by
  unfold doAuthCheck FileBasedPolicy.Comes
  cases hclient : (toAtsign r.clientAtsign).bind policy.userAtSigns.get? with
  | none => simp
  | some clientEntry =>
    cases hdaemon : (toAtsign r.daemonAtsign).bind clientEntry.get? with
    | none => simp [hdaemon]
    | some daemonEntry =>
      cases hdevice : daemonEntry.deviceNames.get? r.daemonDeviceName with
      | some permitOpens => simp [hdaemon, Table.HasAt, hdevice]
      | none =>
        cases hgroup : daemonEntry.deviceGroupNames.get? r.daemonDeviceGroupName with
        | some permitOpens => simp [hdaemon, Table.HasAt, hdevice, hgroup]
        | none => simp [hdaemon, Table.HasAt, hdevice, hgroup]

theorem any_toAtsign {atSigns : List String} {canonical : String} :
    (atSigns.any fun a => toAtsign a == some canonical) = true ↔ canonical ∈ atSigns.filterMap toAtsign := by
  simp only [List.any_eq_true, beq_iff_eq, List.mem_filterMap]

theorem any_sameAtsign {atSigns : List String} {atSign : String} :
    (atSigns.any fun a => sameAtsign toAtsign a atSign) = true ↔
      ∃ canonical, toAtsign atSign = some canonical ∧ canonical ∈ atSigns.filterMap toAtsign := by
  rw [List.any_eq_true]
  constructor
  · rintro ⟨a, ha, hsame⟩
    dsimp only [sameAtsign] at hsame
    split at hsame
    · rename_i canonical hcanonical
      exact ⟨canonical, eq_of_beq hsame, List.mem_filterMap.mpr ⟨a, ha, hcanonical⟩⟩
    · cases hsame
  · rintro ⟨canonical, hasked, hmem⟩
    obtain ⟨a, ha, hcanonical⟩ := List.mem_filterMap.mp hmem
    refine ⟨a, ha, ?_⟩
    rw [sameAtsign, hcanonical, hasked]
    exact beq_self_eq_true _

/-- The groups that the other service goes through are those about the client. -/
theorem mem_getGroupsForUser {api : PolicyServiceInMem} {atSign : String} {g : UserGroup} :
    g ∈ api.getGroupsForUser toAtsign atSign ↔
      g ∈ api.groups ∧ ∃ canonical, toAtsign atSign = some canonical ∧ canonical ∈ g.userAtSigns.filterMap toAtsign := by
  rw [PolicyServiceInMem.getGroupsForUser]
  cases hasked : toAtsign atSign with
  | none => simp
  | some asked => simp only [List.mem_filter, any_toAtsign, Option.some.injEq, exists_eq_left']

theorem mem_addMatching {permitOpen : String} {permitOpens : List String} {devices : List Device} :
    permitOpen ∈ Handler.addMatching permitOpens devices name ↔
      permitOpen ∈ permitOpens ∨ ∃ d ∈ devices, d.name = name ∧ permitOpen ∈ d.permitOpens := by
  refine Table.foldl_adds (P := (permitOpen ∈ ·)) (fun permitOpens d => ?_) _ _
  split
  · rename_i hname
    rw [mem_addAll, and_iff_right hname]
  · rename_i hname
    rw [or_iff_left fun h => hname h.1]

theorem mem_addGroup {permitOpen : String} {permitOpens : List String} {g : UserGroup} :
    permitOpen ∈ Handler.addGroup toAtsign r permitOpens g ↔ permitOpen ∈ permitOpens ∨
      (∃ canonical, toAtsign r.daemonAtsign = some canonical ∧ canonical ∈ g.daemonAtSigns.filterMap toAtsign) ∧
        ((∃ d ∈ g.devices, d.name = r.daemonDeviceName ∧ permitOpen ∈ d.permitOpens) ∨
          ∃ d ∈ g.deviceGroups, d.name = r.daemonDeviceGroupName ∧ permitOpen ∈ d.permitOpens) := by
  rw [Handler.addGroup]
  split
  · rename_i hdaemon
    rw [mem_addMatching, mem_addMatching, or_assoc, and_iff_right (any_sameAtsign.mp hdaemon)]
  · rename_i hdaemon
    rw [or_iff_left fun h => hdaemon (any_sameAtsign.mpr h.1)]

/-- All that the groups permit there: the union, of devices and device groups. -/
theorem Handler.doAuthCheck_spec (toAtsign : String → Option String) (h : Handler) (r : NPAAuthCheckRequest) :
    ((h.doAuthCheck toAtsign r).authorized = true ↔ ∃ permitOpen, permitOpen ∈ (h.doAuthCheck toAtsign r).permitOpen) ∧
    ∀ permitOpen, permitOpen ∈ (h.doAuthCheck toAtsign r).permitOpen ↔
      Permits toAtsign h.api.groups r UserGroup.devices r.daemonDeviceName permitOpen ∨
        Permits toAtsign h.api.groups r UserGroup.deviceGroups r.daemonDeviceGroupName permitOpen := by
  have hmem (permitOpen : String) :
      permitOpen ∈ (h.api.getGroupsForUser toAtsign r.clientAtsign).foldl (addGroup toAtsign r) [] ↔
        Permits toAtsign h.api.groups r UserGroup.devices r.daemonDeviceName permitOpen ∨
          Permits toAtsign h.api.groups r UserGroup.deviceGroups r.daemonDeviceGroupName permitOpen := by
    refine (Table.foldl_adds (P := (permitOpen ∈ ·)) (fun _ _ => mem_addGroup) _ _).trans ?_
    rw [or_iff_right List.not_mem_nil, Permits, Permits, ← exists_or]
    refine exists_congr fun g => ?_
    rw [mem_getGroupsForUser, ← and_or_left, ← and_or_left]
    constructor
    · rintro ⟨⟨hg, huser⟩, hdaemon, hpermits⟩
      exact ⟨hg, ⟨huser, hdaemon⟩, hpermits⟩
    · rintro ⟨hg, ⟨huser, hdaemon⟩, hpermits⟩
      exact ⟨⟨hg, huser⟩, hdaemon, hpermits⟩
  simp only [← hmem]
  dsimp only [doAuthCheck]
  split
  · rename_i hgroups
    rw [List.isEmpty_iff.mp hgroups]
    simp
  · cases (h.api.getGroupsForUser toAtsign r.clientAtsign).foldl (addGroup toAtsign r) [] with
    | nil => simp
    | cons p ps => simp

theorem hasRulesFor_make {daemonAtsign : String} :
    (FileBasedPolicy.make toAtsign yaml).hasRulesFor daemonAtsign =
      (handlerOf yaml).hasRulesFor toAtsign daemonAtsign := by
  have hmem : daemonAtsign ∈ (FileBasedPolicy.make toAtsign yaml).daemons ↔
      ∃ g ∈ yaml, daemonAtsign ∈ (g.permissions.daemonAtSigns.getD []).filterMap toAtsign := by
    refine (Table.foldl_adds (P := fun policy : FileBasedPolicy => daemonAtsign ∈ policy.daemons)
      (fun _ _ => mem_addAll) _ _).trans ?_
    exact or_iff_right List.not_mem_nil
  rw [Bool.eq_iff_iff, FileBasedPolicy.hasRulesFor, List.contains_iff_mem, hmem]
  simp only [handlerOf, Handler.hasRulesFor, PolicyServiceInMem.hasRulesFor, List.any_map, List.any_eq_true,
    Function.comp_apply, beq_iff_eq, List.mem_filterMap, YamlGroup.userGroup]

/-! ### Where they agree -/

theorem comes_devices (hadds : Adds P Q) :
    (FileBasedPolicy.make toAtsign yaml).Comes toAtsign r DaemonEntry.deviceNames name P ↔
      ∃ g ∈ (handlerOf yaml).api.groups, g.About toAtsign r ∧ ∃ d ∈ g.devices, d.name = name ∧ Q d.permitOpens :=
  comes_iff Permissions.deviceNames hadds (fun _ _ => rfl) rfl fun _ => rfl

theorem comes_deviceGroups (hadds : Adds P Q) :
    (FileBasedPolicy.make toAtsign yaml).Comes toAtsign r DaemonEntry.deviceGroupNames name P ↔
      ∃ g ∈ (handlerOf yaml).api.groups, g.About toAtsign r ∧ ∃ d ∈ g.deviceGroups, d.name = name ∧ Q d.permitOpens :=
  comes_iff Permissions.deviceGroupNames hadds (fun _ _ => rfl) rfl fun _ => rfl

theorem Permits.names {groups : List UserGroup} {devices : UserGroup → List Device} {permitOpen : String}
    (h : Permits toAtsign groups r devices name permitOpen) : Names toAtsign groups r devices name := by
  obtain ⟨g, hg, habout, d, hd, hname, -⟩ := h
  exact ⟨g, hg, habout, d, hd, hname⟩

/-- What the file's service answers: a device that is named goes before the device group. -/
theorem FileBasedPolicy.doAuthCheck_make (toAtsign : String → Option String) (yaml : List YamlGroup)
    (r : NPAAuthCheckRequest) :
    (((FileBasedPolicy.make toAtsign yaml).doAuthCheck toAtsign r).authorized = true ↔
      Names toAtsign (handlerOf yaml).api.groups r UserGroup.devices r.daemonDeviceName ∨
        Names toAtsign (handlerOf yaml).api.groups r UserGroup.deviceGroups r.daemonDeviceGroupName) ∧
    ∀ permitOpen, permitOpen ∈ ((FileBasedPolicy.make toAtsign yaml).doAuthCheck toAtsign r).permitOpen ↔
      Permits toAtsign (handlerOf yaml).api.groups r UserGroup.devices r.daemonDeviceName permitOpen ∨
        ¬Names toAtsign (handlerOf yaml).api.groups r UserGroup.devices r.daemonDeviceName ∧
          Permits toAtsign (handlerOf yaml).api.groups r UserGroup.deviceGroups r.daemonDeviceGroupName permitOpen := by
  have h := doAuthCheck_spec toAtsign (make toAtsign yaml) r
  simp only [comes_devices adds_true, comes_deviceGroups adds_true, comes_devices (adds_mem _),
    comes_deviceGroups (adds_mem _), and_true] at h
  exact h

theorem sameDecision_iff :
    SameDecision ((FileBasedPolicy.make toAtsign yaml).doAuthCheck toAtsign r) ((handlerOf yaml).doAuthCheck toAtsign r) ↔
      Undivided toAtsign (handlerOf yaml).api.groups r := by
  obtain ⟨hfile, hfilePermits⟩ := FileBasedPolicy.doAuthCheck_make toAtsign yaml r
  obtain ⟨hunion, hunionPermits⟩ := (handlerOf yaml).doAuthCheck_spec toAtsign r
  rw [SameDecision, Bool.eq_iff_iff, hfile, hunion]
  simp only [hfilePermits, hunionPermits]
  constructor
  · rintro ⟨hauthorized, hsame⟩
    refine ⟨fun hdevice => ?_, fun hdevice hgroup => ?_⟩
    · have hwithin (permitOpen : String) (hpermits : Permits toAtsign (handlerOf yaml).api.groups r
          UserGroup.deviceGroups r.daemonDeviceGroupName permitOpen) : Permits toAtsign (handlerOf yaml).api.groups r
            UserGroup.devices r.daemonDeviceName permitOpen :=
        ((hsame permitOpen).mpr (.inr hpermits)).resolve_right fun h => h.1 hdevice
      obtain ⟨permitOpen, hpermits⟩ := hauthorized.mp (.inl hdevice)
      exact ⟨⟨permitOpen, hpermits.elim id (hwithin permitOpen)⟩, hwithin⟩
    · obtain ⟨permitOpen, hpermits⟩ := hauthorized.mp (.inr hgroup)
      exact ⟨permitOpen, hpermits.resolve_left fun h => hdevice h.names⟩
  · intro h
    by_cases hdevice : Names toAtsign (handlerOf yaml).api.groups r UserGroup.devices r.daemonDeviceName
    · obtain ⟨⟨permitOpen, hpermits⟩, hwithin⟩ := h.device hdevice
      refine ⟨iff_of_true (.inl hdevice) ⟨permitOpen, .inl hpermits⟩, fun permitOpen => ?_⟩
      rw [or_iff_left fun h => h.1 hdevice, or_iff_left_of_imp (hwithin permitOpen)]
    · refine ⟨⟨fun hor => ?_, ?_⟩, fun permitOpen => ?_⟩
      · obtain ⟨permitOpen, hpermits⟩ := h.deviceGroup hdevice (hor.resolve_left hdevice)
        exact ⟨permitOpen, .inr hpermits⟩
      · rintro ⟨permitOpen, hpermits⟩
        exact hpermits.imp Permits.names Permits.names
      · rw [and_iff_right hdevice]

/-- The same groups in two services: the same daemons have rules, and the decisions are the same just where the
groups are undivided. -/
theorem agree_iff (toAtsign : String → Option String) (yaml : List YamlGroup) :
    (∀ daemonAtsign, (FileBasedPolicy.make toAtsign yaml).hasRulesFor daemonAtsign =
      (handlerOf yaml).hasRulesFor toAtsign daemonAtsign) ∧
    ∀ r, SameDecision ((FileBasedPolicy.make toAtsign yaml).doAuthCheck toAtsign r)
      ((handlerOf yaml).doAuthCheck toAtsign r) ↔ Undivided toAtsign (yaml.map YamlGroup.userGroup) r :=
  ⟨fun _ => hasRulesFor_make, fun _ => sameDecision_iff⟩

/-- Whatever names each of its devices and device groups once can stand in a file. -/
theorem exists_yaml {g : UserGroup} (hdevices : (g.devices.map Device.name).Nodup)
    (hdeviceGroups : (g.deviceGroups.map Device.name).Nodup) : ∃ y : YamlGroup, y.userGroup = g := by
  have h (devices : List Device) (hnodup : (devices.map Device.name).Nodup) :
      ∃ named : NamedLists, named.devices = devices := by
    refine ⟨some ⟨devices.map fun d => (d.name, some d.permitOpens), by rwa [List.map_map]⟩, ?_⟩
    rw [NamedLists.devices, Option.getD_some, List.map_map]
    exact List.map_id devices
  obtain ⟨devices, hd⟩ := h g.devices hdevices
  obtain ⟨deviceGroups, hg⟩ := h g.deviceGroups hdeviceGroups
  refine ⟨⟨g.userAtSigns, ⟨some g.daemonAtSigns, devices, deviceGroups⟩⟩, ?_⟩
  rw [YamlGroup.userGroup, hd, hg]
  rfl

/-- One group names the device, without permit-opens, and the device group, with one. -/
def dividedYaml : List YamlGroup :=
  [⟨["@bob"], ⟨some ["@zaphod"], some ⟨[("h2g2", none)], by decide⟩, some ⟨[("ships", some ["*:22"])], by decide⟩⟩⟩]

theorem agree_divided :
    ¬SameDecision
      ((FileBasedPolicy.make some dividedYaml).doAuthCheck some ⟨"@zaphod", "h2g2", "ships", "@bob"⟩)
      ((handlerOf dividedYaml).doAuthCheck some ⟨"@zaphod", "h2g2", "ships", "@bob"⟩) := by
  rintro ⟨-, hsame⟩
  have hfile : ((FileBasedPolicy.make some dividedYaml).doAuthCheck some
    ⟨"@zaphod", "h2g2", "ships", "@bob"⟩).permitOpen = [] := by decide
  have hunion : ((handlerOf dividedYaml).doAuthCheck some
    ⟨"@zaphod", "h2g2", "ships", "@bob"⟩).permitOpen = ["*:22"] := by decide
  have hmem := (hsame "*:22").mpr (by rw [hunion]; exact List.mem_singleton_self _)
  rw [hfile] at hmem
  exact List.not_mem_nil hmem

end NoPorts.GroupPolicies
