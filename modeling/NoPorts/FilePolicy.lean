import NoPorts.GroupPolicies

/-! The policy file as its YAML is read: the constructor throws where a value is not what it expects of it, and
looks at a group's devices only for a user and a daemon that are valid. -/
namespace NoPorts.FilePolicy
open Lib Npp GroupPolicies

/-- What `loadYaml` gives. -/
inductive Yaml where
  | null
  | string (s : String)
  /-- A number or a boolean. -/
  | scalar (text : String)
  | list (items : List Yaml)
  | map (entries : List (Yaml × Yaml))

namespace Yaml

def text? : Yaml → Option String
  | .string s => some s
  | _ => none

def lookup (entries : List (Yaml × Yaml)) (name : String) : Yaml :=
  ((entries.find? fun e => e.1.text? == some name).map Prod.snd).getD .null

/-- `value[name]`, `none` where that throws. -/
def index (value : Yaml) (name : String) : Option Yaml :=
  match value with
  | .map entries => some (lookup entries name)
  | _ => none

/-- `value?[name]` -/
def index? (value : Yaml) (name : String) : Option Yaml :=
  match value with
  | .null => some .null
  | value => value.index name

/-- `value ?? []` -/
def orList : Yaml → Yaml
  | .null => .list []
  | value => value

/-- `value ?? \x7b\x7d` -/
def orMap : Yaml → Yaml
  | .null => .map []
  | value => value

/-- `for (String item in value)`, and `List<String>.from(value)` -/
def strings : Yaml → Option (List String)
  | .list items => items.mapM text?
  | _ => none

/-- `for (String key in value.keys)` -/
def keys : Yaml → Option (List String)
  | .map entries => entries.mapM fun e => e.1.text?
  | _ => none

end Yaml

/-! ### npp_file.dart -/

/-- What `named` lists under one device name or device group name is added. -/
def addDevice (named : Yaml) (devices : Table String (List String)) (deviceName : String) :
    Option (Table String (List String)) := do
  let listed ← named.index deviceName
  let permitOpens ← listed.orList.strings
  devices.update deviceName [] fun devicePermissions => some (addAll devicePermissions permitOpens)

def addDevices (named : Yaml) (devices : Table String (List String)) : Option (Table String (List String)) := do
  let names ← named.orMap.keys
  names.foldlM (addDevice named) devices

/-- What `permissions` adds to the entry of one daemon. -/
def addPermissions (permissions : Yaml) (entry : DaemonEntry) : Option DaemonEntry := do
  let named ← permissions.index "deviceNames"
  let deviceNames ← addDevices named entry.deviceNames
  let namedGroups ← permissions.index "deviceGroupNames"
  let deviceGroupNames ← addDevices namedGroups entry.deviceGroupNames
  return ⟨deviceNames, deviceGroupNames⟩

variable (toAtsign : String → Option String)

def addDaemon (permissions : Yaml) (daemons : Daemons) (rawDaemonAtSign : String) : Option Daemons :=
  match toAtsign rawDaemonAtSign with
  | none => some daemons
  | some daemonAtSign => daemons.update daemonAtSign ⟨.empty, .empty⟩ (addPermissions permissions)

/-- What a group adds to the entry of one user. -/
def addDaemons (group : Yaml) (daemons : Daemons) : Option Daemons := do
  let permissions ← group.index "permissions"
  let listed ← permissions.index "daemonAtSigns"
  let daemonAtSigns ← listed.orList.strings
  daemonAtSigns.foldlM (addDaemon toAtsign permissions) daemons

def addUser (group : Yaml) (users : Table String Daemons) (rawUserAtSign : String) : Option (Table String Daemons) :=
  match toAtsign rawUserAtSign with
  | none => some users
  | some userAtSign => users.update userAtSign .empty (addDaemons toAtsign group)

/-- One turn of the loop over the user groups. -/
def addGroup (userGroups : Yaml) (policy : FileBasedPolicy) (userGroupName : String) : Option FileBasedPolicy := do
  let group ← userGroups.index userGroupName
  let permissions ← group.index "permissions"
  let listed ← permissions.index? "daemonAtSigns"
  let daemonAtSigns ← listed.orList.strings
  let users ← group.index "userAtSigns"
  let rawUserAtSigns ← users.strings
  let userAtSigns ← rawUserAtSigns.foldlM (addUser toAtsign group) policy.userAtSigns
  return { userAtSigns, daemons := addAll policy.daemons (daemonAtSigns.filterMap toAtsign) }

/-- The constructor, `none` where it throws. -/
def fromYaml (yaml : Yaml) : Option FileBasedPolicy := do
  let userGroups ← yaml.index "userGroups"
  let names ← userGroups.keys
  names.foldlM (addGroup toAtsign userGroups) ⟨.empty, []⟩

/-! ### What the file says -/

namespace Yaml

/-- What stands under a name, null where there is nothing. -/
def field (value : Yaml) (name : String) : Yaml := (value.index name).getD .null

/-- The strings of a list. -/
def listed : Yaml → List String
  | .list items => items.filterMap text?
  | _ => []

/-- The strings that a map has values under. -/
def names : Yaml → List String
  | .map entries => entries.filterMap fun e => e.1.text?
  | _ => []

/-- Each name of a map, with what is listed under it. -/
def devices (named : Yaml) : List Device := named.names.map fun name => ⟨name, (named.field name).listed⟩

/-- A group as the record of what it lists. -/
def userGroup (group : Yaml) : UserGroup :=
  let permissions := group.field "permissions"
  { userAtSigns := (group.field "userAtSigns").listed
    daemonAtSigns := (permissions.field "daemonAtSigns").listed
    devices := (permissions.field "deviceNames").devices
    deviceGroups := (permissions.field "deviceGroupNames").devices }

def userGroups (yaml : Yaml) : List UserGroup :=
  (yaml.field "userGroups").names.map fun name => ((yaml.field "userGroups").field name).userGroup

/-! Where the constructor reads a value, it reads what the file says there. -/

theorem field_of_index {value item : Yaml} {name : String} (h : value.index name = some item) :
    value.field name = item := by
  rw [field, h, Option.getD_some]

theorem filterMap_of_mapM {α β : Type*} {f : α → Option β} {xs : List α} {ys : List β} (h : xs.mapM f = some ys) :
    xs.filterMap f = ys := by
  induction xs generalizing ys with
  | nil =>
    obtain rfl := Option.some.inj h
    rfl
  | cons x xs ih =>
    rw [List.mapM_cons] at h
    obtain ⟨y, hy, h⟩ := Option.bind_eq_some_iff.mp h
    obtain ⟨rest, hrest, h⟩ := Option.bind_eq_some_iff.mp h
    obtain rfl := Option.some.inj h
    rw [List.filterMap_cons_some hy, ih hrest]

theorem listed_of_strings {value : Yaml} {items : List String} (h : value.strings = some items) :
    value.listed = items := by
  cases value with
  | list xs => exact filterMap_of_mapM h
  | _ => cases h

theorem listed_of_orList {value : Yaml} {items : List String} (h : value.orList.strings = some items) :
    value.listed = items := by
  cases value with
  | null =>
    obtain rfl := Option.some.inj h
    rfl
  | _ => exact listed_of_strings h

theorem names_of_keys {value : Yaml} {keys : List String} (h : value.keys = some keys) : value.names = keys := by
  cases value with
  | map entries => exact filterMap_of_mapM h
  | _ => cases h

theorem names_of_orMap {value : Yaml} {keys : List String} (h : value.orMap.keys = some keys) :
    value.names = keys := by
  cases value with
  | null =>
    obtain rfl := Option.some.inj h
    rfl
  | _ => exact names_of_keys h

/-- Null has nothing under any name. -/
theorem field_of_index? {value item : Yaml} {name : String} (h : value.index? name = some item) :
    value.field name = item := by
  cases value with
  | null =>
    obtain rfl := Option.some.inj h
    rfl
  | _ => exact field_of_index h

end Yaml

/-! What a part of the constructor that returns has done, in terms of what the file says. -/

variable {toAtsign}

theorem addDevice_some {named : Yaml} {devices devices' : Table String (List String)} {name : String}
    (h : addDevice named devices name = some devices') :
    devices.update name [] (fun permitOpens => some (addAll permitOpens (named.field name).listed)) = some devices' := by
  obtain ⟨item, hitem, h⟩ := Option.bind_eq_some_iff.mp h
  obtain ⟨permitOpens, hread, h⟩ := Option.bind_eq_some_iff.mp h
  rwa [Yaml.field_of_index hitem, Yaml.listed_of_orList hread]

theorem addDevices_some {named : Yaml} {devices devices' : Table String (List String)}
    (h : addDevices named devices = some devices') : named.names.foldlM (addDevice named) devices = some devices' := by
  obtain ⟨names, hnames, h⟩ := Option.bind_eq_some_iff.mp h
  rwa [Yaml.names_of_orMap hnames]

theorem addPermissions_some {permissions : Yaml} {entry entry' : DaemonEntry}
    (h : addPermissions permissions entry = some entry') :
    addDevices (permissions.field "deviceNames") entry.deviceNames = some entry'.deviceNames ∧
      addDevices (permissions.field "deviceGroupNames") entry.deviceGroupNames = some entry'.deviceGroupNames := by
  obtain ⟨named, hnamed, h⟩ := Option.bind_eq_some_iff.mp h
  obtain ⟨deviceNames, hdevices, h⟩ := Option.bind_eq_some_iff.mp h
  obtain ⟨namedGroups, hnamedGroups, h⟩ := Option.bind_eq_some_iff.mp h
  obtain ⟨deviceGroupNames, hgroups, h⟩ := Option.bind_eq_some_iff.mp h
  obtain rfl := Option.some.inj h
  rw [Yaml.field_of_index hnamed, Yaml.field_of_index hnamedGroups]
  exact ⟨hdevices, hgroups⟩

theorem addDaemons_some {group : Yaml} {daemons daemons' : Daemons} (h : addDaemons toAtsign group daemons = some daemons') :
    group.userGroup.daemonAtSigns.foldlM (addDaemon toAtsign (group.field "permissions")) daemons = some daemons' := by
  obtain ⟨permissions, hpermissions, h⟩ := Option.bind_eq_some_iff.mp h
  obtain ⟨listed, hlisted, h⟩ := Option.bind_eq_some_iff.mp h
  obtain ⟨daemonAtSigns, hstrings, h⟩ := Option.bind_eq_some_iff.mp h
  have hatSigns : group.userGroup.daemonAtSigns = daemonAtSigns := by
    rw [Yaml.userGroup, Yaml.field_of_index hpermissions]
    dsimp only
    rw [Yaml.field_of_index hlisted, Yaml.listed_of_orList hstrings]
  rwa [hatSigns, Yaml.field_of_index hpermissions]

theorem addGroup_some {userGroups : Yaml} {policy policy' : FileBasedPolicy} {groupName : String}
    (h : addGroup toAtsign userGroups policy groupName = some policy') :
    (userGroups.field groupName).userGroup.userAtSigns.foldlM (addUser toAtsign (userGroups.field groupName))
        policy.userAtSigns = some policy'.userAtSigns ∧
      policy'.daemons =
        addAll policy.daemons ((userGroups.field groupName).userGroup.daemonAtSigns.filterMap toAtsign) := by
  obtain ⟨group, hgroup, h⟩ := Option.bind_eq_some_iff.mp h
  obtain ⟨permissions, hpermissions, h⟩ := Option.bind_eq_some_iff.mp h
  obtain ⟨listed, hlisted, h⟩ := Option.bind_eq_some_iff.mp h
  obtain ⟨daemonAtSigns, hstrings, h⟩ := Option.bind_eq_some_iff.mp h
  obtain ⟨users, husers, h⟩ := Option.bind_eq_some_iff.mp h
  obtain ⟨rawUserAtSigns, hraw, h⟩ := Option.bind_eq_some_iff.mp h
  obtain ⟨userAtSigns, hfold, h⟩ := Option.bind_eq_some_iff.mp h
  obtain rfl := Option.some.inj h
  rw [Yaml.field_of_index hgroup, Yaml.userGroup, Yaml.field_of_index hpermissions]
  dsimp only
  rw [Yaml.field_of_index husers, Yaml.listed_of_strings hraw, Yaml.field_of_index? hlisted,
    Yaml.listed_of_orList hstrings]
  exact ⟨hfold, rfl⟩

theorem fromYaml_some {yaml : Yaml} {policy : FileBasedPolicy} (h : fromYaml toAtsign yaml = some policy) :
    (yaml.field "userGroups").names.foldlM (addGroup toAtsign (yaml.field "userGroups")) ⟨.empty, []⟩ =
      some policy := by
  obtain ⟨userGroups, huserGroups, h⟩ := Option.bind_eq_some_iff.mp h
  obtain ⟨names, hnames, h⟩ := Option.bind_eq_some_iff.mp h
  rwa [Yaml.field_of_index huserGroups, Yaml.names_of_keys hnames]

/-! ### The index -/

variable {P Q : List String → Prop} (hadds : Adds P Q) {name : String}
include hadds

theorem hasAt_addDevices {devices devices' : Table String (List String)} {named : Yaml}
    (h : addDevices named devices = some devices') :
    devices'.HasAt name P ↔ devices.HasAt name P ∨ ∃ d ∈ named.devices, d.name = name ∧ Q d.permitOpens := by
  have hstep (devices : Table String (List String)) (key : String) (devices' : Table String (List String))
      (hkey : addDevice named devices key = some devices') :
      devices'.HasAt name P ↔ devices.HasAt name P ∨ name = key ∧ Q (named.field key).listed := by
    apply Table.hasAt_update (addDevice_some hkey)
    · intro permissions permissions' hadd
      obtain rfl := Option.some.inj hadd
      exact hadds.more permissions _
    · intro hnone
      exact (hadds.first _).mp ((hadds.more [] _).mpr (Or.inl hnone))
  refine (Table.foldlM_adds (P := fun devices : Table String (List String) => devices.HasAt name P) hstep
    (addDevices_some h)).trans ?_
  simp only [Yaml.devices, List.mem_map, exists_exists_and_eq_and, eq_comm (a := name)]

variable {pick : DaemonEntry → Table String (List String)} {key : String}
  (hpick : ∀ permissions entry entry', addPermissions permissions entry = some entry' →
    addDevices (permissions.field key) (pick entry) = some (pick entry'))
  (hempty : pick ⟨.empty, .empty⟩ = .empty)
include hpick hempty

/-- What a group adds to a user's entry says of a daemon, `d` its canonical atSign. -/
theorem hasAt_addDaemons {group : Yaml} {daemons daemons' : Daemons} {d : String}
    (h : addDaemons toAtsign group daemons = some daemons') :
    daemons'.HasAt d (fun e => (pick e).HasAt name P) ↔ daemons.HasAt d (fun e => (pick e).HasAt name P) ∨
      d ∈ group.userGroup.daemonAtSigns.filterMap toAtsign ∧
        ∃ dev ∈ ((group.field "permissions").field key).devices, dev.name = name ∧ Q dev.permitOpens := by
  have hstep (daemons : Daemons) (raw : String) (daemons' : Daemons)
      (hraw : addDaemon toAtsign (group.field "permissions") daemons raw = some daemons') :
      daemons'.HasAt d (fun e => (pick e).HasAt name P) ↔ daemons.HasAt d (fun e => (pick e).HasAt name P) ∨
        toAtsign raw = some d ∧
          ∃ dev ∈ ((group.field "permissions").field key).devices, dev.name = name ∧ Q dev.permitOpens := by
    rw [addDaemon] at hraw
    cases hcanonical : toAtsign raw with
    | none =>
      rw [hcanonical] at hraw
      obtain rfl := Option.some.inj hraw
      simp
    | some canonical =>
      rw [hcanonical] at hraw
      simp only [Option.some.injEq, eq_comm (b := d)]
      apply Table.hasAt_update hraw
      · intro entry entry' hentry
        exact hasAt_addDevices hadds (hpick _ entry entry' hentry)
      · intro hnone
        -- an entry that is made only now names nothing
        rw [hempty] at hnone
        exact absurd hnone (Table.not_hasAt_empty _ _)
  refine (Table.foldlM_adds (P := fun daemons : Daemons => daemons.HasAt d fun e => (pick e).HasAt name P) hstep
    (addDaemons_some h)).trans ?_
  simp only [List.mem_filterMap, ← exists_and_right, and_assoc]

/-- What the file's groups say of a user at a daemon. -/
theorem hasAt_fromYaml {yaml : Yaml} {policy : FileBasedPolicy} (h : fromYaml toAtsign yaml = some policy)
    {u d : String} {devices : UserGroup → List Device}
    (hdevices : ∀ group : Yaml, devices group.userGroup = ((group.field "permissions").field key).devices) :
    policy.userAtSigns.HasAt u (fun daemons => daemons.HasAt d fun e => (pick e).HasAt name P) ↔
      ∃ g ∈ yaml.userGroups, u ∈ g.userAtSigns.filterMap toAtsign ∧ d ∈ g.daemonAtSigns.filterMap toAtsign ∧
        ∃ dev ∈ devices g, dev.name = name ∧ Q dev.permitOpens := by
  have huser (group : Yaml) (users : Table String Daemons) (raw : String) (users' : Table String Daemons)
      (hraw : addUser toAtsign group users raw = some users') :
      users'.HasAt u (fun daemons => daemons.HasAt d fun e => (pick e).HasAt name P) ↔
        users.HasAt u (fun daemons => daemons.HasAt d fun e => (pick e).HasAt name P) ∨ toAtsign raw = some u ∧
          d ∈ group.userGroup.daemonAtSigns.filterMap toAtsign ∧
            ∃ dev ∈ devices group.userGroup, dev.name = name ∧ Q dev.permitOpens := by
    rw [addUser] at hraw
    cases hcanonical : toAtsign raw with
    | none =>
      rw [hcanonical] at hraw
      obtain rfl := Option.some.inj hraw
      simp
    | some canonical =>
      rw [hcanonical] at hraw
      simp only [Option.some.injEq, eq_comm (b := u), hdevices]
      apply Table.hasAt_update hraw
      · intro daemons daemons' hadd
        exact hasAt_addDaemons hadds hpick hempty hadd
      · intro hnone
        exact absurd hnone (Table.not_hasAt_empty _ _)
  have hgroup (policy : FileBasedPolicy) (groupName : String) (policy' : FileBasedPolicy)
      (hadd : addGroup toAtsign (yaml.field "userGroups") policy groupName = some policy') :
      policy'.userAtSigns.HasAt u (fun daemons => daemons.HasAt d fun e => (pick e).HasAt name P) ↔
        policy.userAtSigns.HasAt u (fun daemons => daemons.HasAt d fun e => (pick e).HasAt name P) ∨
          u ∈ ((yaml.field "userGroups").field groupName).userGroup.userAtSigns.filterMap toAtsign ∧
          d ∈ ((yaml.field "userGroups").field groupName).userGroup.daemonAtSigns.filterMap toAtsign ∧
            ∃ dev ∈ devices ((yaml.field "userGroups").field groupName).userGroup,
              dev.name = name ∧ Q dev.permitOpens := by
    refine (Table.foldlM_adds (P := fun users : Table String Daemons => users.HasAt u fun daemons =>
      daemons.HasAt d fun e => (pick e).HasAt name P) (huser _) (addGroup_some hadd).1).trans ?_
    simp only [List.mem_filterMap (l := Yaml.listed _), Yaml.userGroup, ← exists_and_right, and_assoc]
  refine (Table.foldlM_adds (P := fun policy : FileBasedPolicy => policy.userAtSigns.HasAt u fun daemons =>
    daemons.HasAt d fun e => (pick e).HasAt name P) hgroup (fromYaml_some h)).trans ?_
  rw [or_iff_right (Table.not_hasAt_empty _ _), Yaml.userGroups]
  simp only [List.mem_map, exists_exists_and_eq_and]

omit hadds hpick hempty

theorem hasRulesFor_fromYaml {yaml : Yaml} {policy : FileBasedPolicy} (h : fromYaml toAtsign yaml = some policy)
    {daemonAtsign : String} : policy.hasRulesFor daemonAtsign = true ↔
      ∃ g ∈ yaml.userGroups, daemonAtsign ∈ g.daemonAtSigns.filterMap toAtsign := by
  have hgroup (policy : FileBasedPolicy) (groupName : String) (policy' : FileBasedPolicy)
      (hadd : addGroup toAtsign (yaml.field "userGroups") policy groupName = some policy') :
      daemonAtsign ∈ policy'.daemons ↔ daemonAtsign ∈ policy.daemons ∨
        daemonAtsign ∈ ((yaml.field "userGroups").field groupName).userGroup.daemonAtSigns.filterMap toAtsign := by
    rw [(addGroup_some hadd).2]
    exact mem_addAll
  rw [FileBasedPolicy.hasRulesFor, List.contains_iff_mem]
  refine (Table.foldlM_adds (P := fun policy : FileBasedPolicy => daemonAtsign ∈ policy.daemons) hgroup
    (fromYaml_some h)).trans ?_
  rw [or_iff_right List.not_mem_nil, Yaml.userGroups]
  simp only [List.mem_map, exists_exists_and_eq_and]

/-! ### The decision -/

theorem nodup_addAll {xs items : List String} : (addAll xs items).Nodup ↔ xs.Nodup := by
  induction items generalizing xs with
  | nil => rfl
  | cons item items ih =>
    rw [addAll, List.foldl_cons]
    split
    · exact ih
    · rename_i hnew
      apply ih.trans
      rw [List.nodup_append, and_iff_left]
      refine ⟨List.nodup_singleton item, ?_⟩
      rintro x hx y hy rfl
      rw [List.mem_singleton.mp hy] at hx
      exact hnew (List.contains_iff_mem.mpr hx)

/-- No list comes to hold anything twice. -/
theorem adds_repeated : Adds (fun permitOpens => ¬permitOpens.Nodup) fun _ => False := by
  refine ⟨fun permitOpens items => ?_, fun items => ?_⟩
  · rw [nodup_addAll, or_false]
  · rw [nodup_addAll]
    exact iff_of_false (not_not_intro List.nodup_nil) id

variable {yaml : Yaml} {policy : FileBasedPolicy} {r : NPAAuthCheckRequest}

theorem comes_devices (h : fromYaml toAtsign yaml = some policy) (hadds : Adds P Q) :
    policy.Comes toAtsign r DaemonEntry.deviceNames name P ↔
      ∃ g ∈ yaml.userGroups, g.About toAtsign r ∧ ∃ d ∈ g.devices, d.name = name ∧ Q d.permitOpens := by
  have hpick (permissions : Yaml) (entry entry' : DaemonEntry) (hadd : addPermissions permissions entry = some entry') :
      addDevices (permissions.field "deviceNames") entry.deviceNames = some entry'.deviceNames :=
    (addPermissions_some hadd).1
  have hlisted (group : Yaml) :
      group.userGroup.devices = ((group.field "permissions").field "deviceNames").devices := rfl
  rw [FileBasedPolicy.comes_iff_hasAt, ← exists_about_iff]
  simp only [hasAt_fromYaml hadds hpick rfl h hlisted]

theorem comes_deviceGroups (h : fromYaml toAtsign yaml = some policy) (hadds : Adds P Q) :
    policy.Comes toAtsign r DaemonEntry.deviceGroupNames name P ↔
      ∃ g ∈ yaml.userGroups, g.About toAtsign r ∧ ∃ d ∈ g.deviceGroups, d.name = name ∧ Q d.permitOpens := by
  have hpick (permissions : Yaml) (entry entry' : DaemonEntry) (hadd : addPermissions permissions entry = some entry') :
      addDevices (permissions.field "deviceGroupNames") entry.deviceGroupNames = some entry'.deviceGroupNames :=
    (addPermissions_some hadd).2
  have hlisted (group : Yaml) :
      group.userGroup.deviceGroups = ((group.field "permissions").field "deviceGroupNames").devices := rfl
  rw [FileBasedPolicy.comes_iff_hasAt, ← exists_about_iff]
  simp only [hasAt_fromYaml hadds hpick rfl h hlisted]

/-- No entry that the request comes to holds a permit-open twice. -/
theorem not_comes_repeated (h : fromYaml toAtsign yaml = some policy) :
    ¬policy.Comes toAtsign r DaemonEntry.deviceNames name (fun permitOpens => ¬permitOpens.Nodup) ∧
      ¬policy.Comes toAtsign r DaemonEntry.deviceGroupNames name fun permitOpens => ¬permitOpens.Nodup := by
  rw [comes_devices h adds_repeated, comes_deviceGroups h adds_repeated]
  constructor
  · rintro ⟨g, -, -, d, -, -, hfalse⟩
    exact hfalse
  · rintro ⟨g, -, -, d, -, -, hfalse⟩
    exact hfalse

/-- What is answered is the list of an entry that the request comes to, or nothing. -/
theorem permitOpen_cases (policy : FileBasedPolicy) (r : NPAAuthCheckRequest) :
    (policy.doAuthCheck toAtsign r).permitOpen = [] ∨
      policy.Comes toAtsign r DaemonEntry.deviceNames r.daemonDeviceName
        (· = (policy.doAuthCheck toAtsign r).permitOpen) ∨
      policy.Comes toAtsign r DaemonEntry.deviceGroupNames r.daemonDeviceGroupName
        (· = (policy.doAuthCheck toAtsign r).permitOpen) := by
  unfold FileBasedPolicy.doAuthCheck FileBasedPolicy.Comes
  cases hclient : (toAtsign r.clientAtsign).bind policy.userAtSigns.get? with
  | none => exact Or.inl rfl
  | some clientEntry =>
    cases hdaemon : (toAtsign r.daemonAtsign).bind clientEntry.get? with
    | none => simp [hdaemon]
    | some daemonEntry =>
      cases hdevice : daemonEntry.deviceNames.get? r.daemonDeviceName with
      | some permitOpens => simp [hdaemon, Table.HasAt, hdevice]
      | none =>
        cases hgroup : daemonEntry.deviceGroupNames.get? r.daemonDeviceGroupName with
        | some permitOpens => simp [hdaemon, Table.HasAt, hdevice, hgroup]
        | none => simp [hdaemon, hdevice, hgroup]

theorem nodup_permitOpen (h : fromYaml toAtsign yaml = some policy) :
    (policy.doAuthCheck toAtsign r).permitOpen.Nodup := by
  by_contra hrepeated
  rcases @permitOpen_cases toAtsign policy r with hnil | hcomes | hcomes
  · rw [hnil] at hrepeated
    exact hrepeated List.nodup_nil
  · apply (not_comes_repeated h).1
    obtain ⟨clientEntry, daemonEntry, hclient, hdaemon, permitOpens, hget, rfl⟩ := hcomes
    exact ⟨clientEntry, daemonEntry, hclient, hdaemon, _, hget, hrepeated⟩
  · apply (not_comes_repeated h).2
    obtain ⟨clientEntry, daemonEntry, hclient, hdaemon, permitOpens, hget, rfl⟩ := hcomes
    exact ⟨clientEntry, daemonEntry, hclient, hdaemon, _, hget, hrepeated⟩

/-- Every file that the constructor accepts is decided by its groups about the request: it is authorised
where one names the device or the device group, with what they list for the device, or, where none names
it, for the device group. -/
theorem doAuthCheck_fromYaml (toAtsign : String → Option String) {yaml : Yaml} {policy : FileBasedPolicy}
    (h : fromYaml toAtsign yaml = some policy) (r : NPAAuthCheckRequest) :
    ((policy.doAuthCheck toAtsign r).authorized = true ↔ ∃ g ∈ yaml.userGroups, g.About toAtsign r ∧
      ((∃ d ∈ g.devices, d.name = r.daemonDeviceName) ∨ ∃ d ∈ g.deviceGroups, d.name = r.daemonDeviceGroupName)) ∧
    (policy.doAuthCheck toAtsign r).permitOpen.Nodup ∧
    (Names toAtsign yaml.userGroups r UserGroup.devices r.daemonDeviceName →
      ∀ permitOpen, permitOpen ∈ (policy.doAuthCheck toAtsign r).permitOpen ↔
        Permits toAtsign yaml.userGroups r UserGroup.devices r.daemonDeviceName permitOpen) ∧
    (¬Names toAtsign yaml.userGroups r UserGroup.devices r.daemonDeviceName →
      ∀ permitOpen, permitOpen ∈ (policy.doAuthCheck toAtsign r).permitOpen ↔
        Permits toAtsign yaml.userGroups r UserGroup.deviceGroups r.daemonDeviceGroupName permitOpen) ∧
    ((policy.doAuthCheck toAtsign r).authorized = true →
      ∃ daemonAtsign, toAtsign r.daemonAtsign = some daemonAtsign ∧ policy.hasRulesFor daemonAtsign = true) := by
  obtain ⟨hauthorized, hpermitOpen⟩ := FileBasedPolicy.doAuthCheck_spec toAtsign policy r
  simp only [comes_devices h adds_true, comes_deviceGroups h adds_true, and_true] at hauthorized
  simp only [comes_devices h adds_true, comes_devices h (adds_mem _), comes_deviceGroups h (adds_mem _),
    and_true] at hpermitOpen
  refine ⟨?_, nodup_permitOpen h, fun hnames permitOpen => ?_, fun hnames permitOpen => ?_, fun hauth => ?_⟩
  · rw [hauthorized, ← exists_or]
    simp only [← and_or_left]
  · rw [hpermitOpen]
    exact or_iff_left fun hgroup => hgroup.1 hnames
  · have hdevice : ¬Permits toAtsign yaml.userGroups r UserGroup.devices r.daemonDeviceName permitOpen :=
      fun hpermits => hnames hpermits.names
    exact (hpermitOpen permitOpen).trans ((or_iff_right hdevice).trans (and_iff_right hnames))
  · have habout : ∃ g ∈ yaml.userGroups, g.About toAtsign r := by
      rcases hauthorized.mp hauth with ⟨g, hg, habout, -⟩ | ⟨g, hg, habout, -⟩
      · exact ⟨g, hg, habout⟩
      · exact ⟨g, hg, habout⟩
    obtain ⟨g, hg, habout⟩ := habout
    obtain ⟨daemonAtsign, hcanonical, hmem⟩ := habout.daemon
    exact ⟨daemonAtsign, hcanonical, (hasRulesFor_fromYaml h).mpr ⟨g, hg, hmem⟩⟩

/-! ### Groups written as YAML -/

namespace Yaml

def ofStrings (items : List String) : Yaml := .list (items.map .string)

/-- A table with what `value` makes of each entry. -/
def ofTable {α : Type*} (value : α → Yaml) (t : Table String α) : Yaml :=
  .map (t.entries.map fun e => (.string e.1, value e.2))

def ofOption {α : Type*} (value : α → Yaml) (x : Option α) : Yaml := (x.map value).getD .null

def ofNamed (named : NamedLists) : Yaml := ofOption (ofTable (ofOption ofStrings)) named

def ofPermissions (p : Permissions) : Yaml :=
  .map [(.string "daemonAtSigns", ofOption ofStrings p.daemonAtSigns),
    (.string "deviceNames", ofNamed p.deviceNames), (.string "deviceGroupNames", ofNamed p.deviceGroupNames)]

def ofGroup (g : YamlGroup) : Yaml :=
  .map [(.string "userAtSigns", ofStrings g.userAtSigns), (.string "permissions", ofPermissions g.permissions)]

def ofGroups (groups : Table String YamlGroup) : Yaml := .map [(.string "userGroups", ofTable ofGroup groups)]

theorem mapM_some {α β : Type*} {f : α → Option β} {g : β → α} (h : ∀ b, f (g b) = some b) (bs : List β) :
    (bs.map g).mapM f = some bs := by
  induction bs with
  | nil => rfl
  | cons b bs ih =>
    rw [List.map_cons, List.mapM_cons, h, ih]
    rfl

theorem strings_ofStrings (items : List String) : (ofStrings items).strings = some items :=
  mapM_some (f := text?) (g := Yaml.string) (fun _ => rfl) items

theorem orList_ofStrings (listed : Option (List String)) :
    (ofOption ofStrings listed).orList.strings = some (listed.getD []) := by
  cases listed with
  | none => rfl
  | some items => exact strings_ofStrings items

theorem keys_ofTable {α : Type*} (value : α → Yaml) (t : Table String α) : (ofTable value t).keys = some t.keys := by
  rw [ofTable, keys, Table.keys, List.mapM_map]
  have h := mapM_some (f := text?) (g := Yaml.string) (fun _ => rfl) (t.entries.map Prod.fst)
  rwa [List.mapM_map, List.mapM_map] at h

theorem index_ofTable {α : Type*} {value : α → Yaml} {t : Table String α} {name : String} {a : α}
    (h : (name, a) ∈ t.entries) : (ofTable value t).index name = some (value a) := by
  have hget := Table.mem_entries_iff.mp h
  rw [Table.get?] at hget
  obtain ⟨e, hfind, rfl⟩ := Option.map_eq_some_iff.mp hget
  have hsame : ((fun e : Yaml × Yaml => e.1.text? == some name) ∘ fun e : String × α => (.string e.1, value e.2)) =
      fun e => decide (e.1 = name) := by
    funext e
    exact beq_eq_decide (some e.1) (some name) |>.trans (by simp)
  rw [ofTable, index, lookup, List.find?_map, hsame, hfind]
  rfl

/-- The turns of a loop over a table's names, each with what the table holds. -/
theorem foldlM_keys {α β : Type*} {t : Table String α} {step : β → String → Option β} {f : β → String × α → β}
    (h : ∀ b, ∀ e ∈ t.entries, step b e.1 = some (f b e)) (b : β) :
    t.keys.foldlM step b = some (t.entries.foldl f b) := by
  rw [Table.keys, List.foldlM_map]
  exact Table.foldlM_eq_some h b

end Yaml

theorem addDevices_ofNamed (named : NamedLists) (devices : Table String (List String)) :
    addDevices (.ofNamed named) devices = some (GroupPolicies.addDevices devices named) := by
  cases named with
  | none => rfl
  | some t =>
    have hkeys : (Yaml.ofNamed (some t)).orMap.keys = some t.keys := Yaml.keys_ofTable _ t
    rw [addDevices, hkeys]
    apply Yaml.foldlM_keys
    intro devices e he
    have hindex : (Yaml.ofNamed (some t)).index e.1 = some _ := Yaml.index_ofTable he
    simp only [addDevice, hindex, Yaml.orList_ofStrings, Option.bind_eq_bind, Option.bind_some]
    exact Table.update_some _ _ _ fun _ => rfl

theorem addPermissions_ofPermissions (p : Permissions) (entry : DaemonEntry) :
    addPermissions (.ofPermissions p) entry =
      some ⟨GroupPolicies.addDevices entry.deviceNames p.deviceNames,
        GroupPolicies.addDevices entry.deviceGroupNames p.deviceGroupNames⟩ := by
  have hdevices : (Yaml.ofPermissions p).index "deviceNames" = some (.ofNamed p.deviceNames) := rfl
  have hgroups : (Yaml.ofPermissions p).index "deviceGroupNames" = some (.ofNamed p.deviceGroupNames) := rfl
  simp only [addPermissions, hdevices, hgroups, addDevices_ofNamed, Option.bind_eq_bind, Option.bind_some]
  rfl

theorem addDaemon_ofPermissions (p : Permissions) (daemons : Daemons) (raw : String) :
    addDaemon toAtsign (.ofPermissions p) daemons raw = some (GroupPolicies.addDaemon toAtsign p daemons raw) := by
  rw [addDaemon, GroupPolicies.addDaemon]
  cases toAtsign raw with
  | none => rfl
  | some daemonAtSign => exact Table.update_some _ _ _ fun entry => addPermissions_ofPermissions p entry

theorem addUser_ofGroup (g : YamlGroup) (users : Table String Daemons) (raw : String) :
    addUser toAtsign (.ofGroup g) users raw = some (GroupPolicies.addUser toAtsign g.permissions users raw) := by
  have hpermissions : (Yaml.ofGroup g).index "permissions" = some (.ofPermissions g.permissions) := rfl
  have hdaemons : (Yaml.ofPermissions g.permissions).index "daemonAtSigns" =
      some (.ofOption .ofStrings g.permissions.daemonAtSigns) := rfl
  rw [addUser, GroupPolicies.addUser]
  cases toAtsign raw with
  | none => rfl
  | some userAtSign =>
    apply Table.update_some
    intro daemons
    simp only [addDaemons, hpermissions, hdaemons, Yaml.orList_ofStrings, Option.bind_eq_bind, Option.bind_some]
    apply Table.foldlM_eq_some
    intro daemons raw _
    exact addDaemon_ofPermissions g.permissions daemons raw

theorem addGroup_ofTable {groups : Table String YamlGroup} {e : String × YamlGroup} (he : e ∈ groups.entries)
    (policy : FileBasedPolicy) :
    addGroup toAtsign (.ofTable .ofGroup groups) policy e.1 = some (policy.addGroup toAtsign e.2) := by
  have hpermissions : (Yaml.ofGroup e.2).index "permissions" = some (.ofPermissions e.2.permissions) := rfl
  have hdaemons : (Yaml.ofPermissions e.2.permissions).index? "daemonAtSigns" =
      some (.ofOption .ofStrings e.2.permissions.daemonAtSigns) := rfl
  have husers : (Yaml.ofGroup e.2).index "userAtSigns" = some (.ofStrings e.2.userAtSigns) := rfl
  have hfold : e.2.userAtSigns.foldlM (addUser toAtsign (.ofGroup e.2)) policy.userAtSigns = some _ :=
    Table.foldlM_eq_some (fun users raw _ => addUser_ofGroup e.2 users raw) policy.userAtSigns
  simp only [addGroup, Yaml.index_ofTable he, hpermissions, hdaemons, Yaml.orList_ofStrings, husers,
    Yaml.strings_ofStrings, hfold, Option.bind_eq_bind, Option.bind_some]
  rfl

/-- Groups that are written as YAML make the policy that is made of them. -/
theorem fromYaml_ofGroups (toAtsign : String → Option String) (groups : Table String YamlGroup) :
    fromYaml toAtsign (.ofGroups groups) = some (FileBasedPolicy.make toAtsign groups.values) := by
  have hindex : (Yaml.ofGroups groups).index "userGroups" = some (.ofTable .ofGroup groups) := rfl
  simp only [fromYaml, hindex, Yaml.keys_ofTable, Option.bind_eq_bind, Option.bind_some]
  rw [FileBasedPolicy.make, Table.values, List.foldl_map]
  apply Yaml.foldlM_keys
  intro policy e he
  exact addGroup_ofTable he policy

/-! ### A file with two groups -/

/-- The second group has no users, so that its device names are no map is not seen. -/
def samplePolicy : Yaml :=
  .map [(.string "userGroups", .map [
    (.string "api_users", .map [
      (.string "userAtSigns", .list [.string "@alice", .string "@bob"]),
      (.string "permissions", .map [
        (.string "daemonAtSigns", .list [.string "@zaphod"]),
        (.string "deviceNames", .map [(.string "h2g2", .list [.string "localhost:3000", .string "localhost:3000"])])])]),
    (.string "closed", .map [
      (.string "userAtSigns", .list []),
      (.string "permissions", .map [
        (.string "daemonAtSigns", .list [.string "@marvin"]), (.string "deviceNames", .string "none")])])])]

def sampleRequest : NPAAuthCheckRequest := ⟨"@zaphod", "h2g2", "ships", "@bob"⟩

/-- Groups of which both name the device, and one its device group. -/
def sampleGroups : Table String YamlGroup :=
  ⟨[("api_users", ⟨["@alice", "@bob"],
      ⟨some ["@zaphod"], some ⟨[("h2g2", some ["localhost:3000", "localhost:3000"])], List.nodup_singleton _⟩, none⟩⟩),
    ("crew", ⟨["@bob"], ⟨some ["@zaphod", "@marvin"], some ⟨[("h2g2", some ["*:443"])], List.nodup_singleton _⟩,
      some ⟨[("ships", some ["*:22"])], List.nodup_singleton _⟩⟩⟩)],
    List.nodup_cons.mpr ⟨List.not_mem_cons_of_ne_of_not_mem (by decide) List.not_mem_nil, List.nodup_singleton _⟩⟩

theorem doAuthCheck_fromYaml_sample :
    (∃ policy, fromYaml some samplePolicy = some policy ∧
      (policy.doAuthCheck some sampleRequest).permitOpen = ["localhost:3000"] ∧
      ((policy.doAuthCheck some sampleRequest).authorized = true ↔ ∃ g ∈ samplePolicy.userGroups,
        g.About some sampleRequest ∧ ((∃ d ∈ g.devices, d.name = "h2g2") ∨ ∃ d ∈ g.deviceGroups, d.name = "ships")) ∧
      ((policy.doAuthCheck some sampleRequest).authorized = true →
        ∃ daemonAtsign, some "@zaphod" = some daemonAtsign ∧ policy.hasRulesFor daemonAtsign = true)) ∧
    ((FileBasedPolicy.make some sampleGroups.values).doAuthCheck some sampleRequest).permitOpen =
        ["localhost:3000", "*:443"] ∧
      (((FileBasedPolicy.make some sampleGroups.values).doAuthCheck some sampleRequest).authorized = true ↔
        ∃ g ∈ (Yaml.ofGroups sampleGroups).userGroups, g.About some sampleRequest ∧
          ((∃ d ∈ g.devices, d.name = "h2g2") ∨ ∃ d ∈ g.deviceGroups, d.name = "ships")) := by
  have hread : fromYaml some samplePolicy = some _ := rfl
  have hwritten := fromYaml_ofGroups some sampleGroups
  obtain ⟨hauthorized, -, -, -, hrules⟩ := doAuthCheck_fromYaml some hread sampleRequest
  obtain ⟨hgroups, -⟩ := doAuthCheck_fromYaml some hwritten sampleRequest
  exact ⟨⟨_, hread, by decide, hauthorized, hrules⟩, by decide, hgroups⟩

end NoPorts.FilePolicy
