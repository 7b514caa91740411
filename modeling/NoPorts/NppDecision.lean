import NoPorts.NppCache

/-! The decision the policy service takes on a client's access to a device. -/
namespace NoPorts.Npp
open Lib

structure NPAAuthCheckRequest where
  daemonAtsign : String
  daemonDeviceName : String
  daemonDeviceGroupName : String
  clientAtsign : String
  deriving DecidableEq, Repr

def NPAAuthCheckRequest.fromJson (json : List (String × Json)) :
    Except Thrown NPAAuthCheckRequest := do
  return { daemonAtsign := ← asString (Json.field json "daemonAtsign")
           daemonDeviceName := ← asString (Json.field json "daemonDeviceName")
           daemonDeviceGroupName := ← asString (Json.field json "daemonDeviceGroupName")
           clientAtsign := ← asString (Json.field json "clientAtsign") }

structure NPAAuthCheckResponse where
  authorized : Bool
  message : Option String
  permitOpen : List String
  deriving DecidableEq, Repr

def NPAAuthCheckResponse.toJson (r : NPAAuthCheckResponse) : List (String × Json) :=
  [("authorized", .bool r.authorized), ("message", .ofStr? r.message),
    ("permitOpen", .arr (r.permitOpen.map .str))]

namespace NppCache

/-! `toAtsign` reads a canonical atSign out of a text, `none` where the source's
throws; `canonicalAtsign` is that with the throw caught. -/
variable (toAtsign : String → Option String)

def getDaemonByAtSign (c : NppCache) (atSign : String) : Except Thrown (Option Daemon) :=
  let asked := toAtsign atSign
  let candidates := c.daemons.filter fun d => asked.isSome && toAtsign d.atSign == asked
  if candidates.length > 1 then
    .error (.exception ("Found more than one Daemon object with atSign " ++ atSign))
  else .ok candidates.head?

def getClientByAtSign (c : NppCache) (clientAtSign : String) : Except Thrown (Option Client) :=
  let candidates := c.clients.filter (·.atSign == clientAtSign)
  if candidates.length > 1 then
    .error (.exception ("Found more than one client with the same atSign in policy cache " ++
      "which should never happen"))
  else .ok candidates.head?

def getServicesByDaemonAtSign (c : NppCache) (daemonAtSign : String) :
    Except Thrown (List Service) := do
  match ← c.getDaemonByAtSign toAtsign daemonAtSign with
  | none => return []
  | some daemon =>
    match daemon.id with
    | none => throw (.exception ("Daemon with atSign " ++ daemonAtSign ++
        " has null id which should never happen"))
    | some daemonId => return c.getServicesByDaemonId daemonId

def findMatchedService (c : NppCache) (daemonAtSign deviceName deviceGroupName : String) :
    Except Thrown (Option Service) := do
  let services ← c.getServicesByDaemonAtSign toAtsign daemonAtSign
  return services.find? fun s =>
    s.deviceName == deviceName && s.deviceGroupName == deviceGroupName

def findMatchedClientGroups (c : NppCache) (clientAtSign : String) :
    Except Thrown (List ClientGroup) := do
  match ← c.getClientByAtSign clientAtSign with
  | none => return []
  | some client =>
    match client.id with
    | none => throw (.exception ("Client " ++ client.atSign ++
        " has null id which should never happen"))
    | some clientId =>
      return (c.getClientGroupMembersByClientId clientId).filterMap fun m =>
        c.clientGroups.find? (·.id == some m.clientGroupId)

def findMatchedServiceACLs (c : NppCache)
    (clientAtSign daemonAtSign deviceName deviceGroupName : String) :
    Except Thrown (List ServiceACL) := do
  match ← c.findMatchedService toAtsign daemonAtSign deviceName deviceGroupName with
  | none => return []
  | some matchedService =>
    let matchedClientGroups ← c.findMatchedClientGroups clientAtSign
    return c.serviceACLs.filter fun serviceACL => matchedClientGroups.any fun clientGroup =>
      some serviceACL.clientGroupId == clientGroup.id &&
        matchedService.id == some serviceACL.serviceId

def doAuthCheck (c : NppCache) (r : NPAAuthCheckRequest) :
    Except Thrown NPAAuthCheckResponse := do
  let matchedServiceACLs ← c.findMatchedServiceACLs toAtsign r.clientAtsign r.daemonAtsign
    r.daemonDeviceName r.daemonDeviceGroupName
  let permitOpens := matchedServiceACLs.map (·.permitOpen)
  if permitOpens ≠ [] then
    return { authorized := true
             message := some (r.clientAtsign ++ " has permission for device " ++
               r.daemonDeviceName ++ " and/or device group " ++ r.daemonDeviceGroupName ++
               " at daemon " ++ r.daemonAtsign)
             permitOpen := permitOpens }
  else
    return { authorized := false
             message := some ("No permissions for " ++ r.clientAtsign ++ " at " ++
               r.daemonAtsign ++ " for either the device " ++ r.daemonDeviceName ++
               " or the deviceGroup " ++ r.daemonDeviceGroupName)
             permitOpen := permitOpens }

/-! What the decision is for: the rules that grant a request. -/

/-- `d` is the daemon a request spells `atSign`. -/
def Names (atSign : String) (d : Daemon) : Prop :=
  (toAtsign atSign).isSome ∧ toAtsign d.atSign = toAtsign atSign

/-- `s` is a service of the request's daemon, under its device and device group. -/
def Covers (c : NppCache) (r : NPAAuthCheckRequest) (s : Service) : Prop :=
  (∃ d ∈ c.daemons, Names toAtsign r.daemonAtsign d ∧ d.id = some s.daemonId) ∧
    s.deviceName = r.daemonDeviceName ∧ s.deviceGroupName = r.daemonDeviceGroupName

/-- The client of that very atSign is in the group. -/
def IsMember (c : NppCache) (clientAtSign clientGroupId : String) : Prop :=
  ∃ m ∈ c.clientGroupMembers, m.clientGroupId = clientGroupId ∧
    ∃ x ∈ c.clients, x.atSign = clientAtSign ∧ x.id = some m.clientId

/-- The service ACL `a` grants the request. -/
def Grants (c : NppCache) (r : NPAAuthCheckRequest) (a : ServiceACL) : Prop :=
  (∃ s ∈ c.services, Covers toAtsign c r s ∧ s.id = some a.serviceId) ∧
    IsMember c r.clientAtsign a.clientGroupId

instance (atSign : String) (d : Daemon) : Decidable (Names toAtsign atSign d) :=
  inferInstanceAs (Decidable (_ ∧ _))

instance (c : NppCache) (r : NPAAuthCheckRequest) (s : Service) :
    Decidable (Covers toAtsign c r s) :=
  inferInstanceAs (Decidable (_ ∧ _ ∧ _))

instance (c : NppCache) (x g : String) : Decidable (IsMember c x g) :=
  inferInstanceAs (Decidable (∃ m ∈ c.clientGroupMembers, _))

instance (c : NppCache) (r : NPAAuthCheckRequest) : DecidablePred (Grants toAtsign c r) :=
  fun _ => inferInstanceAs (Decidable (_ ∧ _))

/-- No two daemons are the one a request spells `atSign`. -/
def OneDaemon (c : NppCache) (atSign : String) : Prop :=
  ∀ d ∈ c.daemons, ∀ e ∈ c.daemons, Names toAtsign atSign d → Names toAtsign atSign e → d = e

/-! A lookup by a key that picks out one rule at most. -/

theorem length_filter_le_one {α : Type} {xs : List α} (hn : xs.Nodup) (p : α → Bool) :
    (xs.filter p).length ≤ 1 ↔ ∀ x ∈ xs, ∀ y ∈ xs, p x = true → p y = true → x = y := by
  constructor
  · intro h x hx y hy hpx hpy
    have hx' : x ∈ xs.filter p := List.mem_filter.mpr ⟨hx, hpx⟩
    have hy' : y ∈ xs.filter p := List.mem_filter.mpr ⟨hy, hpy⟩
    rcases hf : xs.filter p with _ | ⟨a, _ | ⟨b, rest⟩⟩
    · simp [hf] at hx'
    · rw [hf, List.mem_singleton] at hx' hy'
      rw [hx', hy']
    · simp [hf] at h
  · intro h
    by_contra hlt
    rcases hf : xs.filter p with _ | ⟨a, _ | ⟨b, rest⟩⟩
    · simp [hf] at hlt
    · simp [hf] at hlt
    · have ha := List.mem_filter.mp (hf ▸ List.mem_cons_self : a ∈ xs.filter p)
      have hb := List.mem_filter.mp
        (hf ▸ List.mem_cons_of_mem a List.mem_cons_self : b ∈ xs.filter p)
      have hab := h a ha.1 b hb.1 ha.2 hb.2
      have hnf : (a :: b :: rest).Nodup := hf ▸ hn.filter p
      exact (List.nodup_cons.mp hnf).1 (hab ▸ List.mem_cons_self)

theorem head?_filter_eq_some {α : Type} {xs : List α} {p : α → Bool}
    (h : ∀ x ∈ xs, ∀ y ∈ xs, p x = true → p y = true → x = y) {a : α} :
    (xs.filter p).head? = some a ↔ a ∈ xs ∧ p a = true := by
  rw [List.head?_filter, List.find?_eq_some_iff_append]
  constructor
  · rintro ⟨hp, pre, post, rfl, -⟩
    exact ⟨by simp, hp⟩
  · rintro ⟨ha, hp⟩
    obtain ⟨pre, post, rfl, hpre⟩ := List.eq_append_cons_of_mem ha
    refine ⟨hp, pre, post, rfl, fun x hx => ?_⟩
    by_contra hpx
    have hxa := h x (by simp [hx]) a (by simp) (by simpa using hpx) hp
    exact hpre (hxa ▸ hx)

variable {toAtsign} {c : NppCache}

theorem Distinct.daemons_nodup (hc : c.Distinct) : c.daemons.Nodup := by
  have h := List.Nodup.of_map _ hc.distinct
  refine List.Nodup.of_map PolicyEntry.daemon (h.sublist ?_)
  exact (List.sublist_append_left _ _).trans ((List.sublist_append_right _ _).trans
    ((List.sublist_append_right _ _).trans (List.sublist_append_right _ _)))

theorem Distinct.clients_nodup (hc : c.Distinct) : c.clients.Nodup :=
  List.Nodup.of_map PolicyEntry.client
    ((List.Nodup.of_map _ hc.distinct).sublist (List.sublist_append_left _ _))

theorem names_iff {atSign : String} {d : Daemon} :
    ((toAtsign atSign).isSome && toAtsign d.atSign == toAtsign atSign) = true ↔
      Names toAtsign atSign d := by
  simp only [Names, Bool.and_eq_true, beq_iff_eq]

/-- The daemon lookup throws exactly when two daemons answer to the atSign. -/
theorem getDaemonByAtSign_error (hc : c.Distinct) {atSign : String}
    (h : ¬OneDaemon toAtsign c atSign) :
    c.getDaemonByAtSign toAtsign atSign =
      .error (.exception ("Found more than one Daemon object with atSign " ++ atSign)) := by
  refine if_pos ?_
  by_contra hle
  refine h fun d hd e he hdn hen => ?_
  exact (length_filter_le_one hc.daemons_nodup _).mp (Nat.le_of_not_lt hle) d hd e he
    (names_iff.mpr hdn) (names_iff.mpr hen)

theorem getDaemonByAtSign_ok (hc : c.Distinct) {atSign : String}
    (h : OneDaemon toAtsign c atSign) :
    ∃ o, c.getDaemonByAtSign toAtsign atSign = .ok o ∧
      ∀ d, o = some d ↔ d ∈ c.daemons ∧ Names toAtsign atSign d := by
  have huniq : ∀ d ∈ c.daemons, ∀ e ∈ c.daemons,
      ((toAtsign atSign).isSome && toAtsign d.atSign == toAtsign atSign) = true →
        ((toAtsign atSign).isSome && toAtsign e.atSign == toAtsign atSign) = true → d = e :=
    fun d hd e he hdn hen => h d hd e he (names_iff.mp hdn) (names_iff.mp hen)
  refine ⟨_, if_neg ?_, fun d => ?_⟩
  · exact Nat.not_lt.mpr ((length_filter_le_one hc.daemons_nodup _).mpr huniq)
  · rw [head?_filter_eq_some huniq, names_iff]

theorem getClientByAtSign_ok (hc : c.Distinct) (clientAtSign : String) :
    ∃ o, c.getClientByAtSign clientAtSign = .ok o ∧
      ∀ x, o = some x ↔ x ∈ c.clients ∧ x.atSign = clientAtSign := by
  have huniq : ∀ x ∈ c.clients, ∀ y ∈ c.clients,
      (x.atSign == clientAtSign) = true → (y.atSign == clientAtSign) = true → x = y := by
    intro x hx y hy hxa hya
    have hxy : x.atSign = y.atSign := (beq_iff_eq.mp hxa).trans (beq_iff_eq.mp hya).symm
    simpa only [PolicyEntry.client.injEq] using hc.eq_of_distinctive (mem_entries_client.mpr hx)
      (mem_entries_client.mpr hy) (by simp only [PolicyEntry.distinctive, hxy])
  refine ⟨_, if_neg ?_, fun x => ?_⟩
  · exact Nat.not_lt.mpr ((length_filter_le_one hc.clients_nodup _).mpr huniq)
  · rw [head?_filter_eq_some huniq, beq_iff_eq]

theorem findMatchedService_error (hc : c.Distinct) {r : NPAAuthCheckRequest}
    (h : ¬OneDaemon toAtsign c r.daemonAtsign) :
    ∃ e, c.findMatchedService toAtsign r.daemonAtsign r.daemonDeviceName
      r.daemonDeviceGroupName = .error e := by
  simp only [findMatchedService, getServicesByDaemonAtSign, getDaemonByAtSign_error hc h]
  exact ⟨_, rfl⟩

/-- With one daemon at most, the service found is the one that covers the request. -/
theorem findMatchedService_ok (hc : c.Distinct) {r : NPAAuthCheckRequest}
    (h : OneDaemon toAtsign c r.daemonAtsign) :
    ∃ o, c.findMatchedService toAtsign r.daemonAtsign r.daemonDeviceName
        r.daemonDeviceGroupName = .ok o ∧
      ∀ s, o = some s ↔ s ∈ c.services ∧ Covers toAtsign c r s := by
  obtain ⟨o, ho, hspec⟩ := getDaemonByAtSign_ok hc h
  simp only [findMatchedService, getServicesByDaemonAtSign, ho, ok_bind]
  cases o with
  | none =>
    refine ⟨none, rfl, fun s => ⟨by simp, ?_⟩⟩
    rintro ⟨-, ⟨d, hd, hn, -⟩, -⟩
    cases (hspec d).mpr ⟨hd, hn⟩
  | some d =>
    obtain ⟨hd, hn⟩ := (hspec d).mp rfl
    obtain ⟨i, hi⟩ : ∃ i, d.id = some i :=
      Option.ne_none_iff_exists'.mp (hc.given _ (mem_entries_daemon.mpr hd))
    refine ⟨_, by simp only [hi]; rfl, fun s => ?_⟩
    rw [← List.head?_filter, getServicesByDaemonId, List.filter_filter, head?_filter_eq_some]
    · simp only [Bool.and_eq_true, beq_iff_eq]
      constructor
      · rintro ⟨hs, ⟨hdev, hgrp⟩, hid⟩
        exact ⟨hs, ⟨d, hd, hn, hid ▸ hi⟩, hdev, hgrp⟩
      · rintro ⟨hs, ⟨d', hd', hn', hid'⟩, hdev, hgrp⟩
        obtain rfl : d' = d := Option.some.inj ((hspec d').mpr ⟨hd', hn'⟩).symm
        exact ⟨hs, ⟨hdev, hgrp⟩, Option.some.inj (hid'.symm.trans hi)⟩
    · simp only [Bool.and_eq_true, beq_iff_eq]
      rintro s hs t ht ⟨⟨h1, h2⟩, h3⟩ ⟨⟨h4, h5⟩, h6⟩
      simpa only [PolicyEntry.service.injEq] using hc.eq_of_distinctive
        (mem_entries_service.mpr hs) (mem_entries_service.mpr ht)
        (by simp only [PolicyEntry.distinctive, h1, h2, h3, h4, h5, h6])

/-- The groups found are those the client is a member of. -/
theorem findMatchedClientGroups_ok (hi : c.Integrity) (hc : c.Distinct) (clientAtSign : String) :
    ∃ gs, c.findMatchedClientGroups clientAtSign = .ok gs ∧
      ∀ id, (∃ g ∈ gs, g.id = some id) ↔ IsMember c clientAtSign id := by
  obtain ⟨o, ho, hspec⟩ := getClientByAtSign_ok hc clientAtSign
  simp only [findMatchedClientGroups, ho, ok_bind]
  cases o with
  | none =>
    refine ⟨[], rfl, fun id => ⟨fun ⟨g, hg, _⟩ => absurd hg List.not_mem_nil, ?_⟩⟩
    rintro ⟨m, -, -, x, hx, hxa, -⟩
    cases (hspec x).mpr ⟨hx, hxa⟩
  | some x =>
    obtain ⟨hx, hxa⟩ := (hspec x).mp rfl
    obtain ⟨i, hid⟩ : ∃ i, x.id = some i :=
      Option.ne_none_iff_exists'.mp (hc.given _ (mem_entries_client.mpr hx))
    refine ⟨_, by simp only [hid]; rfl, fun id => ?_⟩
    simp only [List.mem_filterMap, getClientGroupMembersByClientId, List.mem_filter, beq_iff_eq]
    constructor
    · rintro ⟨g, ⟨m, ⟨hm, hmi⟩, hfind⟩, hgid⟩
      have hg : g.id = some m.clientGroupId := by simpa using List.find?_some hfind
      exact ⟨m, hm, Option.some.inj (hg.symm.trans hgid), x, hx, hxa, hmi ▸ hid⟩
    · rintro ⟨m, hm, hmg, y, hy, hya, hyid⟩
      obtain rfl : y = x := Option.some.inj ((hspec y).mpr ⟨hy, hya⟩).symm
      obtain ⟨g, hg, hgid⟩ := (hi.members m hm).2
      have hsome : (c.clientGroups.find? (·.id == some m.clientGroupId)).isSome :=
        List.find?_isSome.mpr ⟨g, hg, by simpa using hgid⟩
      obtain ⟨g', hg'⟩ := Option.isSome_iff_exists.mp hsome
      have hid' : g'.id = some m.clientGroupId := by simpa using List.find?_some hg'
      exact ⟨g', ⟨m, ⟨hm, Option.some.inj (hyid.symm.trans hid)⟩, hg'⟩, hmg ▸ hid'⟩

theorem findMatchedServiceACLs_ok (hi : c.Integrity) (hc : c.Distinct) {r : NPAAuthCheckRequest}
    (h : OneDaemon toAtsign c r.daemonAtsign) :
    c.findMatchedServiceACLs toAtsign r.clientAtsign r.daemonAtsign r.daemonDeviceName
      r.daemonDeviceGroupName = .ok (c.serviceACLs.filter (Grants toAtsign c r)) := by
  obtain ⟨o, ho, hspec⟩ := findMatchedService_ok hc h
  simp only [findMatchedServiceACLs, ho, ok_bind]
  cases o with
  | none =>
    have hno : c.serviceACLs.filter (Grants toAtsign c r) = [] := by
      refine List.filter_eq_nil_iff.mpr fun a _ hg => ?_
      obtain ⟨⟨s, hs, hcov, -⟩, -⟩ := of_decide_eq_true hg
      cases (hspec s).mpr ⟨hs, hcov⟩
    rw [hno]
    rfl
  | some s =>
    obtain ⟨hs, hcov⟩ := (hspec s).mp rfl
    obtain ⟨gs, hgs, hgspec⟩ := findMatchedClientGroups_ok hi hc r.clientAtsign
    simp only [hgs]
    refine congrArg Except.ok (List.filter_congr fun a _ => ?_)
    rw [Bool.eq_iff_iff, decide_eq_true_iff, List.any_eq_true]
    simp only [Bool.and_eq_true, beq_iff_eq]
    constructor
    · rintro ⟨g, hg, hgid, hsid⟩
      exact ⟨⟨s, hs, hcov, hsid⟩, (hgspec _).mp ⟨g, hg, hgid.symm⟩⟩
    · rintro ⟨⟨t, ht, htcov, htid⟩, hmem⟩
      obtain rfl : t = s := Option.some.inj ((hspec t).mpr ⟨ht, htcov⟩).symm
      obtain ⟨g, hg, hgid⟩ := (hgspec _).mpr hmem
      exact ⟨g, hg, hgid.symm, htid⟩

variable (toAtsign) in
/-- The answer carries exactly the permissions granted, and `authorized` with any. -/
def Exact (c : NppCache) (r : NPAAuthCheckRequest) : Prop :=
  ∃ a, c.doAuthCheck toAtsign r = .ok a ∧
    a.permitOpen = (c.serviceACLs.filter (Grants toAtsign c r)).map (·.permitOpen) ∧
      (a.authorized = true ↔ a.permitOpen ≠ [])

theorem doAuthCheck_exact (hi : c.Integrity) (hc : c.Distinct) (r : NPAAuthCheckRequest) :
    Exact toAtsign c r ↔ OneDaemon toAtsign c r.daemonAtsign := by
  constructor
  · rintro ⟨a, ha, -⟩
    by_contra h
    obtain ⟨e, he⟩ := findMatchedService_error (r := r) hc h
    simp only [doAuthCheck, findMatchedServiceACLs, he] at ha
    cases ha
  · intro h
    simp only [Exact, doAuthCheck, findMatchedServiceACLs_ok hi hc h, ok_bind]
    split
    · rename_i hp
      exact ⟨_, rfl, rfl, iff_of_true rfl hp⟩
    · rename_i hp
      exact ⟨_, rfl, rfl, iff_of_false Bool.false_ne_true hp⟩

end NppCache
end NoPorts.Npp
