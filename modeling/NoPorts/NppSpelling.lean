import Mathlib.Data.List.Forall2
import NoPorts.Lib.Text
import NoPorts.NppDecision

/-! The policy decision and the spelling of atSigns: daemons are compared in canonical
form, clients as they are written. -/
namespace NoPorts.Npp
open Lib

variable (toAtsign : String → Option String)

/-- Two spellings of one atSign. -/
def SameAtsign (a b : String) : Prop := a = b ∨ (toAtsign a).isSome ∧ toAtsign a = toAtsign b

/-- Two requests that differ only in how they spell their atSigns. -/
structure NPAAuthCheckRequest.Respelled (r r' : NPAAuthCheckRequest) : Prop where
  daemonAtsign : SameAtsign toAtsign r.daemonAtsign r'.daemonAtsign
  daemonDeviceName : r.daemonDeviceName = r'.daemonDeviceName
  daemonDeviceGroupName : r.daemonDeviceGroupName = r'.daemonDeviceGroupName
  clientAtsign : SameAtsign toAtsign r.clientAtsign r'.clientAtsign

/-- Two clients that differ only in how their atSigns are spelled. -/
def Client.Respelled (x y : Client) : Prop :=
  x.id = y.id ∧ x.name = y.name ∧ SameAtsign toAtsign x.atSign y.atSign

def Daemon.Respelled (d e : Daemon) : Prop := d.id = e.id ∧ SameAtsign toAtsign d.atSign e.atSign

/-- Two caches that differ only in how the atSigns of their clients and daemons are
spelled. -/
structure NppCache.Respelled (c c' : NppCache) : Prop where
  clients : List.Forall₂ (Client.Respelled toAtsign) c.clients c'.clients
  clientGroups : c.clientGroups = c'.clientGroups
  clientGroupMembers : c.clientGroupMembers = c'.clientGroupMembers
  daemons : List.Forall₂ (Daemon.Respelled toAtsign) c.daemons c'.daemons
  services : c.services = c'.services
  serviceACLs : c.serviceACLs = c'.serviceACLs

/-- The same `authorized` and the same `permitOpen`, or no answer in both. -/
def SameDecision (x y : Except Thrown NPAAuthCheckResponse) : Prop :=
  Alike (fun a b => a.authorized = b.authorized ∧ a.permitOpen = b.permitOpen) x y

/-- The client atSigns spelled exactly as a request spells its client's stand at the same
places, or there are several of them in both. -/
def SameMatches (q q' : String) (as as' : List String) : Prop :=
  List.Forall₂ (fun a a' => a = q ↔ a' = q') as as' ∨ 2 ≤ as.count q ∧ 2 ≤ as'.count q'

/-- `d` differs from `c` in what it grants only: in the ids and names of the clients, the groups, their members
and the ACLs. -/
structure NppCache.Regranted (c d : NppCache) : Prop where
  clients : d.clients.map (·.atSign) = c.clients.map (·.atSign)
  daemons : d.daemons = c.daemons
  services : d.services = c.services

/-- No service matches the request, so its client is not looked up. -/
def NppCache.Unmatched (c : NppCache) (r : NPAAuthCheckRequest) : Prop :=
  ∀ s, c.findMatchedService toAtsign r.daemonAtsign r.daemonDeviceName r.daemonDeviceGroupName ≠ .ok (some s)

variable {toAtsign}

theorem SameAtsign.toAtsign_eq {a b : String} (h : SameAtsign toAtsign a b) :
    toAtsign a = toAtsign b := by
  rcases h with rfl | ⟨-, h⟩
  · rfl
  · exact h

theorem SameDecision.symm {x y : Except Thrown NPAAuthCheckResponse} (h : SameDecision x y) :
    SameDecision y x := by
  cases x with
  | error e =>
    cases y with
    | error e' => trivial
    | ok b => exact h.elim
  | ok a =>
    cases y with
    | error e' => exact h.elim
    | ok b => exact ⟨h.1.symm, h.2.symm⟩

theorem SameDecision.authorized_eq {x y : Except Thrown NPAAuthCheckResponse} (h : SameDecision x y) :
    x.toOption.map (·.authorized) = y.toOption.map (·.authorized) := by
  cases x with
  | error e =>
    cases y with
    | error e' => rfl
    | ok b => exact h.elim
  | ok a =>
    cases y with
    | error e' => exact h.elim
    | ok b => exact congrArg some h.1

/-! ### Where the spelling does not matter -/

namespace NppCache
variable {c c' : NppCache}

/-- Filters that choose alike leave lists that are alike. -/
theorem forall₂_filter {α β : Type*} {R : α → β → Prop} {xs : List α} {ys : List β}
    (h : List.Forall₂ R xs ys) {p : α → Bool} {q : β → Bool}
    (hpq : List.Forall₂ (fun x y => p x = q y) xs ys) :
    List.Forall₂ R (xs.filter p) (ys.filter q) := by
  induction h with
  | nil => exact .nil
  | cons hR _ ih =>
    obtain ⟨heq, hrest⟩ := List.forall₂_cons.mp hpq
    rw [List.filter_cons, List.filter_cons, heq]
    split
    · exact .cons hR (ih hrest)
    · exact ih hrest

theorem Respelled.atSigns (h : c.Respelled toAtsign c') :
    List.Forall₂ (SameAtsign toAtsign) (c.clients.map (·.atSign)) (c'.clients.map (·.atSign)) := by
  rw [List.forall₂_map_left_iff, List.forall₂_map_right_iff]
  exact h.clients.imp fun x y hxy => hxy.2.2

theorem getDaemonByAtSign_alike (h : c.Respelled toAtsign c') {a a' : String}
    (ha : SameAtsign toAtsign a a') :
    Alike (Option.Rel (Daemon.Respelled toAtsign)) (c.getDaemonByAtSign toAtsign a)
      (c'.getDaemonByAtSign toAtsign a') := by
  have hchosen : List.Forall₂ (fun d e : Daemon =>
      ((toAtsign a).isSome && toAtsign d.atSign == toAtsign a) =
        ((toAtsign a').isSome && toAtsign e.atSign == toAtsign a')) c.daemons c'.daemons := by
    refine h.daemons.imp fun d e hde => ?_
    rw [ha.toAtsign_eq, hde.2.toAtsign_eq]
  have hfilter := forall₂_filter h.daemons hchosen
  simp only [getDaemonByAtSign]
  generalize c.daemons.filter _ = xs at hfilter ⊢
  generalize c'.daemons.filter _ = ys at hfilter ⊢
  rw [hfilter.length_eq]
  split
  · trivial
  · cases hfilter with
    | nil => exact .none
    | cons hd _ => exact .some hd

theorem findMatchedService_alike (h : c.Respelled toAtsign c') {a a' : String}
    (ha : SameAtsign toAtsign a a') (deviceName deviceGroupName : String) :
    Alike (· = ·) (c.findMatchedService toAtsign a deviceName deviceGroupName)
      (c'.findMatchedService toAtsign a' deviceName deviceGroupName) := by
  have hservices : Alike (· = ·) (c.getServicesByDaemonAtSign toAtsign a)
      (c'.getServicesByDaemonAtSign toAtsign a') := by
    refine (getDaemonByAtSign_alike h ha).bind fun o o' ho => ?_
    cases ho with
    | none => rfl
    | some hd =>
      rename_i d e
      simp only [hd.1]
      cases e.id with
      | none => trivial
      | some i =>
        simp only [getServicesByDaemonId, h.services]
        rfl
  refine hservices.bind fun services services' hs => ?_
  rw [hs]
  rfl

/-- Clients that match at the same places are found alike. -/
theorem getClientByAtSign_alike (h : c.Respelled toAtsign c') {q q' : String}
    (hq : SameMatches q q' (c.clients.map (·.atSign)) (c'.clients.map (·.atSign))) :
    Alike (Option.Rel (Client.Respelled toAtsign)) (c.getClientByAtSign q)
      (c'.getClientByAtSign q') := by
  simp only [getClientByAtSign]
  rcases hq with hplaces | ⟨htwo, htwo'⟩
  · have hchosen : List.Forall₂ (fun x y : Client => (x.atSign == q) = (y.atSign == q'))
        c.clients c'.clients := by
      refine (List.forall₂_map_left_iff.mp (List.forall₂_map_right_iff.mp hplaces)).imp
        fun x y hxy => ?_
      rw [Bool.eq_iff_iff, beq_iff_eq, beq_iff_eq]
      exact hxy
    have hfilter := forall₂_filter h.clients hchosen
    generalize c.clients.filter _ = xs at hfilter ⊢
    generalize c'.clients.filter _ = ys at hfilter ⊢
    rw [hfilter.length_eq]
    split
    · trivial
    · cases hfilter with
      | nil => exact .none
      | cons hx _ => exact .some hx
  · have hcount (clients : List Client) (q : String) :
        (clients.map (·.atSign)).count q = (clients.filter (·.atSign == q)).length := by
      rw [List.count_eq_length_filter, List.filter_map, List.length_map]
      rfl
    rw [hcount] at htwo htwo'
    rw [if_pos (by omega), if_pos (by omega)]
    trivial

theorem findMatchedClientGroups_alike (h : c.Respelled toAtsign c') {q q' : String}
    (hq : SameMatches q q' (c.clients.map (·.atSign)) (c'.clients.map (·.atSign))) :
    Alike (· = ·) (c.findMatchedClientGroups q) (c'.findMatchedClientGroups q') := by
  refine (getClientByAtSign_alike h hq).bind fun o o' ho => ?_
  cases ho with
  | none => rfl
  | some hx =>
    rename_i x y
    simp only [hx.1]
    cases y.id with
    | none => trivial
    | some i =>
      simp only [getClientGroupMembersByClientId, h.clientGroupMembers, h.clientGroups]
      rfl

theorem findMatchedServiceACLs_alike (h : c.Respelled toAtsign c') {r r' : NPAAuthCheckRequest}
    (hr : r.Respelled toAtsign r')
    (hq : SameMatches r.clientAtsign r'.clientAtsign (c.clients.map (·.atSign))
      (c'.clients.map (·.atSign))) :
    Alike (· = ·)
      (c.findMatchedServiceACLs toAtsign r.clientAtsign r.daemonAtsign r.daemonDeviceName
        r.daemonDeviceGroupName)
      (c'.findMatchedServiceACLs toAtsign r'.clientAtsign r'.daemonAtsign r'.daemonDeviceName
        r'.daemonDeviceGroupName) := by
  rw [← hr.daemonDeviceName, ← hr.daemonDeviceGroupName]
  refine (findMatchedService_alike h hr.daemonAtsign _ _).bind fun o o' ho => ?_
  rw [← ho]
  cases o with
  | none => rfl
  | some s =>
    refine (findMatchedClientGroups_alike h hq).bind fun gs gs' hgs => ?_
    rw [hgs, h.serviceACLs]
    rfl

theorem doAuthCheck_of_findMatchedServiceACLs {r r' : NPAAuthCheckRequest}
    (h : Alike (· = ·)
      (c.findMatchedServiceACLs toAtsign r.clientAtsign r.daemonAtsign r.daemonDeviceName r.daemonDeviceGroupName)
      (c'.findMatchedServiceACLs toAtsign r'.clientAtsign r'.daemonAtsign r'.daemonDeviceName
        r'.daemonDeviceGroupName)) :
    SameDecision (c.doAuthCheck toAtsign r) (c'.doAuthCheck toAtsign r') := by
  refine h.bind fun acls acls' hacls => ?_
  rw [hacls]
  dsimp only
  split
  · exact ⟨rfl, rfl⟩
  · exact ⟨rfl, rfl⟩

/-- With the client's matches at the same places, the spelling decides nothing. -/
theorem doAuthCheck_alike (h : c.Respelled toAtsign c') {r r' : NPAAuthCheckRequest}
    (hr : r.Respelled toAtsign r')
    (hq : SameMatches r.clientAtsign r'.clientAtsign (c.clients.map (·.atSign))
      (c'.clients.map (·.atSign))) :
    SameDecision (c.doAuthCheck toAtsign r) (c'.doAuthCheck toAtsign r') :=
  doAuthCheck_of_findMatchedServiceACLs (findMatchedServiceACLs_alike h hr hq)

/-- Where no service matches, no client is looked up. -/
theorem doAuthCheck_unmatched (h : c.Respelled toAtsign c') {r r' : NPAAuthCheckRequest}
    (hr : r.Respelled toAtsign r') (hnone : c.Unmatched toAtsign r) :
    SameDecision (c.doAuthCheck toAtsign r) (c'.doAuthCheck toAtsign r') := by
  refine doAuthCheck_of_findMatchedServiceACLs ?_
  have hsame := findMatchedService_alike h hr.daemonAtsign r.daemonDeviceName r.daemonDeviceGroupName
  have hboth := hsame.and_left (P := fun o => o = none) fun o ho => by
    cases o with
    | none => rfl
    | some s => exact absurd ho (hnone s)
  rw [findMatchedServiceACLs, findMatchedServiceACLs, ← hr.daemonDeviceName, ← hr.daemonDeviceGroupName]
  refine hboth.bind ?_
  rintro o o' ⟨rfl, rfl⟩
  exact rfl

theorem Regranted.findMatchedService {d : NppCache} (h : c.Regranted d) (atSign deviceName deviceGroupName : String) :
    d.findMatchedService toAtsign atSign deviceName deviceGroupName =
      c.findMatchedService toAtsign atSign deviceName deviceGroupName := by
  simp only [NppCache.findMatchedService, getServicesByDaemonAtSign, getDaemonByAtSign, getServicesByDaemonId,
    h.daemons, h.services]

/-! ### Where it does -/

/-- Rules that differ from those of `c` in what they grant: the client at place `i` is in the group that may use the
service, the ids of the clients being `ids`. -/
def grantingTo (c : NppCache) (ids : ℕ → Option String) (i : ℕ) (serviceId : String) : NppCache :=
  { c with
    clients := (c.clients.map (·.atSign)).zipIdx.map fun a => ⟨ids a.2, "", a.1⟩
    clientGroups := [⟨some "g", ""⟩]
    clientGroupMembers := [⟨some "m", toString i, "g"⟩]
    serviceACLs := [⟨some "a", serviceId, "g", "*:*"⟩] }

theorem regranted_grantingTo (c : NppCache) (ids : ℕ → Option String) (i : ℕ) (serviceId : String) :
    c.Regranted (c.grantingTo ids i serviceId) where
  clients := by
    simp only [grantingTo, List.map_map, Function.comp_def]
    exact List.zipIdx_map_fst 0 _
  daemons := rfl
  services := rfl

theorem respelled_grantingTo (h : c.Respelled toAtsign c') (ids : ℕ → Option String) (i : ℕ)
    (serviceId : String) :
    (c.grantingTo ids i serviceId).Respelled toAtsign (c'.grantingTo ids i serviceId) where
  clients := by
    have has := h.atSigns
    simp only [grantingTo, List.forall₂_map_left_iff, List.forall₂_map_right_iff]
    generalize c.clients.map _ = as at has
    generalize c'.clients.map _ = as' at has
    generalize 0 = n
    induction has generalizing n with
    | nil => exact .nil
    | cons ha _ ih => exact .cons ⟨rfl, rfl, ha⟩ (ih (n + 1))
  clientGroups := rfl
  clientGroupMembers := rfl
  daemons := h.daemons
  services := h.services
  serviceACLs := rfl

/-- The clients of these rules that are spelled `q`, by their places. -/
def matched (as : List String) (q : String) : List ℕ :=
  (as.zipIdx.filter (·.1 == q)).map Prod.snd

theorem mem_matched {as : List String} {q : String} {k : ℕ} :
    k ∈ matched as q ↔ as[k]? = some q := by
  simp only [matched, List.mem_map, List.mem_filter, beq_iff_eq, Prod.exists,
    List.mem_zipIdx_iff_getElem?, exists_eq_right]

theorem length_matched (as : List String) (q : String) : (matched as q).length = as.count q := by
  have hfst := congrArg (List.count q) (List.zipIdx_map_fst 0 as)
  rw [List.count_eq_length_filter, List.filter_map, List.length_map] at hfst
  rw [← hfst, matched, List.length_map]
  rfl

theorem filter_grantingTo (c : NppCache) (ids : ℕ → Option String) (i : ℕ) (serviceId q : String) :
    (c.grantingTo ids i serviceId).clients.filter (·.atSign == q) =
      (matched (c.clients.map (·.atSign)) q).map fun k => ⟨ids k, "", q⟩ := by
  rw [grantingTo, List.filter_map, matched, List.map_map]
  refine List.map_congr_left fun a ha => ?_
  have hq : a.1 = q := by simpa using (List.mem_filter.mp ha).2
  rw [Function.comp, hq]

section
variable {ids : ℕ → Option String} {i : ℕ} {serviceId q : String} {r : NPAAuthCheckRequest} {s : Service}

/-- Several clients spelled as the request's leave it without an answer. -/
theorem getClientByAtSign_several (ids : ℕ → Option String) (i : ℕ) (serviceId : String)
    (h : 2 ≤ (c.clients.map (·.atSign)).count q) :
    ∃ e, (c.grantingTo ids i serviceId).getClientByAtSign q = .error e := by
  rw [getClientByAtSign, filter_grantingTo, List.length_map, length_matched]
  exact ⟨_, if_pos h⟩

/-- One such client at most is the one at its place. -/
theorem getClientByAtSign_few (ids : ℕ → Option String) (i : ℕ) (serviceId : String)
    (h : (c.clients.map (·.atSign)).count q ≤ 1) :
    ∃ o, (c.grantingTo ids i serviceId).getClientByAtSign q = .ok (o.map fun k => ⟨ids k, "", q⟩) ∧
      ∀ k, o = some k ↔ (c.clients.map (·.atSign))[k]? = some q := by
  rw [getClientByAtSign, filter_grantingTo, List.length_map, length_matched, List.head?_map]
  refine ⟨_, if_neg (Nat.not_lt.mpr h), fun k => ?_⟩
  rw [← length_matched] at h
  rw [← mem_matched]
  generalize matched (c.clients.map (·.atSign)) q = places at h ⊢
  rcases places with _ | ⟨k', _ | ⟨k'', rest⟩⟩
  · exact iff_of_false (Option.some_ne_none k).symm List.not_mem_nil
  · rw [List.head?_cons, Option.some_inj, List.mem_singleton, eq_comm]
  · rw [List.length_cons, List.length_cons] at h
    omega

/-- Whether a request is authorized, where a service is found for it and there is an answer. -/
theorem doAuthCheck_found {d : NppCache} (hfound : d.findMatchedService toAtsign r.daemonAtsign r.daemonDeviceName
      r.daemonDeviceGroupName = .ok (some s)) :
    (d.doAuthCheck toAtsign r).toOption.map (·.authorized) =
      (d.findMatchedClientGroups r.clientAtsign).toOption.map fun gs => d.serviceACLs.any fun a =>
        gs.any fun g => some a.clientGroupId == g.id && s.id == some a.serviceId := by
  rw [doAuthCheck, findMatchedServiceACLs, hfound, ok_bind]
  dsimp only
  cases d.findMatchedClientGroups r.clientAtsign with
  | error e => rfl
  | ok gs =>
    rw [ok_bind, pure_bind]
    split
    · rename_i hsome
      rw [Ne, List.map_eq_nil_iff, List.filter_eq_nil_iff, ← List.any_eq_false, Bool.not_eq_false] at hsome
      exact congrArg some hsome.symm
    · rename_i hnone
      rw [not_not, List.map_eq_nil_iff, List.filter_eq_nil_iff, ← List.any_eq_false] at hnone
      exact congrArg some hnone.symm

theorem doAuthCheck_several (hfound : (c.grantingTo ids i serviceId).findMatchedService toAtsign r.daemonAtsign
      r.daemonDeviceName r.daemonDeviceGroupName = .ok (some s))
    (h : 2 ≤ (c.clients.map (·.atSign)).count r.clientAtsign) :
    ((c.grantingTo ids i serviceId).doAuthCheck toAtsign r).toOption.map (·.authorized) = none := by
  obtain ⟨e, he⟩ := getClientByAtSign_several ids i serviceId h
  rw [doAuthCheck_found hfound, findMatchedClientGroups, he]
  rfl

/-- The client of these rules is in the group when its id is that of the place. -/
theorem groups_grantingTo (clientId : String) :
    (((c.grantingTo ids i serviceId).getClientGroupMembersByClientId clientId).filterMap fun m =>
      (c.grantingTo ids i serviceId).clientGroups.find? (·.id == some m.clientGroupId)) =
      if toString i = clientId then [⟨some "g", ""⟩] else [] := by
  rw [getClientGroupMembersByClientId, grantingTo, List.filter_singleton]
  by_cases hid : toString i = clientId
  · rw [if_pos hid, beq_iff_eq.mpr hid]
    rfl
  · rw [if_neg hid, beq_eq_false_iff_ne.mpr hid]
    rfl

/-- The client that is asked for is authorized when it stands at the place the rules are for. -/
theorem doAuthCheck_few (hfound : (c.grantingTo (fun k => some (toString k)) i serviceId).findMatchedService toAtsign
      r.daemonAtsign r.daemonDeviceName r.daemonDeviceGroupName = .ok (some s))
    (h : (c.clients.map (·.atSign)).count r.clientAtsign ≤ 1) :
    ((c.grantingTo (fun k => some (toString k)) i serviceId).doAuthCheck toAtsign r).toOption.map (·.authorized) =
      some (decide ((c.clients.map (·.atSign))[i]? = some r.clientAtsign ∧ s.id = some serviceId)) := by
  obtain ⟨o, ho, hplace⟩ := getClientByAtSign_few (fun k => some (toString k)) i serviceId h
  rw [doAuthCheck_found hfound, findMatchedClientGroups, ho, ok_bind]
  simp only [← hplace i]
  cases o with
  | none => rfl
  | some k =>
    simp only [Option.map_some, groups_grantingTo, toString_inj, Option.some_inj, pure, Except.pure]
    by_cases hk : i = k
    · subst hk
      rw [if_pos rfl]
      simp [grantingTo, Except.toOption, beq_eq_decide]
    · rw [if_neg hk]
      simp [grantingTo, Except.toOption, Ne.symm hk]

/-- The client that is asked for has no id when it stands at the place the rules are for. -/
theorem doAuthCheck_idless
    (hfound : (c.grantingTo (fun k => if k = i then none else some "") i serviceId).findMatchedService toAtsign
      r.daemonAtsign r.daemonDeviceName r.daemonDeviceGroupName = .ok (some s))
    (h : (c.clients.map (·.atSign)).count r.clientAtsign ≤ 1) :
    ((c.grantingTo (fun k => if k = i then none else some "") i serviceId).doAuthCheck toAtsign r).toOption.map
      (·.authorized) = none ↔ (c.clients.map (·.atSign))[i]? = some r.clientAtsign := by
  obtain ⟨o, ho, hplace⟩ := getClientByAtSign_few (fun k => if k = i then none else some "") i serviceId h
  rw [doAuthCheck_found hfound, findMatchedClientGroups, ho, ok_bind, ← hplace i]
  cases o with
  | none => exact iff_of_false (Option.some_ne_none _) (Option.some_ne_none i).symm
  | some k =>
    simp only [Option.map_some, Option.some_inj]
    by_cases hk : k = i
    · rw [if_pos hk]
      exact iff_of_true rfl hk
    · rw [if_neg hk]
      exact iff_of_false (Option.some_ne_none _) hk

/-- Where two spellings first match apart, the rules for that place tell them apart. -/
theorem exists_not_sameDecision {r' : NPAAuthCheckRequest}
    (hfound : c.findMatchedService toAtsign r.daemonAtsign r.daemonDeviceName r.daemonDeviceGroupName = .ok (some s))
    (hfound' : c'.findMatchedService toAtsign r'.daemonAtsign r'.daemonDeviceName r'.daemonDeviceGroupName =
      .ok (some s))
    (hi : (c.clients.map (·.atSign))[i]? = some r.clientAtsign)
    (hi' : (c'.clients.map (·.atSign))[i]? ≠ some r'.clientAtsign)
    (hfew : ¬(2 ≤ (c.clients.map (·.atSign)).count r.clientAtsign ∧
      2 ≤ (c'.clients.map (·.atSign)).count r'.clientAtsign)) :
    ∃ ids serviceId, ¬SameDecision ((c.grantingTo ids i serviceId).doAuthCheck toAtsign r)
      ((c'.grantingTo ids i serviceId).doAuthCheck toAtsign r') := by
  have hsame (ids : ℕ → Option String) (serviceId : String) :
      (c.grantingTo ids i serviceId).findMatchedService toAtsign r.daemonAtsign r.daemonDeviceName
          r.daemonDeviceGroupName = .ok (some s) ∧
        (c'.grantingTo ids i serviceId).findMatchedService toAtsign r'.daemonAtsign r'.daemonDeviceName
          r'.daemonDeviceGroupName = .ok (some s) :=
    ⟨((regranted_grantingTo c ids i serviceId).findMatchedService _ _ _).trans hfound,
      ((regranted_grantingTo c' ids i serviceId).findMatchedService _ _ _).trans hfound'⟩
  by_cases htwo : 2 ≤ (c.clients.map (·.atSign)).count r.clientAtsign
  · refine ⟨fun k => some (toString k), "", fun h => ?_⟩
    have hauth := h.authorized_eq
    rw [doAuthCheck_several (hsame _ _).1 htwo, doAuthCheck_few (hsame _ _).2 (by omega)] at hauth
    cases hauth
  · by_cases htwo' : 2 ≤ (c'.clients.map (·.atSign)).count r'.clientAtsign
    · refine ⟨fun k => some (toString k), "", fun h => ?_⟩
      have hauth := h.authorized_eq
      rw [doAuthCheck_several (hsame _ _).2 htwo', doAuthCheck_few (hsame _ _).1 (by omega)] at hauth
      cases hauth
    · cases hid : s.id with
      | some serviceId =>
        refine ⟨fun k => some (toString k), serviceId, fun h => ?_⟩
        have hauth := h.authorized_eq
        rw [doAuthCheck_few (hsame _ _).1 (by omega), doAuthCheck_few (hsame _ _).2 (by omega),
          decide_eq_true ⟨hi, hid⟩, decide_eq_false fun hboth => hi' hboth.1] at hauth
        cases hauth
      | none =>
        -- no ACL is for a service without an id, but a client without one is thrown for
        refine ⟨fun k => if k = i then none else some "", "", fun h => ?_⟩
        have hnone := (doAuthCheck_idless (hsame _ "").1 (by omega)).mpr hi
        rw [h.authorized_eq] at hnone
        exact hi' ((doAuthCheck_idless (hsame _ "").2 (by omega)).mp hnone)

end

theorem exists_of_not_forall₂ {α β : Type*} {R S : α → β → Prop} {xs : List α} {ys : List β}
    (h : List.Forall₂ S xs ys) (hnot : ¬List.Forall₂ R xs ys) :
    ∃ (i : ℕ) (x : α) (y : β), xs[i]? = some x ∧ ys[i]? = some y ∧ ¬R x y := by
  induction h with
  | nil => exact absurd .nil hnot
  | @cons x y xs ys _ _ ih =>
    by_cases hR : R x y
    · obtain ⟨i, x', y', hx, hy, hrest⟩ := ih fun hall => hnot (.cons hR hall)
      exact ⟨i + 1, x', y', hx, hy, hrest⟩
    · exact ⟨0, x, y, rfl, rfl, hR⟩

/-- The spelling of the atSigns decides nothing, whatever is granted, exactly when no service matches or the stored
clients match the request's at the same places. -/
theorem spelling_decides_nothing_iff {r r' : NPAAuthCheckRequest} (h : c.Respelled toAtsign c')
    (hr : r.Respelled toAtsign r') :
    (∀ d d' : NppCache, d.Respelled toAtsign d' → c.Regranted d → c'.Regranted d' →
      SameDecision (d.doAuthCheck toAtsign r) (d'.doAuthCheck toAtsign r')) ↔
    c.Unmatched toAtsign r ∨
      SameMatches r.clientAtsign r'.clientAtsign (c.clients.map (·.atSign)) (c'.clients.map (·.atSign)) := by
  constructor
  · intro hall
    by_contra hnot
    obtain ⟨hmatched, hdiffer⟩ := not_or.mp hnot
    obtain ⟨s, hfound⟩ : ∃ s, c.findMatchedService toAtsign r.daemonAtsign r.daemonDeviceName
        r.daemonDeviceGroupName = .ok (some s) := by
      simpa only [Unmatched, not_forall, not_not] using hmatched
    have hfound' := (findMatchedService_alike h hr.daemonAtsign _ _).eq_ok hfound
    rw [hr.daemonDeviceName, hr.daemonDeviceGroupName] at hfound'
    obtain ⟨hplaces, hfew⟩ := not_or.mp hdiffer
    have has := h.atSigns
    obtain ⟨i, a, a', ha, ha', hone⟩ := exists_of_not_forall₂ has hplaces
    have hdecide (ids : ℕ → Option String) (serviceId : String) :=
      hall _ _ (respelled_grantingTo h ids i serviceId) (regranted_grantingTo c ids i serviceId)
        (regranted_grantingTo c' ids i serviceId)
    -- one of the two spellings matches and the other does not
    by_cases hmatch : a = r.clientAtsign
    · have hnomatch : a' ≠ r'.clientAtsign := fun h' => hone (iff_of_true hmatch h')
      have hplace : (c'.clients.map (·.atSign))[i]? ≠ some r'.clientAtsign := by
        rw [ha']
        exact fun heq => hnomatch (Option.some.inj heq)
      obtain ⟨ids, serviceId, hnot⟩ :=
        exists_not_sameDecision hfound hfound' (ha.trans (congrArg some hmatch)) hplace hfew
      exact hnot (hdecide ids serviceId)
    · have hmatch' : a' = r'.clientAtsign := by
        by_contra hnomatch
        exact hone (iff_of_false hmatch hnomatch)
      have hplace : (c.clients.map (·.atSign))[i]? ≠ some r.clientAtsign := by
        rw [ha]
        exact fun heq => hmatch (Option.some.inj heq)
      obtain ⟨ids, serviceId, hnot⟩ :=
        exists_not_sameDecision hfound' hfound (ha'.trans (congrArg some hmatch')) hplace fun hboth => hfew hboth.symm
      exact hnot (hdecide ids serviceId).symm
  · rintro (hnone | hmatches) d d' hd hc hc'
    · refine doAuthCheck_unmatched hd hr fun s => ?_
      rw [hc.findMatchedService]
      exact hnone s
    · refine doAuthCheck_alike hd hr ?_
      rwa [hc.clients, hc'.clients]

def storedAs (clientAtSign daemonAtSign : String) : NppCache :=
  ⟨[⟨some "0", "", clientAtSign⟩], [], [], [⟨some "d", daemonAtSign⟩], [⟨some "s", "d", "office", ""⟩], []⟩

/-- Two spellings of one client's atSign, stored and asked for, in one run alike and in the other not: what is granted
for the office is told apart, and for another device nothing is. -/
theorem spelling_decides_nothing_iff_sample :
    (¬∀ d d' : NppCache, d.Respelled (fun s => some (lowerAscii s)) d' →
      (storedAs "@alice" "@device").Regranted d → (storedAs "@Alice" "@DEVICE").Regranted d' →
      SameDecision (d.doAuthCheck (fun s => some (lowerAscii s)) ⟨"@device", "office", "", "@alice"⟩)
        (d'.doAuthCheck (fun s => some (lowerAscii s)) ⟨"@Device", "office", "", "@alice"⟩)) ∧
    ∀ d d' : NppCache, d.Respelled (fun s => some (lowerAscii s)) d' →
      (storedAs "@alice" "@device").Regranted d → (storedAs "@Alice" "@DEVICE").Regranted d' →
      SameDecision (d.doAuthCheck (fun s => some (lowerAscii s)) ⟨"@device", "home", "", "@alice"⟩)
        (d'.doAuthCheck (fun s => some (lowerAscii s)) ⟨"@Device", "home", "", "@alice"⟩) := by
  have hstored : (storedAs "@alice" "@device").Respelled (fun s => some (lowerAscii s)) (storedAs "@Alice" "@DEVICE") :=
    { clients := .cons ⟨rfl, rfl, Or.inr ⟨rfl, by decide +kernel⟩⟩ .nil
      clientGroups := rfl
      clientGroupMembers := rfl
      daemons := .cons ⟨rfl, Or.inr ⟨rfl, by decide +kernel⟩⟩ .nil
      services := rfl
      serviceACLs := rfl }
  have hasked (device : String) : NPAAuthCheckRequest.Respelled (fun s => some (lowerAscii s))
      ⟨"@device", device, "", "@alice"⟩ ⟨"@Device", device, "", "@alice"⟩ :=
    ⟨Or.inr ⟨rfl, (by decide +kernel : some (lowerAscii "@device") = some (lowerAscii "@Device"))⟩, rfl, rfl,
      Or.inl rfl⟩
  constructor
  · rw [spelling_decides_nothing_iff hstored (hasked "office")]
    rintro (hnone | hplaces | ⟨htwo, -⟩)
    · exact hnone _ rfl
    · obtain ⟨hiff, -⟩ := List.forall₂_cons.mp hplaces
      exact absurd (hiff.mp rfl) (by decide)
    · exact absurd htwo (by decide)
  · refine (spelling_decides_nothing_iff hstored (hasked "home")).mpr (Or.inl fun s hfound => ?_)
    have hnone : (storedAs "@alice" "@device").findMatchedService (fun s => some (lowerAscii s)) "@device" "home" "" =
        .ok none := rfl
    cases hnone.symm.trans hfound

/-- Rules under which the client at place `i`, of those spelled `as`, may use the one
service of the daemon `daemonAtSign`. -/
def grantingAt (as : List String) (i : ℕ) (daemonAtSign : String) : NppCache where
  clients := as.zipIdx.map fun a => ⟨some (toString a.2), "", a.1⟩
  clientGroups := [⟨some "g", ""⟩]
  clientGroupMembers := [⟨some "m", toString i, "g"⟩]
  daemons := [⟨some "d", daemonAtSign⟩]
  services := [⟨some "s", "d", "", ""⟩]
  serviceACLs := [⟨some "a", "s", "g", "*:*"⟩]

/-- A client stored under another spelling than the request's is unknown. -/
theorem doAuthCheck_otherSpelling :
    lowerAscii "@Alice" = lowerAscii "@alice" ∧
    ((grantingAt ["@Alice"] 0 "@device").doAuthCheck (fun s => some (lowerAscii s))
      ⟨"@device", "", "", "@Alice"⟩).toOption.map (fun a => (a.authorized, a.permitOpen)) =
        some (true, ["*:*"]) ∧
    ((grantingAt ["@Alice"] 0 "@device").doAuthCheck (fun s => some (lowerAscii s))
      ⟨"@device", "", "", "@alice"⟩).toOption.map (fun a => (a.authorized, a.permitOpen)) =
        some (false, []) := by
  decide +kernel

end NppCache
end NoPorts.Npp
