import NoPorts.NppCache

/-! The rules a store is left with once every rule that names a missing one has gone. -/
namespace NoPorts.Npp
open Lib

namespace NppCache

/-- The object is gone from its set. -/
def remove (c : NppCache) : PolicyEntry → NppCache
  | .client x => { c with clients := c.clients.erase x }
  | .clientGroup x => { c with clientGroups := c.clientGroups.erase x }
  | .clientGroupMember x => { c with clientGroupMembers := c.clientGroupMembers.erase x }
  | .daemon x => { c with daemons := c.daemons.erase x }
  | .service x => { c with services := c.services.erase x }
  | .serviceACL x => { c with serviceACLs := c.serviceACLs.erase x }

/-- One turn of the loop over the rules of a kind. -/
def removeIfMissing (kind : Kind) (acc : List (String × PolicyEntry × List String) × NppCache)
    (rule : PolicyEntry) : List (String × PolicyEntry × List String) × NppCache :=
  let missing := acc.2.missingReferences rule
  if missing = [] then acc else (acc.1 ++ [(kind.target, rule, missing)], acc.2.remove rule)

/-- `removeRulesNamingMissing`, rule by rule. -/
def removeEachNamingMissing (c : NppCache) : List (String × PolicyEntry × List String) × NppCache :=
  [Kind.service, .serviceACL, .clientGroupMember].foldl
    (fun acc kind => (acc.2.rules kind).foldl (removeIfMissing kind) acc) ([], c)

/-- Rules of `c`, each in its place. -/
structure Sub (s c : NppCache) : Prop where
  clients : s.clients.Sublist c.clients
  clientGroups : s.clientGroups.Sublist c.clientGroups
  clientGroupMembers : s.clientGroupMembers.Sublist c.clientGroupMembers
  daemons : s.daemons.Sublist c.daemons
  services : s.services.Sublist c.services
  serviceACLs : s.serviceACLs.Sublist c.serviceACLs

/-- A rule is held under the kind and id that each of the entry's references names. -/
def Resolves (c : NppCache) (e : PolicyEntry) : Prop := ∀ k ∈ e.names, ∃ t ∈ c.entries, t.key = k

def Resolved (c : NppCache) : Prop := ∀ e ∈ c.entries, c.Resolves e

/-- The kinds and ids the entry names under which nothing is held. -/
def lacking (c : NppCache) (e : PolicyEntry) : List PolicyEntry.Key :=
  e.names.filter fun k => ∀ t ∈ c.entries, t.key ≠ k

/-- `<kind> with id <id>` -/
def described (k : PolicyEntry.Key) : String := k.1.target ++ " with id " ++ k.2.getD "null"

/-- `left` is the largest part of `c` in which every reference resolves, and `removed` lists the rest, each rule with
what it named that is not left. -/
structure Pruned (c : NppCache) (removed : List (String × PolicyEntry × List String)) (left : NppCache) : Prop where
  sub : left.Sub c
  resolved : left.Resolved
  missing : ∀ e ∈ left.entries, left.missingReferences e = []
  largest : ∀ s : NppCache, s.Sub c → s.Resolved → s.Sub left
  /-- Every rule is left or listed, and once. -/
  exact : c.entries.Perm (left.entries ++ removed.map (·.2.1))
  listed : ∀ r ∈ removed, r.1 = r.2.1.kind.target ∧ left.lacking r.2.1 ≠ [] ∧
    r.2.2 = (left.lacking r.2.1).map described

/-! ### What is missing -/

theorem resolves_iff {c : NppCache} {e : PolicyEntry} : c.Resolves e ↔ c.missingReferences e = [] :=
  ⟨missingReferences_eq_nil, missingReferences_nil⟩

/-- One call of `need` is one name looked for. -/
theorem need_eq (c : NppCache) {α : Type} {rules : List α} {idOf : α → Option String} {kind : Kind} (id : String)
    (hheld : (∃ t ∈ c.entries, t.key = (kind, some id)) ↔ ∃ rule ∈ rules, idOf rule = some id) :
    need rules idOf kind.target id =
      ([(kind, some id)].filter fun k => ∀ t ∈ c.entries, t.key ≠ k).map described := by
  rw [List.filter_singleton]
  by_cases hmem : ∃ t ∈ c.entries, t.key = (kind, some id)
  · have hnot : ¬∀ t ∈ c.entries, t.key ≠ (kind, some id) := by
      intro hall
      obtain ⟨t, ht, hkey⟩ := hmem
      exact hall t ht hkey
    rw [need, if_pos (hheld.mp hmem), decide_eq_false hnot]
    rfl
  · have hall : ∀ t ∈ c.entries, t.key ≠ (kind, some id) := fun t ht hkey => hmem ⟨t, ht, hkey⟩
    rw [need, if_neg (fun h => hmem (hheld.mpr h)), decide_eq_true hall]
    rfl

theorem missingReferences_eq_lacking (c : NppCache) (e : PolicyEntry) :
    c.missingReferences e = (c.lacking e).map described := by
  have hpair (a b : PolicyEntry.Key) (p : PolicyEntry.Key → Bool) : [a, b].filter p = [a].filter p ++ [b].filter p :=
    List.filter_append (p := p) [a] [b]
  cases e with
  | clientGroupMember m =>
    have hclient := c.need_eq m.clientId (c.exists_entry_iff .client _)
    have hgroup := c.need_eq m.clientGroupId (c.exists_entry_iff .clientGroup _)
    rw [lacking, PolicyEntry.names, hpair, List.map_append, ← hclient, ← hgroup]
    rfl
  | service x => exact c.need_eq x.daemonId (c.exists_entry_iff .daemon _)
  | serviceACL a =>
    have hservice := c.need_eq a.serviceId (c.exists_entry_iff .service _)
    have hgroup := c.need_eq a.clientGroupId (c.exists_entry_iff .clientGroup _)
    rw [lacking, PolicyEntry.names, hpair, List.map_append, ← hservice, ← hgroup]
    rfl
  | client x => rfl
  | clientGroup x => rfl
  | daemon x => rfl

/-! ### The loops -/

/-- A loop over what a set held when it began takes from the set each `a` that fails `p`, and lists it. -/
theorem foldl_erase {α β : Type} [DecidableEq α] (p : α → Bool) (f : α → β) (l pre : List α) (acc : List β) :
    l.foldl (fun acc a => if p a then acc else (acc.1 ++ [f a], acc.2.erase a)) (acc, pre.filter p ++ l) =
      (acc ++ (l.filter fun a => !p a).map f, (pre ++ l).filter p) := by
  induction l generalizing pre acc with
  | nil => simp
  | cons a l ih =>
    rw [List.foldl_cons]
    by_cases ha : p a = true
    · have hpre : pre.filter p ++ a :: l = (pre ++ [a]).filter p ++ l := by simp [ha]
      rw [if_pos ha, hpre, ih (pre ++ [a])]
      simp [ha]
    · have ha : p a = false := Bool.eq_false_iff.mpr ha
      have hnot : a ∉ pre.filter p := fun hmem => by
        rw [List.mem_filter, ha] at hmem
        exact Bool.false_ne_true hmem.2
      have hpre : pre.filter p = (pre ++ [a]).filter p := by simp [ha]
      rw [if_neg (by rw [ha]; exact Bool.false_ne_true), List.erase_append_right _ hnot, List.erase_cons_head, hpre,
        ih (pre ++ [a])]
      simp [ha]

/-- The loop over one kind, whose rules name none of their own kind: `put` is the cache with that set changed. -/
theorem foldl_removeIfMissing {α : Type} [DecidableEq α] (entry : α → PolicyEntry) (put : List α → NppCache)
    (missing : α → List String) (hmissing : ∀ xs a, (put xs).missingReferences (entry a) = missing a)
    (hremove : ∀ xs a, (put xs).remove (entry a) = put (xs.erase a)) (kind : Kind) (l : List α)
    (acc : List (String × PolicyEntry × List String)) :
    (l.map entry).foldl (removeIfMissing kind) (acc, put l) =
      (acc ++ (l.filter fun a => missing a ≠ []).map fun a => (kind.target, entry a, missing a),
        put (l.filter fun a => missing a = [])) := by
  let turn (state : List (String × PolicyEntry × List String) × List α) (a : α) :=
    if decide (missing a = []) then state else (state.1 ++ [(kind.target, entry a, missing a)], state.2.erase a)
  have hturn (state : List (String × PolicyEntry × List String) × List α) (a : α) :
      removeIfMissing kind (Prod.map id put state) (entry a) = Prod.map id put (turn state a) := by
    simp only [removeIfMissing, Prod.map, hmissing, hremove, turn]
    by_cases ha : missing a = []
    · rw [if_pos ha, if_pos (decide_eq_true ha)]
    · rw [if_neg ha, if_neg (by rwa [decide_eq_true_iff])]
      rfl
  have hhom := @List.foldl_hom _ _ _ (Prod.map id put) turn (fun state a => removeIfMissing kind state (entry a)) l
    (acc, l) hturn
  have hloop := foldl_erase (fun a => decide (missing a = [])) (fun a => (kind.target, entry a, missing a)) l [] acc
  rw [List.filter_nil, List.nil_append] at hloop
  rw [List.foldl_map]
  refine hhom.trans ?_
  rw [hloop]
  simp [Prod.map]

theorem foldl_service (c : NppCache) (acc : List (String × PolicyEntry × List String)) :
    (c.rules .service).foldl (removeIfMissing .service) (acc, c) = (acc ++ c.namingMissing .service,
      { c with services := c.services.filter fun s => c.missingReferences (.service s) = [] }) := by
  have hloop := foldl_removeIfMissing .service (fun services => { c with services })
    (fun s => c.missingReferences (.service s)) (fun _ _ => rfl) (fun _ _ => rfl) .service c.services acc
  refine hloop.trans ?_
  rw [namingMissing, rules, List.filter_map, List.map_map]
  rfl

theorem foldl_serviceACL (c : NppCache) (acc : List (String × PolicyEntry × List String)) :
    (c.rules .serviceACL).foldl (removeIfMissing .serviceACL) (acc, c) = (acc ++ c.namingMissing .serviceACL,
      { c with serviceACLs := c.serviceACLs.filter fun a => c.missingReferences (.serviceACL a) = [] }) := by
  have hloop := foldl_removeIfMissing .serviceACL (fun serviceACLs => { c with serviceACLs })
    (fun a => c.missingReferences (.serviceACL a)) (fun _ _ => rfl) (fun _ _ => rfl) .serviceACL
    c.serviceACLs acc
  refine hloop.trans ?_
  rw [namingMissing, rules, List.filter_map, List.map_map]
  rfl

theorem foldl_clientGroupMember (c : NppCache) (acc : List (String × PolicyEntry × List String)) :
    (c.rules .clientGroupMember).foldl (removeIfMissing .clientGroupMember) (acc, c) =
      (acc ++ c.namingMissing .clientGroupMember, { c with
        clientGroupMembers := c.clientGroupMembers.filter fun m => c.missingReferences (.clientGroupMember m) = [] }) := by
  have hloop := foldl_removeIfMissing .clientGroupMember
    (fun clientGroupMembers => { c with clientGroupMembers }) (fun m => c.missingReferences (.clientGroupMember m))
    (fun _ _ => rfl) (fun _ _ => rfl) .clientGroupMember c.clientGroupMembers acc
  refine hloop.trans ?_
  rw [namingMissing, rules, List.filter_map, List.map_map]
  rfl

/-- Kind by kind is rule by rule. -/
theorem removeEachNamingMissing_eq (c : NppCache) : c.removeEachNamingMissing = c.removeRulesNamingMissing := by
  simp only [removeEachNamingMissing, List.foldl_cons, List.foldl_nil, foldl_service, foldl_serviceACL,
    foldl_clientGroupMember, List.nil_append, List.append_assoc]
  rfl

/-! ### What is left, and what is listed -/

theorem Sub.mem {s c : NppCache} (h : s.Sub c) {e : PolicyEntry} (he : e ∈ s.entries) : e ∈ c.entries := by
  cases e with
  | client x => exact mem_entries_client.mpr (h.clients.subset (mem_entries_client.mp he))
  | clientGroup x => exact mem_entries_clientGroup.mpr (h.clientGroups.subset (mem_entries_clientGroup.mp he))
  | clientGroupMember x =>
    exact mem_entries_clientGroupMember.mpr (h.clientGroupMembers.subset (mem_entries_clientGroupMember.mp he))
  | daemon x => exact mem_entries_daemon.mpr (h.daemons.subset (mem_entries_daemon.mp he))
  | service x => exact mem_entries_service.mpr (h.services.subset (mem_entries_service.mp he))
  | serviceACL x => exact mem_entries_serviceACL.mpr (h.serviceACLs.subset (mem_entries_serviceACL.mp he))

/-- What resolves in a part is not missing in the whole. -/
theorem Sub.resolves {s c : NppCache} (h : s.Sub c) {e : PolicyEntry} (hs : s.Resolves e) :
    c.missingReferences e = [] := by
  apply missingReferences_eq_nil
  intro k hk
  obtain ⟨t, ht, hkey⟩ := hs k hk
  exact ⟨t, h.mem ht, hkey⟩

theorem sublist_filter {α : Type} {xs ys : List α} {p : α → Bool} (h : xs.Sublist ys) (hp : ∀ x ∈ xs, p x = true) :
    xs.Sublist (ys.filter p) := by
  have hfilter := h.filter p
  rwa [List.filter_eq_self.mpr hp] at hfilter

/-- The services go first, as the service ACLs name them and nothing that goes later is named. -/
theorem largest_of_resolved {c s : NppCache} (hsub : s.Sub c) (hs : s.Resolved) :
    s.Sub c.removeRulesNamingMissing.2 := by
  have hservices : s.services.Sublist (c.services.filter fun x => c.missingReferences (.service x) = []) := by
    refine sublist_filter hsub.services fun x hx => decide_eq_true ?_
    exact hsub.resolves (hs _ (mem_entries_service.mpr hx))
  let c₁ : NppCache := { c with services := c.services.filter fun x => c.missingReferences (.service x) = [] }
  have hsub₁ : s.Sub c₁ := { hsub with services := hservices }
  have hserviceACLs : s.serviceACLs.Sublist
      (c.serviceACLs.filter fun x => c₁.missingReferences (.serviceACL x) = []) := by
    refine sublist_filter hsub.serviceACLs fun x hx => decide_eq_true ?_
    exact hsub₁.resolves (hs _ (mem_entries_serviceACL.mpr hx))
  have hmembers : s.clientGroupMembers.Sublist
      (c.clientGroupMembers.filter fun x => c₁.missingReferences (.clientGroupMember x) = []) := by
    refine sublist_filter hsub.clientGroupMembers fun x hx => decide_eq_true ?_
    exact hsub₁.resolves (hs _ (mem_entries_clientGroupMember.mpr hx))
  exact ⟨hsub.clients, hsub.clientGroups, hmembers, hsub.daemons, hservices, hserviceACLs⟩

theorem sub_removeRulesNamingMissing (c : NppCache) : c.removeRulesNamingMissing.2.Sub c :=
  ⟨.refl _, .refl _, List.filter_sublist, .refl _, List.filter_sublist, List.filter_sublist⟩

theorem missing_removeRulesNamingMissing (c : NppCache) :
    ∀ e ∈ c.removeRulesNamingMissing.2.entries, c.removeRulesNamingMissing.2.missingReferences e = [] := by
  intro e he
  cases e with
  | clientGroupMember x =>
    have hx := mem_entries_clientGroupMember.mp he
    exact of_decide_eq_true (List.mem_filter.mp hx).2
  | service x =>
    have hx := mem_entries_service.mp he
    exact of_decide_eq_true (List.mem_filter.mp hx).2
  | serviceACL x =>
    have hx := mem_entries_serviceACL.mp he
    exact of_decide_eq_true (List.mem_filter.mp hx).2
  | client x => rfl
  | clientGroup x => rfl
  | daemon x => rfl

/-- The rules of one kind that are listed. -/
theorem map_namingMissing (c : NppCache) (kind : Kind) :
    (c.namingMissing kind).map (·.2.1) = (c.rules kind).filter fun e => c.missingReferences e ≠ [] := by
  rw [namingMissing, List.map_map]
  exact List.map_id _

theorem listed_namingMissing {c : NppCache} {kind : Kind} {r : String × PolicyEntry × List String}
    (hr : r ∈ c.namingMissing kind) :
    r.2.1.kind = kind ∧ r.1 = r.2.1.kind.target ∧ r.2.2 ≠ [] ∧ r.2.2 = c.missingReferences r.2.1 := by
  obtain ⟨e, he, rfl⟩ := List.mem_map.mp hr
  obtain ⟨he, hmissing⟩ := List.mem_filter.mp he
  obtain ⟨-, hkind⟩ := mem_rules.mp he
  exact ⟨hkind, congrArg Kind.target hkind.symm, of_decide_eq_true hmissing, rfl⟩

theorem listed_removeRulesNamingMissing {c : NppCache} {r : String × PolicyEntry × List String}
    (hr : r ∈ c.removeRulesNamingMissing.1) : r.1 = r.2.1.kind.target ∧ r.2.2 ≠ [] ∧
      r.2.2 = c.removeRulesNamingMissing.2.missingReferences r.2.1 := by
  -- Each kind's rules name sets that no later turn changes.
  rcases List.mem_append.mp hr with hr | hr
  · obtain ⟨hkind, htarget, hmissing, heq⟩ := listed_namingMissing hr
    refine ⟨htarget, hmissing, heq.trans ?_⟩
    cases he : r.2.1 with
    | service x => rfl
    | _ =>
      rw [he] at hkind
      cases hkind
  · rcases List.mem_append.mp hr with hr | hr
    · obtain ⟨hkind, htarget, hmissing, heq⟩ := listed_namingMissing hr
      refine ⟨htarget, hmissing, heq.trans ?_⟩
      cases he : r.2.1 with
      | serviceACL x => rfl
      | _ =>
        rw [he] at hkind
        cases hkind
    · obtain ⟨hkind, htarget, hmissing, heq⟩ := listed_namingMissing hr
      refine ⟨htarget, hmissing, heq.trans ?_⟩
      cases he : r.2.1 with
      | clientGroupMember x => rfl
      | _ =>
        rw [he] at hkind
        cases hkind

/-- A kind's rules are those that resolve and those that are listed. -/
theorem count_rules {α : Type} (entry : α → PolicyEntry) (l : List α) (missing : PolicyEntry → List String)
    (e : PolicyEntry) : (l.map entry).count e = ((l.filter fun x => missing (entry x) = []).map entry).count e +
      ((l.map entry).filter fun t => missing t ≠ []).count e := by
  have hperm := List.filter_append_perm (fun t => decide (missing t = [])) (l.map entry)
  have hcount := hperm.count_eq e
  rw [List.count_append, List.filter_map] at hcount
  simp only [ne_eq, decide_not]
  exact hcount.symm

theorem perm_removeRulesNamingMissing (c : NppCache) :
    c.entries.Perm (c.removeRulesNamingMissing.2.entries ++ c.removeRulesNamingMissing.1.map (·.2.1)) := by
  let c₁ : NppCache := { c with services := c.services.filter fun x => c.missingReferences (.service x) = [] }
  let c₂ : NppCache := { c₁ with serviceACLs := c.serviceACLs.filter fun x => c₁.missingReferences (.serviceACL x) = [] }
  have hlisted : c.removeRulesNamingMissing.1.map (·.2.1) =
      (c.services.map .service).filter (fun t => c.missingReferences t ≠ []) ++
        ((c.serviceACLs.map .serviceACL).filter (fun t => c₁.missingReferences t ≠ []) ++
          (c.clientGroupMembers.map .clientGroupMember).filter fun t => c₂.missingReferences t ≠ []) := by
    simp only [removeRulesNamingMissing, List.map_append, map_namingMissing]
    rfl
  have hleft : c.removeRulesNamingMissing.2.entries = c.clients.map .client ++ (c.clientGroups.map .clientGroup ++
      ((c.clientGroupMembers.filter fun x => c₂.missingReferences (.clientGroupMember x) = []).map .clientGroupMember ++
        (c.daemons.map .daemon ++
          ((c.services.filter fun x => c.missingReferences (.service x) = []).map .service ++
            (c.serviceACLs.filter fun x => c₁.missingReferences (.serviceACL x) = []).map .serviceACL)))) := rfl
  refine List.perm_iff_count.mpr fun e => ?_
  have hservices := count_rules .service c.services c.missingReferences e
  have hserviceACLs := count_rules .serviceACL c.serviceACLs c₁.missingReferences e
  have hmembers := count_rules .clientGroupMember c.clientGroupMembers c₂.missingReferences e
  rw [hleft, hlisted, entries]
  simp only [List.count_append]
  omega

theorem pruned_removeEachNamingMissing (c : NppCache) :
    c.Pruned c.removeEachNamingMissing.1 c.removeEachNamingMissing.2 := by
  rw [removeEachNamingMissing_eq]
  have hmissing := c.missing_removeRulesNamingMissing
  refine ⟨c.sub_removeRulesNamingMissing, fun e he => resolves_iff.mpr (hmissing e he), hmissing,
    fun _ => largest_of_resolved, c.perm_removeRulesNamingMissing, fun r hr => ?_⟩
  obtain ⟨htarget, hsome, heq⟩ := listed_removeRulesNamingMissing hr
  rw [missingReferences_eq_lacking] at heq
  refine ⟨htarget, fun hnone => hsome ?_, heq⟩
  rw [heq, hnone, List.map_nil]

/-- A service of a daemon that is gone, a service ACL of it, and a member whose client is gone. -/
def danglingCache : NppCache where
  clients := [⟨some "c1", "Alice", "@alice"⟩]
  clientGroups := [⟨some "g1", "Staff"⟩]
  clientGroupMembers := [⟨some "m1", "c1", "g1"⟩, ⟨some "m2", "c2", "g1"⟩]
  daemons := [⟨some "d1", "@dev"⟩]
  services := [⟨some "s1", "d1", "lab", ""⟩, ⟨some "s2", "d2", "lab", ""⟩]
  serviceACLs := [⟨some "a1", "s1", "g1", "*:22"⟩, ⟨some "a2", "s2", "g2", "*:22"⟩]

/-- The service goes first, and so the ACL is found to miss it too. -/
theorem pruned_danglingCache : danglingCache.Pruned
    [("Service", .service ⟨some "s2", "d2", "lab", ""⟩, ["Daemon with id d2"]),
      ("ServiceACL", .serviceACL ⟨some "a2", "s2", "g2", "*:22"⟩, ["Service with id s2", "ClientGroup with id g2"]),
      ("ClientGroupMember", .clientGroupMember ⟨some "m2", "c2", "g1"⟩, ["Client with id c2"])]
    { danglingCache with
      clientGroupMembers := [⟨some "m1", "c1", "g1"⟩]
      services := [⟨some "s1", "d1", "lab", ""⟩]
      serviceACLs := [⟨some "a1", "s1", "g1", "*:22"⟩] } :=
  pruned_removeEachNamingMissing danglingCache

end NppCache
end NoPorts.Npp
