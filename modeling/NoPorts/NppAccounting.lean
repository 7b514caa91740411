import NoPorts.NppPruned
import NoPorts.NppStored

/-! Policy changes are accounted for: the rules, the response and the events of a put or delete
tell of the same change, wherever a hook fails and whatever the event log does. -/
namespace NoPorts.Npp
open Lib

namespace NppCache

/-- Every rule has its id, and no two of a kind share one. -/
structure Identified (c : NppCache) : Prop where
  given : ∀ e ∈ c.entries, e.id ≠ none
  unique : (c.entries.map PolicyEntry.key).Nodup

/-- A cache that its own operations have built; the id a put makes up is a new one. -/
inductive Built : NppCache → Prop
  | empty : Built empty
  | put {c c' : NppCache} {newId : String} {e : PolicyEntry} {b : Bool} (h : Built c)
    (hnew : e.id = none → ∀ x ∈ c.entries, x.key ≠ (e.kind, some newId))
    (hput : c.put newId e = .ok (b, c')) : Built c'
  | delete {c c' : NppCache} {k : Kind} {id : String} {b : Bool} (h : Built c)
    (hdelete : c.delete k id = .ok (b, c')) : Built c'
  | pruned {c : NppCache} (h : Built c) : Built c.removeRulesNamingMissing.2

/-- A put that returns has added the rule under its id, or under the one made up for it. -/
theorem put_perm {c c' : NppCache} {e : PolicyEntry} {newId : String} {b : Bool}
    (h : c.put newId e = .ok (b, c')) :
    c.checkPut e = .ok () ∧ c'.entries.Perm (e.setId (e.id.getD newId) :: c.entries) := by
  cases e
  all_goals
    rename_i x
    obtain ⟨⟨⟩, hc, hp⟩ := bind_eq_ok.mp h
    obtain ⟨rfl, rfl⟩ := Prod.ext_iff.mp (Except.ok.inj hp)
    refine ⟨hc, List.perm_iff_count.mpr fun a => ?_⟩
    simp only [orNewId, entries, PolicyEntry.setId, PolicyEntry.id, List.map_append, List.map_cons,
      List.map_nil, List.count_append, List.count_cons, List.count_nil]
    omega

theorem Sub.entries {s c : NppCache} (h : s.Sub c) : s.entries.Sublist c.entries :=
  (h.clients.map _).append ((h.clientGroups.map _).append ((h.clientGroupMembers.map _).append
    ((h.daemons.map _).append ((h.services.map _).append (h.serviceACLs.map _)))))

/-- A delete leaves the other rules in their places. -/
theorem delete_sub {c c' : NppCache} {k : Kind} {id : String} {b : Bool}
    (h : c.delete k id = .ok (b, c')) : c'.Sub c := by
  cases k
  all_goals
    obtain ⟨rest, hrem, hp⟩ := bind_eq_ok.mp h
    obtain ⟨rfl, rfl⟩ := Prod.ext_iff.mp (Except.ok.inj hp)
    obtain ⟨pre, x, post, -, hrules, rfl⟩ := removeById_ok hrem
    have hleft : (pre ++ post).Sublist (pre ++ x :: post) :=
      (List.sublist_cons_self x post).append_left pre
    rw [← hrules] at hleft
    constructor
  all_goals first
    | exact hleft
    | exact List.Sublist.refl _

theorem Identified.nodup {c : NppCache} (h : c.Identified) : c.entries.Nodup :=
  List.Nodup.of_map _ h.unique

theorem Identified.of_sublist {c c' : NppCache} (h : c.Identified)
    (hsub : c'.entries.Sublist c.entries) : c'.Identified :=
  ⟨fun e he => h.given e (hsub.subset he), h.unique.sublist (hsub.map _)⟩

theorem Identified.sub {s c : NppCache} (h : c.Identified) (hs : s.Sub c) : s.Identified :=
  h.of_sublist hs.entries

theorem Identified.put {c c' : NppCache} {e : PolicyEntry} {newId : String} {b : Bool}
    (h : c.Identified) (hnew : e.id = none → ∀ x ∈ c.entries, x.key ≠ (e.kind, some newId))
    (hput : c.put newId e = .ok (b, c')) : c'.Identified := by
  obtain ⟨hcheck, hperm⟩ := put_perm hput
  have hkey : ∀ x ∈ c.entries, x.key ≠ (e.kind, some (e.id.getD newId)) := by
    cases hid : e.id with
    | none => exact hnew hid
    | some id =>
      have hfresh := checkPut_ok_fresh (fun hnone => by rw [hid] at hnone; cases hnone) hcheck
      rwa [PolicyEntry.key, hid] at hfresh
  refine ⟨fun x hx => ?_, ?_⟩
  · rcases List.mem_cons.mp (hperm.mem_iff.mp hx) with rfl | hx
    · rw [PolicyEntry.id_setId]
      exact Option.some_ne_none _
    · exact h.given x hx
  · rw [(hperm.map _).nodup_iff, List.map_cons, List.nodup_cons]
    refine ⟨fun hmem => ?_, h.unique⟩
    obtain ⟨x, hx, heq⟩ := List.mem_map.mp hmem
    exact hkey x hx (heq.trans (by rw [PolicyEntry.key, PolicyEntry.kind_setId, PolicyEntry.id_setId]))

theorem Built.identified {c : NppCache} (h : Built c) : c.Identified := by
  induction h with
  | empty => exact ⟨fun e he => absurd he List.not_mem_nil, List.nodup_nil⟩
  | put _ hnew hput ih => exact ih.put hnew hput
  | delete _ hdelete ih => exact ih.sub (delete_sub hdelete)
  | pruned _ ih => exact ih.sub (sub_removeRulesNamingMissing _)

/-- A delete of a rule held takes just that rule. -/
theorem Identified.delete_eq {c c' : NppCache} {e : PolicyEntry} {id : String} {b : Bool}
    (h : c.Identified) (he : e ∈ c.entries) (hid : e.id = some id)
    (hdelete : c.delete e.kind id = .ok (b, c')) :
    c'.entries = c.entries.filter (fun x => x ≠ e) := by
  obtain ⟨x, hx, hperm⟩ := delete_ok hdelete
  obtain rfl : x = e := by
    have hmem : x ∈ c.entries := hperm.mem_iff.mpr List.mem_cons_self
    exact List.inj_on_of_nodup_map h.unique hmem he (by rw [hx, PolicyEntry.key, hid])
  have hnot : x ∉ c'.entries := (List.nodup_cons.mp (hperm.nodup_iff.mp h.nodup)).1
  have hself : c'.entries.filter (fun y => y ≠ x) = c'.entries :=
    List.filter_eq_self.mpr fun y hy => by
      rw [decide_eq_true_iff]
      rintro rfl
      exact hnot hy
  have hsub := (delete_sub hdelete).entries.filter fun y => decide (y ≠ x)
  have hlen := (hperm.filter fun y => decide (y ≠ x)).length_eq
  rw [List.filter_cons_of_neg (by simp), hself] at hlen
  rw [hself] at hsub
  exact hsub.eq_of_length hlen.symm

end NppCache

/-! ### What is accounted for -/

/-- The rules, and the events of rules put or deleted. -/
structure Ledger where
  cache : NppCache
  changes : List PolicyEvent

def isRuleChanged : PolicyEvent → Bool
  | .ruleChanged .. => true
  | _ => false

def Shared.ledger (s : Shared) : Ledger := ⟨s.cache, s.events.filter isRuleChanged⟩

/-- The event of a rule put or deleted. -/
def ruleChangedOf (sender : String) (reqId : ℤ) (operation : String) (e : PolicyEntry) :
    PolicyEvent :=
  .ruleChanged sender reqId operation (.str e.kind.target) e.toJson

def succeeded : Except Thrown AtRpcResp → Bool
  | .ok response => decide (response.respType = .success)
  | .error _ => false

/-- What a response lists as removed. -/
def listedRemoved : Except Thrown AtRpcResp → List Json
  | .ok response =>
    match response.payload.lookup "removed" with
    | some (.arr removed) => removed
    | _ => []
  | .error _ => []

/-- An item of that list. -/
def removedItem (e : PolicyEntry) : Json :=
  .obj [("target", .str e.kind.target), ("id", .ofStr? e.id)]

/-- The rule is the one that a put describes, with an id. -/
def AskedToPut (c : Change) (e : PolicyEntry) : Prop :=
  Json.field c.payload "target" = .str e.kind.target ∧
    ∃ fields described id, c.payload.lookup "value" = some (.obj fields) ∧
      PolicyEntry.fromJson e.kind fields = .ok described ∧ e = described.setId id

/-- The rule is the one that a delete names. -/
def AskedToDelete (c : Change) (e : PolicyEntry) : Prop :=
  Json.field c.payload "target" = .str e.kind.target ∧
    ∃ fields, c.payload.lookup "value" = some (.obj fields) ∧
      Json.field fields e.kind.idKey = .ofStr? e.id

/-- One rule was added, under an id that was not in use. -/
structure Added (before : NppCache) (c : Change) (e : PolicyEntry) (after : NppCache) : Prop where
  asked : AskedToPut c e
  fresh : ∀ x ∈ before.entries, x.key ≠ e.key
  cache : after.entries.Perm (e :: before.entries)

theorem AskedToPut.id_ne {c : Change} {e : PolicyEntry} (h : AskedToPut c e) : e.id ≠ none := by
  obtain ⟨-, fields, described, id, -, -, rfl⟩ := h
  rw [PolicyEntry.id_setId]
  exact Option.some_ne_none id

theorem Added.identified {cache after : NppCache} {c : Change} {e : PolicyEntry} (h : Added cache c e after)
    (hid : cache.Identified) : after.Identified := by
  refine ⟨fun x hx => ?_, ?_⟩
  · rcases List.mem_cons.mp (h.cache.mem_iff.mp hx) with rfl | hx
    · exact h.asked.id_ne
    · exact hid.given x hx
  · rw [(h.cache.map _).nodup_iff, List.map_cons, List.nodup_cons]
    refine ⟨fun hmem => ?_, hid.unique⟩
    obtain ⟨x, hx, heq⟩ := List.mem_map.mp hmem
    exact h.fresh x hx heq

/-- What a put leaves behind. -/
structure PutAccounted (before : Ledger) (sender : String) (c : Change) (after : Ledger)
    (result : Except Thrown AtRpcResp) : Prop where
  refused : succeeded result = false → after = before
  stored : ∀ response, result = .ok response → response.respType = .success →
    ∃ e, Added before.cache c e after.cache ∧
      Json.field response.payload e.kind.idKey = .ofStr? e.id ∧
        after.changes = before.changes ++ [ruleChangedOf sender c.reqId "put" e]

/-- Just the rules of `gone` were deleted, each told of, in the order of the list. -/
structure Removed (before : Ledger) (sender : String) (c : Change) (gone : List PolicyEntry)
    (after : Ledger) : Prop where
  held : ∀ e ∈ gone, e ∈ before.cache.entries
  once : gone.Nodup
  cache : after.cache.entries = before.cache.entries.filter (fun e => e ∉ gone)
  changes : after.changes = before.changes ++ gone.map (ruleChangedOf sender c.reqId "delete")

/-- What a delete leaves behind: the rules that the response lists are gone, and the one asked for
if and only if the response is a success. -/
def DeleteAccounted (before : Ledger) (sender : String) (c : Change) (after : Ledger)
    (result : Except Thrown AtRpcResp) : Prop :=
  ∃ (removed : List PolicyEntry) (target : Option PolicyEntry),
    Removed before sender c (removed ++ target.toList) after ∧
      listedRemoved result = removed.map removedItem ∧
        (succeeded result = true ↔ target.isSome = true) ∧ ∀ e ∈ target, AskedToDelete c e

/-! ### What a request says -/

theorem asString_ok {j : Json} {t : String} (h : asString j = .ok t) : j = .str t := by
  unfold asString at h
  split at h
  · rename_i t' ht
    obtain rfl := Except.ok.inj h
    exact Json.str?_eq_some.mp ht
  · cases h

theorem asString?_some {j : Json} {t : String} (h : asString? j = .ok (some t)) : j = .str t := by
  unfold asString? at h
  split at h
  · cases h
  · obtain ⟨t', ht, hsome⟩ := map_eq_ok.mp h
    obtain rfl := Option.some.inj hsome
    exact asString_ok ht

theorem asMap_ok {j : Json} {fields : List (String × Json)} (h : asMap j = .ok fields) :
    j = .obj fields := by
  cases j with
  | obj fields' =>
    obtain rfl := Except.ok.inj h
    rfl
  | _ => cases h

theorem ofTarget?_some {target : String} {kind : Kind} (h : Kind.ofTarget? target = some kind) :
    target = kind.target :=
  (beq_iff_eq.mp (List.find?_some (p := fun k : Kind => k.target == target) h)).symm

theorem fromJson_kind {kind : Kind} {fields : List (String × Json)} {e : PolicyEntry}
    (h : PolicyEntry.fromJson kind fields = .ok e) : e.kind = kind := by
  cases kind
  all_goals
    obtain ⟨x, -, rfl⟩ := map_eq_ok.mp h
    rfl

namespace ManagerRpcCallbacks
variable (m : ManagerRpcCallbacks)

/-- The task is at an `onEvent`. -/
def awaitsEvent : Task → Bool
  | .refusing _ | .logging _ _ | .reporting _ => true
  | _ => false

/-- The run in which no `onEvent` throws. -/
def quiet (s : Locked.State Shared Task) : List (ℕ × Wake) → List (ℕ × Wake)
  | [] => []
  | e :: es =>
    (if (s.tasks[e.1]?).any awaitsEvent then (e.1, { e.2 with outcome := .ok () }) else e) ::
      match m.tasks.step s e with
      | some s' => quiet s' es
      | none => es

/-- In some run over a cache that was built, call `i` gets the lock for `c` in the state `u`, and
`t` comes after that. -/
structure Since (i : ℕ) (c : Change) (u t : Locked.State Shared Task) : Prop where
  reached : ∃ (cache : NppCache) (requests : List (AtRpcReq × String)) (stops : ℕ)
    (es : List (ℕ × Wake)), cache.Built ∧
      m.tasks.machine.run (before cache requests stops) es = some u
  acquiring : u.tasks[i]? = some (.acquiring c)
  onward : ∃ w es, m.tasks.machine.run u ((i, w) :: es) = some t

/-- Every change is accounted for, at its end and while it goes on. -/
structure Accounted (sender : String) : Prop where
  put : ∀ i c u t result, m.Since i c u t → c.operation = "put" →
    t.tasks[i]? = some (.reporting result) →
      PutAccounted u.shared.ledger sender c t.shared.ledger result
  delete : ∀ i c u t result, m.Since i c u t → c.operation = "delete" →
    t.tasks[i]? = some (.reporting result) →
      DeleteAccounted u.shared.ledger sender c t.shared.ledger result
  deleting : ∀ i c u t d, m.Since i c u t →
    t.tasks[i]? = some (.deleting c d) ∨ t.tasks[i]? = some (.logging c d) →
      ∃ gone : List PolicyEntry, d.removed = gone.map removedItem ∧
        Removed u.shared.ledger sender c gone t.shared.ledger
  quiet : ∀ s es, m.tasks.machine.run s (m.quiet s es) = m.tasks.machine.run s es

/-! ### One step -/

/-- A delete on its way: what is gone, and that the rest is still to go. -/
structure Progress (before : NppCache) (c : Change) (d : Deletion) (gone : List PolicyEntry)
    (now : NppCache) : Prop where
  removed : d.removed = gone.map removedItem
  asked : AskedToDelete c d.entry
  id : d.entry.id = some d.id
  held : ∀ e ∈ gone ++ Deletion.pending d, e ∈ before.entries
  once : (gone ++ Deletion.pending d).Nodup
  cache : now.entries = before.entries.filter (fun e => e ∉ gone)

/-- Where a change is, since it got the lock. -/
def Phase (before : Ledger) (c : Change) (now : Ledger) : Task → Prop
  | .putting c' e => c' = c ∧ c.operation = "put" ∧ AskedToPut c e ∧ now = before
  | .stored c' e => c' = c ∧ c.operation = "put" ∧ Added before.cache c e now.cache ∧
      now.changes = before.changes
  | .deleting c' d | .logging c' d => c' = c ∧ c.operation ≠ "put" ∧
      ∃ gone, Progress before.cache c d gone now.cache ∧
        ∀ sender, m.toAtsign c.fromAtSign = some sender →
          now.changes = before.changes ++ gone.map (ruleChangedOf sender c.reqId "delete")
  | .reporting result => now.cache.Identified ∧
      ∀ sender, m.toAtsign c.fromAtSign = some sender →
        (c.operation = "put" → PutAccounted before sender c now result) ∧
          (c.operation = "delete" → DeleteAccounted before sender c now result)
  | _ => False

/-- The change has the lock, and is where it should be. -/
def InHand (before : Ledger) (c : Change) (r : Shared × Task) : Prop :=
  holds r.2 = true ∧ Phase m before c r.1.ledger r.2

variable {m} {s s' : Shared} {c : Change} {before : Ledger}

theorem sendEvent_ledger {sender fromAtSign : String} (h : m.toAtsign fromAtSign = some sender)
    (build : String → PolicyEvent) : (m.sendEvent s fromAtSign build).ledger =
      ⟨s.cache, s.ledger.changes ++ [build sender].filter isRuleChanged⟩ := by
  rw [sendEvent, h]
  exact congrArg (Ledger.mk s.cache) (List.filter_append _ _)

/-- An event of another kind is none of the ledger's. -/
theorem sendEvent_other {fromAtSign : String} {build : String → PolicyEvent}
    (h : ∀ sender, isRuleChanged (build sender) = false) :
    (m.sendEvent s fromAtSign build).ledger = s.ledger := by
  cases hsender : m.toAtsign fromAtSign with
  | none => rw [sendEvent, hsender]
  | some sender =>
    rw [sendEvent_ledger hsender, List.filter_cons_of_neg (by rw [h]; exact Bool.false_ne_true),
      List.filter_nil, List.append_nil]
    rfl

theorem conclude_failed {rule : List (String × Json)} {result : Except Thrown AtRpcResp}
    (h : succeeded result = false) : (m.conclude s c rule result).1.ledger = s.ledger := by
  cases result with
  | error e => exact sendEvent_other fun _ => rfl
  | ok response =>
    have herror : response.respType = .error := by
      cases hresp : response.respType with
      | error => rfl
      | success => simp [succeeded, hresp] at h
    simp only [conclude, herror, if_true]
    exact sendEvent_other fun _ => rfl

theorem conclude_succeeded {rule : List (String × Json)} {response : AtRpcResp} {sender : String}
    (h : response.respType = .success) (hsender : m.toAtsign c.fromAtSign = some sender) :
    (m.conclude s c rule (.ok response)).1.ledger = ⟨s.cache, s.ledger.changes ++
      [.ruleChanged sender c.reqId c.operation (Json.field c.payload "target") rule]⟩ := by
  simp only [conclude, h, reduceCtorEq, if_false]
  exact sendEvent_ledger hsender _

/-- A change that ends without having changed anything. -/
theorem inHand_unchanged (hid : before.cache.Identified) (hs : s.ledger = before)
    (rule : List (String × Json)) {result : Except Thrown AtRpcResp}
    (hfail : succeeded result = false) (hlisted : listedRemoved result = []) :
    InHand m before c (m.conclude s c rule result) := by
  refine ⟨rfl, ?_⟩
  have hsame : (m.conclude s c rule result).1.ledger = before := (conclude_failed hfail).trans hs
  rw [hsame]
  refine ⟨hid, fun sender _ => ⟨fun _ => ⟨fun _ => rfl, fun response hok hsuccess => ?_⟩, fun _ => ?_⟩⟩
  · rw [hok, succeeded, hsuccess] at hfail
    cases hfail
  · refine ⟨[], none, ⟨fun e he => absurd he List.not_mem_nil, List.nodup_nil, ?_, ?_⟩, hlisted, ?_,
      fun e he => absurd he (Option.not_mem_none e)⟩
    · exact (List.filter_eq_self.mpr fun e _ => by simp).symm
    · exact (List.append_nil _).symm
    · rw [hfail]
      exact Iff.rfl

theorem inHand_concludePut (hid : before.cache.Identified) (hop : c.operation = "put")
    {e : PolicyEntry} (hadded : Added before.cache c e s.cache)
    (hchanges : s.ledger.changes = before.changes) : InHand m before c (m.concludePut s c e) := by
  refine ⟨rfl, ?_, fun sender hsender => ⟨fun _ => ⟨fun hfail => ?_, ?_⟩, fun hdelete => ?_⟩⟩
  · have hcache : (m.concludePut s c e).1.ledger.cache = s.cache := m.conclude_cache _ _
    rw [hcache]
    exact hadded.identified hid
  · cases hfail
  · rintro response ⟨⟩ -
    have hledger : (m.concludePut s c e).1.ledger = _ := conclude_succeeded rfl hsender
    rw [hledger]
    refine ⟨e, hadded, ?_, ?_⟩
    · cases hkind : e.kind <;> rfl
    · rw [hchanges, hop, hadded.asked.1]
      rfl
  · rw [hop] at hdelete
    exact absurd hdelete (by decide)

theorem inHand_store (hid : before.cache.Identified) (hop : c.operation = "put")
    (hs : s.ledger = before) {e : PolicyEntry} (hasked : AskedToPut c e) (newId : String) :
    InHand m before c (m.store s c e newId) := by
  subst hs
  unfold store
  split
  · exact inHand_unchanged hid rfl _ rfl rfl
  · rename_i cache hput
    obtain ⟨hb, -⟩ := NppCache.put_ok hasked.id_ne hput
    cases hb
  · rename_i cache hput
    obtain ⟨-, hcheck, hperm⟩ := NppCache.put_ok hasked.id_ne hput
    have hadded : Added s.cache c e cache :=
      ⟨hasked, NppCache.checkPut_ok_fresh hasked.id_ne hcheck, hperm⟩
    split
    · exact ⟨rfl, rfl, hop, hadded, rfl⟩
    · exact inHand_concludePut (s := { s with cache := cache }) hid hop hadded rfl

theorem inHand_putEntry (hid : before.cache.Identified) (hop : c.operation = "put")
    (hs : s.ledger = before) {e : PolicyEntry} {newId : String}
    (hasked : AskedToPut c (e.setId newId)) : InHand m before c (m.putEntry s c e newId) := by
  simp only [putEntry]
  split
  · exact inHand_unchanged hid hs _ rfl rfl
  · split
    · exact inHand_unchanged hid hs _ rfl rfl
    · split
      · exact ⟨rfl, rfl, hop, hasked, hs⟩
      · exact inHand_store hid hop hs hasked newId

theorem inHand_put (hid : before.cache.Identified) (hop : c.operation = "put")
    (hs : s.ledger = before) (newId : String) : InHand m before c (m.put s c newId) := by
  unfold put
  split
  · exact inHand_unchanged hid hs _ rfl rfl
  · rename_i target htarget
    split
    · rename_i target value hvalue
      split
      · exact inHand_unchanged hid hs _ rfl rfl
      · rename_i fields hfields
        split
        · exact inHand_unchanged hid hs _ rfl rfl
        · split
          · exact inHand_unchanged hid hs _ rfl rfl
          · rename_i kind hkind
            split
            · exact inHand_unchanged hid hs _ rfl rfl
            · rename_i e hread
              have hkind' : (e.setId newId).kind = kind := by
                rw [PolicyEntry.kind_setId, fromJson_kind hread]
              refine inHand_putEntry hid hop hs ⟨?_, fields, e, newId, ?_, ?_, rfl⟩
              · rw [hkind', ← ofTarget?_some hkind]
                exact asString?_some htarget
              · rw [hvalue, asMap_ok hfields]
              · rw [hkind', hread]
    · exact inHand_unchanged hid hs _ rfl rfl

theorem inHand_delete (hid : before.cache.Identified) (hop : c.operation ≠ "put")
    (hs : s.ledger = before) : InHand m before c (m.delete s c) := by
  unfold delete
  split
  · exact inHand_unchanged hid hs _ rfl rfl
  · rename_i target htarget
    split
    · rename_i target value hvalue
      split
      · exact inHand_unchanged hid hs _ rfl rfl
      · rename_i fields hfields
        split
        · exact inHand_unchanged hid hs _ rfl rfl
        · rename_i kind hkind
          split
          · exact inHand_unchanged hid hs _ rfl rfl
          · rename_i id entry hread
            obtain ⟨i, hi, hread⟩ := bind_eq_ok.mp hread
            obtain ⟨e, hget, heq⟩ := bind_eq_ok.mp hread
            obtain ⟨rfl, rfl⟩ := Prod.ext_iff.mp (Except.ok.inj heq)
            obtain ⟨hmem, hkey⟩ := NppCache.getById_ok hget
            obtain rfl : e.kind = kind := congrArg Prod.fst hkey
            have hgiven : e.id = some i := congrArg Prod.snd hkey
            split
            · exact inHand_unchanged hid hs _ rfl rfl
            · subst hs
              have hsub := links_sublist s.cache e.kind i
              have hheld : ∀ x ∈ links s.cache e.kind i ++ [e], x ∈ s.cache.entries := by
                intro x hx
                rcases List.mem_append.mp hx with hx | hx
                · exact hsub.subset hx
                · rw [List.mem_singleton.mp hx]
                  exact hmem
              have honce : (links s.cache e.kind i ++ [e]).Nodup := by
                refine List.nodup_append.mpr ⟨hid.nodup.sublist hsub, List.nodup_singleton e, ?_⟩
                rintro x hx y hy rfl
                rw [List.mem_singleton.mp hy] at hx
                exact not_mem_links hx
              refine ⟨rfl, rfl, hop, [], ⟨rfl, ⟨?_, fields, ?_, ?_⟩, hgiven, hheld, honce, ?_⟩, ?_⟩
              · show Json.field c.payload "target" = .str e.kind.target
                rw [← ofTarget?_some hkind]
                exact asString?_some htarget
              · rw [hvalue, asMap_ok hfields]
              · show Json.field fields e.kind.idKey = .ofStr? e.id
                rw [asString_ok hi, hgiven]
                rfl
              · exact (List.filter_eq_self.mpr fun x _ => by simp).symm
              · intro sender _
                exact (List.append_nil _).symm
    · exact inHand_unchanged hid hs _ rfl rfl

/-- The next rule to go is held, and its delete takes just that rule. -/
theorem Progress.delete {cache now : NppCache} {d : Deletion} {gone : List PolicyEntry}
    (h : Progress cache c d gone now) (hid : cache.Identified) {e : PolicyEntry}
    (he : e ∈ Deletion.pending d) : ∃ id now', e.id = some id ∧
      now.delete e.kind id = .ok (true, now') ∧
        now'.entries = cache.entries.filter (fun x => x ∉ gone ++ [e]) := by
  have hnow : now.Identified := hid.of_sublist (by rw [h.cache]; exact List.filter_sublist)
  have hmem : e ∈ now.entries := by
    have hgone : e ∉ gone := fun hmem => (List.nodup_append.mp h.once).2.2 e hmem e he rfl
    rw [h.cache, List.mem_filter, decide_eq_true_iff]
    exact ⟨h.held e (List.mem_append_right gone he), hgone⟩
  obtain ⟨id, hgiven⟩ := Option.ne_none_iff_exists'.mp (hnow.given e hmem)
  obtain ⟨now', hdelete⟩ := NppCache.delete_of_mem hmem hgiven
  refine ⟨id, now', hgiven, hdelete, ?_⟩
  rw [hnow.delete_eq hmem hgiven hdelete, h.cache, List.filter_filter]
  refine List.filter_congr fun x _ => ?_
  simp only [List.mem_append, List.mem_singleton, not_or, Bool.decide_and, Bool.and_comm]

/-- A delete whose last rule has gone. -/
theorem inHand_deleteDone (hid : before.cache.Identified) (hop : c.operation ≠ "put")
    {d : Deletion} {gone : List PolicyEntry} {now : NppCache}
    (hp : Progress before.cache c d gone now) (hlinks : d.links = [])
    (hcache : s.cache.entries = before.cache.entries.filter (fun x => x ∉ gone ++ [d.entry]))
    (hchanges : ∀ sender, m.toAtsign c.fromAtSign = some sender →
      s.ledger.changes = before.changes ++ gone.map (ruleChangedOf sender c.reqId "delete"))
    (done : String) :
    InHand m before c (m.concludeDelete s c d.entry.toJson d.removed none done) := by
  have horder : gone ++ Deletion.pending d = gone ++ [d.entry] := by
    rw [Deletion.pending, hlinks]
    rfl
  refine ⟨rfl, ?_, fun sender hsender => ⟨fun hput => absurd hput hop, fun hdel => ?_⟩⟩
  · have hkept : (m.concludeDelete s c d.entry.toJson d.removed none done).1.ledger.cache = s.cache :=
      m.conclude_cache _ _
    rw [hkept]
    exact hid.of_sublist (by rw [hcache]; exact List.filter_sublist)
  · have hledger : (m.concludeDelete s c d.entry.toJson d.removed none done).1.ledger =
        ⟨s.cache, s.ledger.changes ++ [ruleChangedOf sender c.reqId "delete" d.entry]⟩ := by
      refine (conclude_succeeded rfl hsender).trans ?_
      rw [hdel, hp.asked.1]
      rfl
    rw [hledger]
    refine ⟨gone, some d.entry, ⟨?_, ?_, hcache, ?_⟩, hp.removed, iff_of_true rfl rfl, ?_⟩
    · exact horder ▸ hp.held
    · exact horder ▸ hp.once
    · rw [hchanges sender hsender, List.append_assoc, List.map_append]
      rfl
    · rintro e ⟨⟩
      exact hp.asked

theorem inHand_removeNext (hid : before.cache.Identified) {d : Deletion}
    (h : Phase m before c s.ledger (.deleting c d)) : InHand m before c (m.removeNext s c d) := by
  obtain ⟨-, hop, gone, hp, hchanges⟩ := h
  unfold removeNext
  split
  · rename_i link rest hlinks
    have hnext : link ∈ Deletion.pending d := by
      rw [Deletion.pending, hlinks]
      exact List.mem_cons_self
    obtain ⟨id, cache, hgiven, hdelete, hcache⟩ := hp.delete hid hnext
    have hdelete' : s.cache.delete link.kind id = .ok (true, cache) := hdelete
    have horder (removed : List Json) : gone ++ [link] ++
        Deletion.pending { d with links := rest, removed := removed } =
          gone ++ Deletion.pending d := by
      rw [Deletion.pending, Deletion.pending, hlinks, List.append_assoc]
      rfl
    simp only [hgiven, hdelete']
    refine ⟨rfl, rfl, hop, gone ++ [link], ⟨?_, hp.asked, hp.id, ?_, ?_, ?_⟩, ?_⟩
    · rw [List.map_append, ← hp.removed, List.map_singleton, removedItem, hgiven]
      rfl
    · rw [horder]
      exact hp.held
    · rw [horder]
      exact hp.once
    · have hkept : (m.logRemoved { s with cache := cache } c link).cache = cache := sendEvent_cache _ _ _
      exact (congrArg NppCache.entries hkept).trans hcache
    · intro sender hsender
      rw [logRemoved, sendEvent_ledger hsender, List.map_append, ← List.append_assoc,
        ← hchanges sender hsender]
      rfl
  · rename_i hlinks
    obtain ⟨id, cache, hgiven, hdelete, hcache⟩ :=
      hp.delete hid (List.mem_append_right d.links (List.mem_singleton_self d.entry))
    obtain rfl := Option.some.inj (hgiven.symm.trans hp.id)
    have hdelete' : s.cache.delete d.entry.kind d.id = .ok (true, cache) := hdelete
    simp only [hdelete']
    exact inHand_deleteDone (s := { s with cache := cache }) hid hop hp hlinks hcache hchanges _

/-- A delete that stops at a hook. -/
theorem inHand_deleteFailed (hid : before.cache.Identified) {d : Deletion}
    (h : Phase m before c s.ledger (.deleting c d)) (error : String) :
    InHand m before c (m.concludeDelete s c d.entry.toJson d.removed (some error) "") := by
  obtain ⟨-, hop, gone, hp, hchanges⟩ := h
  have hledger : (m.concludeDelete s c d.entry.toJson d.removed (some error) "").1.ledger =
      s.ledger := conclude_failed rfl
  refine ⟨rfl, ?_⟩
  rw [hledger]
  refine ⟨hid.of_sublist (by rw [hp.cache]; exact List.filter_sublist), fun sender hsender =>
    ⟨fun hput => absurd hput hop, fun _ => ⟨gone, none, ?_, hp.removed, ?_, ?_⟩⟩⟩
  · rw [Option.toList_none, List.append_nil]
    exact ⟨fun e he => hp.held e (List.mem_append_left _ he), (List.nodup_append.mp hp.once).1,
      hp.cache, hchanges sender hsender⟩
  · exact iff_of_false Bool.false_ne_true Bool.false_ne_true
  · exact fun e he => absurd he (Option.not_mem_none e)

theorem inHand_change (hid : s.cache.Identified) (newId : String) :
    InHand m s.ledger c (m.change s c newId) := by
  unfold change
  split
  · exact inHand_unchanged hid rfl _ rfl rfl
  · split
    · rename_i hop
      exact inHand_put hid hop rfl newId
    · rename_i hop
      exact inHand_delete hid hop rfl

/-- A step of the change keeps it in hand, until it ends and leaves everything as it is. -/
theorem inHand_resume (hid : before.cache.Identified) {t t' : Task} {w : Wake}
    (h : m.resume s t w = some (s', t')) (ht : holds t = true) (hp : Phase m before c s.ledger t) :
    (s' = s ∧ ∃ result, t' = .finished result) ∨ InHand m before c (s', t') := by
  cases t with
  | putting c' e =>
    obtain ⟨rfl, hop, hasked, hs⟩ := hp
    right
    simp only [resume] at h
    split at h
    · rw [← Option.some.inj h]
      exact inHand_unchanged hid hs _ rfl rfl
    · rw [← Option.some.inj h]
      exact inHand_store hid hop hs hasked w.newId
  | stored c' e =>
    obtain ⟨rfl, hop, hadded, hchanges⟩ := hp
    rw [← Option.some.inj h]
    exact Or.inr (inHand_concludePut hid hop hadded hchanges)
  | deleting c' d =>
    obtain ⟨rfl, -⟩ := id hp
    rw [← Option.some.inj h]
    unfold deleteNext
    split
    · exact Or.inr (inHand_deleteFailed hid hp _)
    · exact Or.inr (inHand_removeNext hid hp)
  | logging c' d =>
    obtain ⟨rfl, hrest⟩ := hp
    cases h
    exact Or.inr ⟨rfl, rfl, hrest⟩
  | reporting result =>
    cases h
    exact Or.inl ⟨rfl, result, rfl⟩
  | _ => cases ht

/-! ### Runs -/

theorem resume_away_ledger {t t' : Task} {w : Wake} (h : m.resume s t w = some (s', t'))
    (hw : waits t = false) (hh : holds t = false) : s'.ledger = s.ledger := by
  cases t with
  | call req fromAtSign =>
    obtain ⟨rfl, -⟩ := Prod.ext_iff.mp (Option.some.inj h)
    unfold handleRequest
    split
    · exact sendEvent_other fun _ => rfl
    · split
      · split <;> rfl
      · rfl
  | refusing reqId | checking reqId result =>
    cases h
    rfl
  | finished result | stopped => cases h
  | acquiring c | stopChanges => cases hw
  | _ => cases hh

theorem Phase.identified {now : Ledger} {t : Task} (h : Phase m before c now t)
    (hid : before.cache.Identified) : now.cache.Identified := by
  cases t with
  | putting c' e =>
    obtain ⟨-, -, -, rfl⟩ := h
    exact hid
  | stored c' e =>
    obtain ⟨-, -, hadded, -⟩ := h
    exact hadded.identified hid
  | deleting c' d | logging c' d =>
    obtain ⟨-, -, gone, hp, -⟩ := h
    exact hid.of_sublist (by rw [hp.cache]; exact List.filter_sublist)
  | reporting result => exact h.1
  | _ => exact h.elim

/-- Whatever task holds the lock is where its change should be. -/
theorem tasks_keep_identified : m.tasks.Keeps (fun s => s.cache.Identified)
    (fun s t => ∃ before c, before.cache.Identified ∧ Phase m before c s.ledger t) := by
  refine ⟨fun s t w s' t' h hw hh => ?_, fun s t w s' t' h hs hin => ?_⟩
  · have hledger := resume_away_ledger h hw hh
    refine ⟨(m.resume_away h hw hh).2, fun hs => ?_, fun q hq => ?_⟩
    · rw [(m.resume_away h hw hh).1]
      exact hs
    · rw [hledger]
      exact hq
  · rcases hin with hwait | ⟨hh, before, c, hid, hp⟩
    · cases t with
      | acquiring c =>
        have hin : InHand m s.ledger c (s', t') := by
          rw [← Option.some.inj h]
          exact inHand_change hs w.newId
        exact ⟨hin.2.identified hs, fun _ => ⟨s.ledger, c, hs, hin.2⟩⟩
      | stopChanges =>
        cases h
        exact ⟨hs, fun hh => by cases hh⟩
      | _ => cases hwait
    · rcases inHand_resume hid h hh hp with ⟨rfl, result, rfl⟩ | hin
      · exact ⟨hs, fun hh => by cases hh⟩
      · exact ⟨hin.2.identified hid, fun _ => ⟨before, c, hid, hin.2⟩⟩

variable (m) in
theorem identified_of_run {cache : NppCache} (hc : cache.Built)
    {requests : List (AtRpcReq × String)} {stops : ℕ} {es : List (ℕ × Wake)}
    {t : Locked.State Shared Task}
    (hr : m.tasks.machine.run (ManagerRpcCallbacks.before cache requests stops) es = some t) :
    t.shared.cache.Identified :=
  (m.tasks.owned_run tasks_keep_identified hc.identified (fun _ => holds_before) hr).data

variable (m) in
/-- Only the service's own requests get to the lock. -/
def Begun : Task → Prop
  | .acquiring c => c.fromAtSign = m.currentAtSign
  | _ => True

theorem begun_store (e : PolicyEntry) (newId : String) : Begun m (m.store s c e newId).2 := by
  unfold store
  split
  · trivial
  · trivial
  · split <;> trivial

theorem begun_put (newId : String) : Begun m (m.put s c newId).2 := by
  have hentry (e : PolicyEntry) : Begun m (m.putEntry s c e newId).2 := by
    simp only [putEntry]
    split
    · trivial
    · split
      · trivial
      · split
        · trivial
        · exact begun_store _ newId
  unfold put
  repeat' split
  all_goals first
    | trivial
    | exact hentry _

theorem begun_delete : Begun m (m.delete s c).2 := by
  unfold delete
  repeat' split
  all_goals trivial

theorem begun_resume {t t' : Task} {w : Wake} (h : m.resume s t w = some (s', t')) : Begun m t' := by
  cases t with
  | call req fromAtSign =>
    obtain ⟨-, rfl⟩ := Prod.ext_iff.mp (Option.some.inj h)
    unfold handleRequest
    split
    · trivial
    · rename_i hown
      have hread : Begun m (m.handleRead s.cache req w.now) := by
        unfold handleRead
        repeat' split
        all_goals trivial
      split
      · split
        · exact not_not.mp hown
        · exact hread
      · exact hread
  | acquiring c =>
    obtain ⟨-, rfl⟩ := Prod.ext_iff.mp (Option.some.inj h)
    unfold change
    split
    · trivial
    · split
      · exact begun_put w.newId
      · exact begun_delete
  | putting c e =>
    simp only [resume] at h
    split at h
    · cases h
      trivial
    · obtain ⟨-, rfl⟩ := Prod.ext_iff.mp (Option.some.inj h)
      exact begun_store e w.newId
  | deleting c d =>
    obtain ⟨-, rfl⟩ := Prod.ext_iff.mp (Option.some.inj h)
    unfold deleteNext
    split
    · trivial
    · unfold removeNext
      repeat' split
      all_goals trivial
  | stored c e | stopChanges | refusing reqId | checking reqId result | logging c d
  | reporting result =>
    cases h
    trivial
  | finished result | stopped => cases h

variable (m) in
theorem begun_of_run {cache : NppCache} {requests : List (AtRpcReq × String)} {stops : ℕ}
    {es : List (ℕ × Wake)} {t : Locked.State Shared Task}
    (hr : m.tasks.machine.run (ManagerRpcCallbacks.before cache requests stops) es = some t) :
    ∀ q ∈ t.tasks, Begun m q := by
  refine m.tasks.machine.invariant (I := fun t => ∀ q ∈ t.tasks, Begun m q)
    (fun u e v hu h q hq => ?_) (fun q hq => ?_) hr
  · obtain ⟨pc, ⟨s', pc'⟩, -, -, hres, rfl⟩ := m.tasks.step_some h
    rcases List.mem_or_eq_of_mem_set hq with hq | rfl
    · exact hu q hq
    · exact begun_resume hres
  · rcases List.mem_append.mp hq with hq | hq
    · obtain ⟨r, -, rfl⟩ := List.mem_map.mp hq
      trivial
    · obtain rfl := List.eq_of_mem_replicate hq
      trivial

/-- What holds of the change since it got the lock, as long as it has it. -/
theorem Since.phase {i : ℕ} {u t : Locked.State Shared Task} {q : Task} (h : m.Since i c u t)
    (hq : t.tasks[i]? = some q) (hrunning : ∀ result, q ≠ .finished result) :
    Phase m u.shared.ledger c t.shared.ledger q := by
  obtain ⟨cache, requests, stops, es, hbuilt, hu⟩ := h.reached
  obtain ⟨w, fs, ht⟩ := h.onward
  have hid := m.identified_of_run hbuilt hu
  have hcarries : m.tasks.Carries (fun s t => Phase m u.shared.ledger c s.ledger t)
      (fun t => ∃ result, t = .finished result) := by
    refine ⟨fun s t w s' t' hres hw hh => ?_, fun s t w s' t' hres hh hp => ?_, ?_⟩
    · refine ⟨(m.resume_away hres hw hh).2, fun q hq => ?_⟩
      rw [resume_away_ledger hres hw hh]
      exact hq
    · exact (inHand_resume hid hres hh hp).imp_left And.right
    · rintro s t w ⟨result, rfl⟩
      rfl
  have hgot (s' : Shared) (t' : Task) (hres : m.resume u.shared (.acquiring c) w = some (s', t')) :
      InHand m u.shared.ledger c (s', t') := by
    rw [← Option.some.inj hres]
    exact inHand_change hid w.newId
  obtain ⟨pc, hpc, hstate⟩ := Locked.carried_run hcarries h.acquiring rfl
    (fun s' t' hres => Or.inr (hgot s' t' hres)) ht
  obtain rfl := Option.some.inj (hpc.symm.trans hq)
  rcases hstate with ⟨result, rfl⟩ | ⟨-, hp, -⟩
  · exact absurd rfl (hrunning result)
  · exact hp

theorem step_quiet (s : Locked.State Shared Task) (e : ℕ × Wake) :
    m.tasks.step s (if (s.tasks[e.1]?).any awaitsEvent then (e.1, { e.2 with outcome := .ok () })
      else e) = m.tasks.step s e := by
  cases hq : s.tasks[e.1]? with
  | none => rfl
  | some q =>
    cases hawaits : awaitsEvent q with
    | false => rw [Option.any_some, hawaits, if_neg Bool.false_ne_true]
    | true =>
      have hsame (w w' : Wake) : m.resume s.shared q w = m.resume s.shared q w' := by
        cases q with
        | refusing reqId | logging c d | reporting result => rfl
        | _ => cases hawaits
      rw [Option.any_some, hawaits, if_pos rfl, Locked.step, Locked.step, hq, Option.bind_some,
        Option.bind_some]
      simp only [tasks]
      rw [hsame _ e.2]

/-- A run is the run in which no `onEvent` throws. -/
theorem run_quiet (s : Locked.State Shared Task) (es : List (ℕ × Wake)) :
    m.tasks.machine.run s (m.quiet s es) = m.tasks.machine.run s es := by
  induction es generalizing s with
  | nil => rfl
  | cons e es ih =>
    rw [quiet, Machine.run_cons, Machine.run_cons]
    have hstep : m.tasks.machine.step s (if (s.tasks[e.1]?).any awaitsEvent then
        (e.1, { e.2 with outcome := .ok () }) else e) = m.tasks.machine.step s e := step_quiet s e
    rw [hstep]
    cases h : m.tasks.step s e with
    | none =>
      rw [show m.tasks.machine.step s e = none from h]
    | some s' =>
      rw [show m.tasks.machine.step s e = some s' from h]
      exact ih s'

/-- Every change is accounted for, if the service's own atSign can be read. -/
theorem accounted (m : ManagerRpcCallbacks) {sender : String}
    (hsender : m.toAtsign m.currentAtSign = some sender) : m.Accounted sender := by
  have hown {i : ℕ} {c : Change} {u t : Locked.State Shared Task} (h : m.Since i c u t) :
      m.toAtsign c.fromAtSign = some sender := by
    obtain ⟨cache, requests, stops, es, -, hu⟩ := h.reached
    have hbegun : c.fromAtSign = m.currentAtSign :=
      m.begun_of_run hu _ (List.mem_of_getElem? h.acquiring)
    rw [hbegun, hsender]
  refine ⟨?_, ?_, ?_, fun s es => run_quiet s es⟩
  · intro i c u t result h hop hq
    exact ((h.phase hq fun result' heq => by cases heq).2 sender (hown h)).1 hop
  · intro i c u t result h hop hq
    exact ((h.phase hq fun result' heq => by cases heq).2 sender (hown h)).2 hop
  · intro i c u t d h hq
    have hphase : Phase m u.shared.ledger c t.shared.ledger (.deleting c d) := by
      rcases hq with hq | hq
      · exact h.phase hq fun result' heq => by cases heq
      · have hlogging := h.phase hq fun result' heq => by cases heq
        exact hlogging
    obtain ⟨-, -, gone, hp, hchanges⟩ := hphase
    exact ⟨gone, hp.removed, fun e he => hp.held e (List.mem_append_left _ he),
      (List.nodup_append.mp hp.once).1, hp.cache, hchanges sender (hown h)⟩

/-- A delete whose hook fails half-way, while a put waits for the lock. -/
theorem accounted_delete : ∃ u t c result, hooked.Since 9 c u t ∧
    t.tasks[9]? = some (.reporting result) ∧ succeeded result = false ∧
      counts u.shared.cache = [1, 2, 2, 1, 1, 2] ∧ counts t.shared.cache = [1, 2, 1, 1, 1, 2] ∧
      DeleteAccounted u.shared.ledger "@npp" c t.shared.ledger result := by
  obtain ⟨u, hu, hcounts, c, hacquiring, hop⟩ : ∃ u,
      hooked.tasks.machine.run (before .empty crewRequests 0) crewSteps = some u ∧
      counts u.shared.cache = [1, 2, 2, 1, 1, 2] ∧
      ∃ c, u.tasks[9]? = some (.acquiring c) ∧ c.operation = "delete" := ⟨_, rfl, rfl, _, rfl, rfl⟩
  obtain ⟨t, ht, hleft, result, hreporting, hfailed⟩ : ∃ t,
      hooked.tasks.machine.run (before .empty crewRequests 0) (crewSteps ++ brokenDelete) = some t ∧
      counts t.shared.cache = [1, 2, 1, 1, 1, 2] ∧
      ∃ result, t.tasks[9]? = some (.reporting result) ∧ succeeded result = false := ⟨_, rfl, rfl, _, rfl, rfl⟩
  rw [Machine.run_append, hu] at ht
  have hsince : hooked.Since 9 c u t :=
    ⟨⟨.empty, crewRequests, 0, crewSteps, .empty, hu⟩, hacquiring, ⟨wake "", _, ht⟩⟩
  exact ⟨u, t, c, result, hsince, hreporting, hfailed, hcounts, hleft,
    (hooked.accounted rfl).delete 9 c u t result hsince hop hreporting⟩

end ManagerRpcCallbacks
end NoPorts.Npp
