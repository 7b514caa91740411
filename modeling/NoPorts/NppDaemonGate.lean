import NoPorts.NppDecision

/-! The gate before the policy service's answers: it answers only daemons with rules. -/
namespace NoPorts.Npp
open Lib

namespace NppCache

variable (toAtsign : String → Option String)

/-- Whether a service ACL covers any service of the daemon `daemonAtsign`. -/
def hasServiceACLsForDaemon (c : NppCache) (daemonAtsign : String) : Bool :=
  c.daemons.any fun daemon =>
    match daemon.id with
    | none => false
    | some daemonId => toAtsign daemon.atSign == some daemonAtsign &&
        (c.getServicesByDaemonId daemonId).any fun service =>
          match service.id with
          | none => false
          | some serviceId => !(c.getServiceACLsByServiceID serviceId).isEmpty

/-- `_DaemonsWithRules.contains`: the allow list each request's sender is checked
against. -/
def daemonsWithRules (c : NppCache) (sender : String) : Bool :=
  match toAtsign sender with
  | none => false
  | some atSign => c.hasServiceACLsForDaemon toAtsign atSign

/-- `PolicyInfoRpcRequestHandler.handleRequest`, `none` where reading an atSign throws. -/
def handleAuthCheck (c : NppCache) (fromAtSign : String) (r : NPAAuthCheckRequest) :
    Option NPAAuthCheckResponse := do
  let sender ← toAtsign fromAtSign
  let about ← toAtsign r.daemonAtsign
  if sender ≠ about then
    return { authorized := false
             message := some "A daemon may ask only about itself"
             permitOpen := [] }
  else
    match c.doAuthCheck toAtsign r with
    | .ok answer => return answer
    | .error e =>
      return { authorized := false
               message := some ("Exception: " ++ e.text)
               permitOpen := [] }

variable {toAtsign} {c : NppCache}

/-- A daemon has rules when a service ACL is reached from it over ids that are there. -/
theorem hasServiceACLsForDaemon_iff {daemonAtsign : String} :
    c.hasServiceACLsForDaemon toAtsign daemonAtsign = true ↔
      ∃ d ∈ c.daemons, ∃ s ∈ c.services, ∃ a ∈ c.serviceACLs,
        toAtsign d.atSign = some daemonAtsign ∧ d.id = some s.daemonId ∧
          s.id = some a.serviceId := by
  rw [hasServiceACLsForDaemon, List.any_eq_true]
  constructor
  · rintro ⟨d, hd, h⟩
    cases hid : d.id with
    | none => simp [hid] at h
    | some i =>
      simp only [hid, Bool.and_eq_true, beq_iff_eq, List.any_eq_true, getServicesByDaemonId,
        List.mem_filter] at h
      obtain ⟨hat, s, ⟨hs, hsd⟩, h⟩ := h
      cases hsid : s.id with
      | none => simp [hsid] at h
      | some j =>
        simp only [hsid, Bool.not_eq_true', List.isEmpty_eq_false_iff_exists_mem,
          getServiceACLsByServiceID, List.mem_filter, beq_iff_eq] at h
        obtain ⟨a, ha, haj⟩ := h
        exact ⟨d, hd, s, hs, a, ha, hat, hsd ▸ hid, haj ▸ hsid⟩
  · rintro ⟨d, hd, s, hs, a, ha, hat, hid, hsid⟩
    refine ⟨d, hd, ?_⟩
    simp only [hid, hat, beq_self_eq_true, Bool.true_and, List.any_eq_true,
      getServicesByDaemonId, List.mem_filter]
    refine ⟨s, ⟨hs, beq_self_eq_true _⟩, ?_⟩
    simp only [hsid, Bool.not_eq_true', List.isEmpty_eq_false_iff_exists_mem,
      getServiceACLsByServiceID, List.mem_filter]
    exact ⟨a, ha, beq_self_eq_true _⟩

/-- A daemon the lookup finds is one of that canonical atSign. -/
theorem getDaemonByAtSign_some {atSign : String} {d : Daemon}
    (h : c.getDaemonByAtSign toAtsign atSign = .ok (some d)) :
    d ∈ c.daemons ∧ Names toAtsign atSign d := by
  simp only [getDaemonByAtSign] at h
  split at h
  · cases h
  · have hmem := List.mem_of_head? (Except.ok.inj h)
    obtain ⟨hd, hn⟩ := List.mem_filter.mp hmem
    exact ⟨hd, names_iff.mp hn⟩

/-- The service of a request is one of the daemon found. -/
theorem findMatchedService_some {daemonAtSign deviceName deviceGroupName : String} {s : Service}
    (h : c.findMatchedService toAtsign daemonAtSign deviceName deviceGroupName =
      .ok (some s)) :
    s ∈ c.services ∧ ∃ d ∈ c.daemons, Names toAtsign daemonAtSign d ∧ d.id = some s.daemonId := by
  simp only [findMatchedService, getServicesByDaemonAtSign] at h
  cases hd : c.getDaemonByAtSign toAtsign daemonAtSign with
  | error e => simp [hd] at h
  | ok o =>
    cases o with
    | none =>
      rw [hd] at h
      cases h
    | some d =>
      obtain ⟨hmem, hn⟩ := getDaemonByAtSign_some hd
      simp only [hd, ok_bind] at h
      cases hid : d.id with
      | none =>
        rw [hid] at h
        cases h
      | some i =>
        simp only [hid] at h
        have hs := List.mem_of_find?_eq_some (Except.ok.inj h)
        simp only [getServicesByDaemonId, List.mem_filter, beq_iff_eq] at hs
        exact ⟨hs.1, d, hmem, hn, hs.2 ▸ hid⟩

/-- A service ACL that matches covers a service of the request's daemon. -/
theorem mem_findMatchedServiceACLs {clientAtSign daemonAtSign deviceName deviceGroupName : String}
    {acls : List ServiceACL} {a : ServiceACL}
    (h : c.findMatchedServiceACLs toAtsign clientAtSign daemonAtSign deviceName
      deviceGroupName = .ok acls) (ha : a ∈ acls) :
    a ∈ c.serviceACLs ∧ ∃ s ∈ c.services, s.id = some a.serviceId ∧
      ∃ d ∈ c.daemons, Names toAtsign daemonAtSign d ∧ d.id = some s.daemonId := by
  simp only [findMatchedServiceACLs] at h
  cases hs : c.findMatchedService toAtsign daemonAtSign deviceName deviceGroupName with
  | error e => simp [hs] at h
  | ok o =>
    cases o with
    | none =>
      rw [hs] at h
      cases Except.ok.inj h
      cases ha
    | some s =>
      obtain ⟨hmem, hd⟩ := findMatchedService_some hs
      cases hg : c.findMatchedClientGroups clientAtSign with
      | error e => simp [hs, hg] at h
      | ok gs =>
        simp only [hs, hg, ok_bind] at h
        cases Except.ok.inj h
        obtain ⟨hacl, hany⟩ := List.mem_filter.mp ha
        obtain ⟨g, -, hgs⟩ := List.any_eq_true.mp hany
        exact ⟨hacl, s, hmem, beq_iff_eq.mp (Bool.and_eq_true_iff.mp hgs).2, hd⟩

theorem doAuthCheck_authorized {r : NPAAuthCheckRequest} {answer : NPAAuthCheckResponse}
    (h : c.doAuthCheck toAtsign r = .ok answer) (hauth : answer.authorized = true) :
    ∃ acls, c.findMatchedServiceACLs toAtsign r.clientAtsign r.daemonAtsign r.daemonDeviceName
      r.daemonDeviceGroupName = .ok acls ∧ acls ≠ [] := by
  simp only [doAuthCheck] at h
  cases hm : c.findMatchedServiceACLs toAtsign r.clientAtsign r.daemonAtsign r.daemonDeviceName
      r.daemonDeviceGroupName with
  | error e => simp [hm] at h
  | ok acls =>
    refine ⟨acls, rfl, fun hnil => ?_⟩
    rw [hm, ok_bind, hnil] at h
    cases Except.ok.inj h
    cases hauth

/-- A request the rules authorise is about a daemon the gate lets through. -/
theorem hasServiceACLsForDaemon_of_authorized {r : NPAAuthCheckRequest}
    {answer : NPAAuthCheckResponse} (h : c.doAuthCheck toAtsign r = .ok answer)
    (hauth : answer.authorized = true) :
    ∃ asked, toAtsign r.daemonAtsign = some asked ∧
      c.hasServiceACLsForDaemon toAtsign asked = true := by
  obtain ⟨acls, hacls, hne⟩ := doAuthCheck_authorized h hauth
  obtain ⟨a, ha⟩ := List.exists_mem_of_ne_nil acls hne
  obtain ⟨hacl, s, hs, hsid, d, hd, ⟨hsome, heq⟩, hid⟩ := mem_findMatchedServiceACLs hacls ha
  obtain ⟨asked, hasked⟩ := Option.isSome_iff_exists.mp hsome
  have hat : toAtsign d.atSign = some asked := heq.trans hasked
  exact ⟨asked, hasked, hasServiceACLsForDaemon_iff.mpr ⟨d, hd, s, hs, a, hacl, hat, hid, hsid⟩⟩

/-- An authorised answer is given only to the daemon the request is about. -/
theorem handleAuthCheck_authorized {fromAtSign : String} {r : NPAAuthCheckRequest}
    {answer : NPAAuthCheckResponse} (h : c.handleAuthCheck toAtsign fromAtSign r = some answer)
    (hauth : answer.authorized = true) :
    (∃ given, c.doAuthCheck toAtsign r = .ok given ∧ given.authorized = true) ∧
      toAtsign fromAtSign = toAtsign r.daemonAtsign := by
  simp only [handleAuthCheck, Option.bind_eq_bind, Option.bind_eq_some_iff] at h
  obtain ⟨sender, hsender, about, habout, h⟩ := h
  split at h
  · cases Option.some.inj h
    cases hauth
  · rename_i hsame
    have heq : sender = about := not_not.mp hsame
    cases hc : c.doAuthCheck toAtsign r with
    | error e =>
      rw [hc] at h
      cases Option.some.inj h
      cases hauth
    | ok given =>
      rw [hc] at h
      cases Option.some.inj h
      exact ⟨⟨_, rfl, hauth⟩, by rw [hsender, habout, heq]⟩

variable (toAtsign c) in
/-- The gate and the check agree about a request: what the check authorises is about a daemon
with rules, and the gate lets through every sender that would be answered so. -/
structure GateAgrees (r : NPAAuthCheckRequest) : Prop where
  rules : ∀ answer, c.doAuthCheck toAtsign r = .ok answer → answer.authorized = true →
    ∃ asked, toAtsign r.daemonAtsign = some asked ∧
      c.hasServiceACLsForDaemon toAtsign asked = true
  spoken : ∀ fromAtSign answer, c.handleAuthCheck toAtsign fromAtSign r = some answer →
    answer.authorized = true → c.daemonsWithRules toAtsign fromAtSign = true

variable (toAtsign c) in
theorem gateAgrees (r : NPAAuthCheckRequest) : GateAgrees toAtsign c r := by
  refine ⟨fun answer h hauth => hasServiceACLsForDaemon_of_authorized h hauth,
    fun fromAtSign answer h hauth => ?_⟩
  obtain ⟨⟨given, hgiven, hg⟩, hsame⟩ := handleAuthCheck_authorized h hauth
  obtain ⟨asked, hasked, hrules⟩ := hasServiceACLsForDaemon_of_authorized hgiven hg
  rw [daemonsWithRules, hsame, hasked]
  exact hrules

/-! A cache with one rule: the client it names is authorised, and the daemon passes the gate. -/

def oneRule : NppCache where
  clients := [⟨some "x", "Alice", "@alice"⟩]
  clientGroups := [⟨some "g", "Staff"⟩]
  clientGroupMembers := [⟨some "m", "x", "g"⟩]
  daemons := [⟨some "d", "@relay"⟩]
  services := [⟨some "s", "d", "nas", "home"⟩]
  serviceACLs := [⟨some "a", "s", "g", "localhost:22"⟩]

example : ((oneRule.handleAuthCheck some "@relay" ⟨"@relay", "nas", "home", "@alice"⟩).any
    (·.authorized) && oneRule.daemonsWithRules some "@relay") = true := by decide

end NppCache
end NoPorts.Npp
