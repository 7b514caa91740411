import NoPorts.ArduinoPolicy
import NoPorts.PermitOpenAgreement

/-! The permit list of the policy on the Arduino daemon, copied into fixed buffers, kept in the cache and
matched entry by entry, beside the Dart daemon's lookup of whole strings. -/
namespace NoPorts.ArduinoPolicy
open Lib CDaemon PermitOpen

/-! ### noports_daemon.cpp -/

/-- `_parse_port_strict`, `none` for -1. -/
def parsePortStrict (s : List Char) : Option ℕ :=
  match strtol s with
  | some (v, []) => if v < 1 ∨ 65535 < v then none else some v.toNat
  | _ => none

/-- One turn of the loop over `policy_po`. -/
def rulePermits (rhost : String) (rport : ℕ) (entry : String) : Bool :=
  match fromLast ':' entry.toList with
  | [] => false
  | _ :: port_str =>
    let h := String.ofList (beforeLast ':' entry.toList)
    -- `h` has room for 127 bytes and its null
    if 128 ≤ h.utf8ByteSize then false
    else
      let port_wildcard := port_str == ['*']
      match if port_wildcard then some 0 else parsePortStrict port_str with
      | none => false
      | some p => (h == "*" || h == rhost) && (port_wildcard || p == rport)

def policyPermits (policy_po : List String) (rhost : String) (rport : ℕ) : Bool :=
  if policy_po = [] then false else policy_po.any (rulePermits rhost rport)

/-- The check of `_continueNptRequest` on what the envelope's payload requests, `none` where it requests
nothing. -/
def requestPermitted (payload : Option Json) (policy_po : List String) : Option Bool := do
  let requested_host ← getObjectItem payload "requestedHost"
  let requested_port ← getObjectItem payload "requestedPort"
  let rhost ← getStringValue (some requested_host)
  return policyPermits policy_po (cText rhost) (portValue (some requested_port))

/-! ### Entries of the policy's list -/

/-- An entry `host:port` whose port is `*` or a number from 1 to 65535. Its host may hold colons. -/
structure ListedEntry where
  host : String
  /-- `none` is `*`. -/
  port : Option ℕ
  null_not_mem : '\x00' ∉ host.toList
  port_valid : ∀ p ∈ port, 1 ≤ p ∧ p ≤ 65535

namespace ListedEntry

/-- The entry's port behind no host. -/
def ported (e : ListedEntry) : OpenEntry := ⟨"", e.port, by decide, by decide, e.port_valid⟩

def text (e : ListedEntry) : String := e.host ++ ":" ++ e.ported.portText

end ListedEntry

/-- Whether an entry has room in a buffer of 64 bytes. -/
def fits (e : ListedEntry) : Bool := e.text.utf8ByteSize < 64

/-- The entries that the daemon has buffers for. -/
def kept (entries : List ListedEntry) : List ListedEntry := (entries.filter fits).take 16

/-- The value of a response lists these entries. -/
def Listed (value : Option Json) (entries : List ListedEntry) : Prop :=
  getObjectItem (getObjectItem value "payload") "permitOpen" = some (.arr (entries.map fun e => .str e.text))

/-- Of every request for a host and a port, the daemon with the list `policy_po` permits what the Dart
daemon permits with these entries. -/
def EnforcesAsDart (policy_po : List String) (entries : List ListedEntry) : Prop :=
  ∀ (localSshdPort : ℕ) (payload : Option Json) (host : String) (port : ℕ),
    getObjectItem payload "requestedHost" = some (.str host) →
    getObjectItem payload "requestedPort" = some (.int port) → 1 ≤ port → port ≤ 65535 →
      requestPermitted payload policy_po =
        some (permittedToOpen localSshdPort (entries.map ListedEntry.text) (.nptSessionRequest (cText host) port))

/-! ### One entry -/

theorem cText_eq_self {s : String} (h : '\x00' ∉ s.toList) : cText s = s := by
  have htake : s.toList.takeWhile (· ≠ '\x00') = s.toList := by
    apply List.takeWhile_eq_self_iff.mpr
    intro c hc
    apply decide_eq_true
    rintro rfl
    exact h hc
  rw [cText, htake, String.ofList_toList]

theorem parsePortStrict_toString {n : ℕ} (h : 1 ≤ n ∧ n ≤ 65535) : parsePortStrict (toString n).toList = some n := by
  have hrange : n < longRange := by
    have : (65535 : ℕ) < longRange := by decide
    omega
  have hcond : ¬((n : ℤ) < 1 ∨ 65535 < (n : ℤ)) := by omega
  simp only [parsePortStrict, strtol_toString hrange, hcond, if_false, Int.toNat_natCast]

namespace ListedEntry

theorem text_toList (e : ListedEntry) : e.text.toList = e.host.toList ++ ':' :: e.ported.portText.toList := by
  simp [text]

/-- An entry reads the same as a C string. -/
theorem cText_text (e : ListedEntry) : cText e.text = e.text := by
  apply cText_eq_self
  rw [e.text_toList, List.mem_append, List.mem_cons]
  rintro (hhost | hcolon | hport)
  · exact e.null_not_mem hhost
  · exact absurd hcolon (by decide)
  · exact e.ported.not_mem_portText rfl (by decide) hport

theorem host_le_text (e : ListedEntry) : e.host.utf8ByteSize ≤ e.text.utf8ByteSize := by
  rw [text, String.utf8ByteSize_append, String.utf8ByteSize_append]
  omega

/-- A rule that the buffers have room for permits its own host and port, and no other. -/
theorem rulePermits_text {e : ListedEntry} (hfits : fits e = true) {rhost : String} {rport : ℕ} :
    rulePermits rhost rport e.text = true ↔
      (e.host = "*" ∨ e.host = rhost) ∧ (e.port = none ∨ e.port = some rport) := by
  obtain ⟨hfrom, hbefore⟩ := cut_last (h := e.host.toList) e.ported.colon_portText
  have hroom : ¬128 ≤ e.host.utf8ByteSize := by
    have hlt : e.text.utf8ByteSize < 64 := of_decide_eq_true hfits
    have hle := e.host_le_text
    omega
  have hstar : e.ported.portText.toList = ['*'] ↔ e.port = none :=
    String.toList_inj.trans (OpenEntry.portText_eq_star (e := e.ported))
  rw [rulePermits, e.text_toList, hfrom, hbefore, String.ofList_toList]
  dsimp only
  rw [if_neg hroom]
  -- the port is a star, or the decimal of a number that is read back
  cases hport : e.port with
  | none =>
    have hwild : (e.ported.portText.toList == ['*']) = true := beq_iff_eq.mpr (hstar.mpr hport)
    simp only [hwild, if_true, Bool.true_or, Bool.and_true, Bool.or_eq_true, beq_iff_eq, true_or, and_true]
  | some n =>
    have hwild : (e.ported.portText.toList == ['*']) = false := by
      apply beq_eq_false_iff_ne.mpr
      intro h
      rw [hstar.mp h] at hport
      cases hport
    have htext : e.ported.portText = toString n := OpenEntry.portText_eq_toString.mpr hport
    rw [htext] at hwild ⊢
    simp only [hwild, parsePortStrict_toString (e.port_valid n hport), Bool.false_eq_true, if_false, Bool.false_or,
      Bool.and_eq_true, Bool.or_eq_true, beq_iff_eq, reduceCtorEq, false_or, Option.some.injEq]

end ListedEntry

/-! ### The list -/

/-- What the buffers of `_handlePolicyResponse` hold. -/
theorem permitOpenEntries_listed (entries : List ListedEntry) :
    permitOpenEntries (some (.arr (entries.map fun e => .str e.text))) = (kept entries).map ListedEntry.text := by
  have hread : (entries.map fun e => Json.str e.text).filterMap (fun item => item.str?.map cText) =
      entries.map ListedEntry.text := by
    rw [List.filterMap_map]
    have hone : ((fun item : Json => item.str?.map cText) ∘ fun e : ListedEntry => Json.str e.text) =
        some ∘ ListedEntry.text := by
      funext e
      exact congrArg some e.cText_text
    rw [hone, List.filterMap_eq_map]
  rw [permitOpenEntries, hread, List.filter_map, ← List.map_take]
  rfl

theorem policyPermits_iff {entries : List ListedEntry} (hfits : ∀ e ∈ entries, fits e = true) {rhost : String}
    {rport : ℕ} : policyPermits (entries.map ListedEntry.text) rhost rport = true ↔
      ∃ e ∈ entries, (e.host = "*" ∨ e.host = rhost) ∧ (e.port = none ∨ e.port = some rport) := by
  have hany : policyPermits (entries.map ListedEntry.text) rhost rport =
      (entries.map ListedEntry.text).any (rulePermits rhost rport) := by
    rw [policyPermits]
    split
    · rename_i hnil
      rw [hnil]
      rfl
    · rfl
  rw [hany, List.any_map, List.any_eq_true]
  apply exists_congr
  intro e
  apply and_congr_right
  intro he
  exact ListedEntry.rulePermits_text (hfits e he)

theorem permittedToOpen_iff {localSshdPort : ℕ} {entries : List ListedEntry} {host : String} {port : ℕ} :
    permittedToOpen localSshdPort (entries.map ListedEntry.text) (.nptSessionRequest host port) = true ↔
      ∃ e ∈ entries, (e.host = "*" ∨ e.host = host) ∧ (e.port = none ∨ e.port = some port) := by
  have hpairs : entries.map ListedEntry.text =
      (entries.map fun e => (e.host, e.ported)).map fun e => e.1 ++ ":" ++ e.2.portText := by
    rw [List.map_map]
    rfl
  rw [hpairs, permittedToOpen_pairs]
  constructor
  · rintro ⟨_, hmem, hopens⟩
    obtain ⟨e, he, rfl⟩ := List.mem_map.mp hmem
    exact ⟨e, he, hopens⟩
  · rintro ⟨e, he, hopens⟩
    exact ⟨(e.host, e.ported), List.mem_map_of_mem he, hopens⟩

theorem fits_of_mem_kept {entries : List ListedEntry} {e : ListedEntry} (h : e ∈ kept entries) : fits e = true :=
  (List.mem_filter.mp (List.mem_of_mem_take h)).2

/-- With entries that it has buffers for, the daemon permits what the Dart daemon permits. -/
theorem enforcesAsDart_of_fits {entries : List ListedEntry} (hfits : ∀ e ∈ entries, fits e = true) :
    EnforcesAsDart (entries.map ListedEntry.text) entries := by
  intro localSshdPort payload host port hhost hport hlow hhigh
  have hvalue : portValue (some (.int port)) = port := by
    have hfloor : ((port : ℤ) : ℚ).floor = (port : ℤ) := Rat.floor_intCast (port : ℤ)
    have hmod : port % 65536 = port := Nat.mod_eq_of_lt (by omega)
    simp only [portValue, getNumberValue, hfloor, Int.toNat_natCast, hmod]
  have hsame : policyPermits (entries.map ListedEntry.text) (cText host) port =
      permittedToOpen localSshdPort (entries.map ListedEntry.text) (.nptSessionRequest (cText host) port) := by
    rw [Bool.eq_iff_iff, policyPermits_iff hfits, permittedToOpen_iff]
  rw [requestPermitted, hhost, hport, ← hsame]
  change some (policyPermits _ (cText host) (portValue (some (.int port)))) = _
  rw [hvalue]

theorem permit_open_of_listed {value : Option Json} {entries : List ListedEntry} (h : Listed value entries) :
    (readDecision value).permit_open = (kept entries).map ListedEntry.text := by
  rw [readDecision, h]
  exact permitOpenEntries_listed entries

/-- The list of a decision is enforced as it was read, also when it is copied out of the cache. -/
theorem enforcesAsDart_of_listed {value : Option Json} {entries : List ListedEntry} (h : Listed value entries) :
    EnforcesAsDart (readDecision value).permit_open (kept entries) ∧
      EnforcesAsDart ((readDecision value).permit_open.take 16) (kept entries) := by
  have hall := enforcesAsDart_of_fits fun e (he : e ∈ kept entries) => fits_of_mem_kept he
  have hshort : (kept entries).length ≤ 16 := by
    rw [kept, List.length_take]
    omega
  rw [permit_open_of_listed h, ← List.map_take, List.take_of_length_le hshort]
  exact ⟨hall, hall⟩

/-! ### Where the decisions of the cache come from -/

namespace Daemon
variable {config : Config} {start t u : Daemon} {es : List Event}

/-- The policy atSign answers the check that is pending with this value, which authorises its client. -/
def AnsweredBy (config : Config) (d : Daemon) (e : Event) (pending : PolicyPending) (value : Option Json) : Prop :=
  ∃ sender clock allocated, e = .response sender (some (.success, pending.req_id)) value clock allocated ∧
    atsignEquals sender (some config.policy_atsign) = true ∧ d.policy_pending = some pending ∧
      (readDecision value).authorized = true

/-- Every decision of the cache that authorises is that of a response, for a check of the same atSign. -/
def CachedFrom (config : Config) (start : Daemon) (es : List Event) (d : Daemon) : Prop :=
  ∀ entry, some entry ∈ d.policy_decisions → entry.decision.authorized = true →
    (machine config).At start es fun u e => ∃ pending value, u.AnsweredBy config e pending value ∧
      entry.decision = readDecision value ∧ noports_normalize_atsign pending.requesting_atsign = some entry.atsign

/-- Of a run that leads to `t`: the request that a check or the cache lets through is held to the list
that the policy atSign sent. -/
structure HeldToList (config : Config) (start : Daemon) (es : List Event) (t : Daemon) : Prop where
  fresh : ∀ (pending : PolicyPending) (envelope : ℕ) (sender : Option Text) (value : Option Json) (clock : ℕ → ℤ)
    (allocated : Bool) (entries : List ListedEntry),
    t.AnsweredBy config (.response sender (some (.success, pending.req_id)) value clock allocated) pending value →
    pending.type = .npt envelope → Listed value entries →
      ∃ client policy_po,
        (t.step config (.response sender (some (.success, pending.req_id)) value clock allocated)).outputs =
          t.outputs ++ [.continueNpt envelope client policy_po] ∧ EnforcesAsDart policy_po (kept entries)
  cached : ∀ (sender : Text) (clock : ℕ → ℤ) (allocated sent : Bool) (decision : Decision),
    (noports_policy_cooldown_allows t.policy_cooldown sender .npt (clock 0)).isSome →
    noports_policy_cache_lookup t.policy_decisions sender (clock 1) allocated = some decision →
    decision.authorized = true →
      ∃ policy_po, (t.step config (.npt sender .verified clock allocated sent)).outputs =
          t.outputs ++ [.continueNpt t.envelopes.length sender policy_po] ∧
        (machine config).At start es fun u e => ∃ pending value, u.AnsweredBy config e pending value ∧
          SameAtsign pending.requesting_atsign sender ∧
            ∀ entries, Listed value entries → EnforcesAsDart policy_po (kept entries)

theorem sendPolicyRpcRequest_decisions (d : Daemon) (pending : PolicyPending) (client : Text) (sent : Bool) :
    (d.sendPolicyRpcRequest pending client sent).policy_decisions = d.policy_decisions := by
  unfold sendPolicyRpcRequest
  dsimp only
  split
  · rfl
  · rfl

theorem openCheck_decisions (d : Daemon) (type : PendingType) (sender : Text) (now_ms : ℤ) (sent : Bool) :
    (d.openCheck type sender now_ms sent).policy_decisions = d.policy_decisions :=
  sendPolicyRpcRequest_decisions _ _ _ _

theorem tellDenied_decisions (d : Daemon) (pending : PolicyPending) (error_msg : String) :
    (d.tellDenied pending error_msg).policy_decisions = d.policy_decisions := by
  rw [tellDenied]
  split
  · rfl
  · rfl

theorem reconnectAfter_decisions (d : Daemon) (clock : ℕ → ℤ) :
    (d.reconnectAfter clock).policy_decisions = d.policy_decisions := by
  rw [reconnectAfter]
  split
  · rfl
  · rfl

theorem handlePing_decisions (d : Daemon) (sender : Text) (clock : ℕ → ℤ) (allocated sent : Bool) :
    (d.handlePing config sender clock allocated sent).policy_decisions = d.policy_decisions := by
  unfold handlePing
  split
  · rfl
  · split
    · rfl
    · dsimp only
      split
      · split
        · rfl
        · rfl
      · split
        · rfl
        · exact openCheck_decisions _ _ _ _ _

theorem handleNptRequest_decisions (d : Daemon) (sender : Text) (parsed : Parsed) (clock : ℕ → ℤ)
    (allocated sent : Bool) :
    (d.handleNptRequest sender parsed clock allocated sent).policy_decisions = d.policy_decisions := by
  unfold handleNptRequest
  split
  · rfl
  · dsimp only
    split
    · rfl
    · rfl
    · rw [authoriseNpt]
      split
      · split
        · rfl
        · rfl
      · split
        · exact openCheck_decisions _ _ _ _ _
        · split
          · exact openCheck_decisions _ _ _ _ _
          · rfl

theorem handleDecryptFailure_decisions (d : Daemon) (sender : Option Text) (clock : ℕ → ℤ) (sent : Bool) :
    (d.handleDecryptFailure config sender clock sent).policy_decisions = d.policy_decisions := by
  have hreconnected := reconnectAfter_decisions d clock
  rw [handleDecryptFailure]
  split
  · exact hreconnected
  · split
    · exact (sendPolicyRpcRequest_decisions _ _ _ _).trans hreconnected
    · exact hreconnected

theorem finishCheck_decisions (d : Daemon) (pending : PolicyPending) (decision : Decision) (now_ms : ℤ)
    (allocated : Bool) : (d.finishCheck pending decision now_ms allocated).policy_decisions =
      noports_policy_cache_store d.policy_decisions pending.requesting_atsign decision now_ms allocated := by
  unfold finishCheck
  dsimp only
  split
  · exact tellDenied_decisions _ _ _
  · split
    · rfl
    · rfl

/-- Only the end of a check stores a decision, and only a response stores one that authorises. -/
theorem step_decisions (d : Daemon) (e : Event) :
    (d.step config e).policy_decisions = d.policy_decisions ∨
      ∃ pending decision now_ms allocated,
        (d.step config e).policy_decisions =
          noports_policy_cache_store d.policy_decisions pending.requesting_atsign decision now_ms allocated ∧
        (decision.authorized = true → ∃ value, d.AnsweredBy config e pending value ∧ decision = readDecision value) := by
  cases e with
  | ping sender clock allocated sent => exact Or.inl (handlePing_decisions _ _ _ _ _)
  | npt sender parsed clock allocated sent => exact Or.inl (handleNptRequest_decisions _ _ _ _ _ _)
  | decryptFailure sender clock sent => exact Or.inl (handleDecryptFailure_decisions _ _ _ _)
  | tick clock =>
    change (d.checkTimeout clock).policy_decisions = _ ∨ ∃ pending decision now_ms allocated,
      (d.checkTimeout clock).policy_decisions = _ ∧ _
    unfold checkTimeout
    split
    · exact Or.inl rfl
    · rename_i pending hpending
      split
      · right
        refine ⟨pending, ⟨false, []⟩, clock 1, true, ?_, fun hauth => by cases hauth⟩
        exact tellDenied_decisions _ _ _
      · exact Or.inl rfl
  | response sender rpc_resp value clock allocated =>
    change (d.handlePolicyResponse config sender rpc_resp value clock allocated).policy_decisions = _ ∨
      ∃ pending decision now_ms allocated',
        (d.handlePolicyResponse config sender rpc_resp value clock allocated).policy_decisions = _ ∧ _
    unfold handlePolicyResponse
    split
    · exact Or.inl rfl
    · rename_i hpolicy
      split
      · exact Or.inl rfl
      · exact Or.inl rfl
      · rename_i resp_type req_id pending hpending
        split
        · exact Or.inl rfl
        · rename_i hid
          obtain rfl := not_ne_iff.mp hid
          split
          · exact Or.inl rfl
          · right
            refine ⟨pending, readDecision value, clock 0, allocated, finishCheck_decisions _ _ _ _ _, fun hauth => ?_⟩
            exact ⟨value, ⟨sender, clock, allocated, rfl, by simpa using hpolicy, hpending, hauth⟩, rfl⟩
          · right
            exact ⟨pending, ⟨false, []⟩, clock 0, allocated, finishCheck_decisions _ _ _ _ _, fun hauth => by cases hauth⟩
          · right
            exact ⟨pending, ⟨false, []⟩, clock 0, allocated, finishCheck_decisions _ _ _ _ _, fun hauth => by cases hauth⟩

/-- What one event stores is the decision of its own response, the rest was there before. -/
theorem cachedFrom_step {e : Event} (hu : (machine config).run start es = some u) (h : CachedFrom config start es u) :
    CachedFrom config start (es ++ [e]) (u.step config e) := by
  intro entry hentry hauth
  rcases @step_decisions config u e with hsame | ⟨pending, decision, now_ms, allocated, hstored, hanswered⟩
  · rw [hsame] at hentry
    exact (h entry hentry hauth).later e
  · rw [hstored] at hentry
    rcases mem_store hentry with hold | ⟨hname, -, hdecision⟩
    · exact (h entry hold hauth).later e
    · rw [hdecision] at hauth
      obtain ⟨value, hby, hread⟩ := hanswered hauth
      exact Machine.At.now hu ⟨pending, value, hby, hdecision.trans hread, hname⟩

theorem cachedFrom_run {size : ℕ} {seed : UInt32} (hbegun : begun size seed = some start)
    (hr : (machine config).run start es = some t) : CachedFrom config start es t := by
  apply (machine config).run_induction (I := CachedFrom config start) _ _ hr
  · intro entry hentry
    unfold begun at hbegun
    split at hbegun
    · cases hbegun
    · obtain rfl := Option.some.inj hbegun
      cases (List.mem_replicate.mp hentry).2
  · intro es e u v hu h hstep
    rw [← Option.some.inj hstep]
    exact cachedFrom_step hu h

/-! ### Requests that are let through -/

/-- A response that authorises the check of an npt request hands the request on with its list. -/
theorem step_answered {pending : PolicyPending} {envelope : ℕ} {sender : Option Text} {value : Option Json}
    {clock : ℕ → ℤ} {allocated : Bool}
    (h : t.AnsweredBy config (.response sender (some (.success, pending.req_id)) value clock allocated) pending value)
    (htype : pending.type = .npt envelope) :
    (t.step config (.response sender (some (.success, pending.req_id)) value clock allocated)).outputs =
      t.outputs ++ [.continueNpt envelope (pending.requesting_atsign.take 63) (readDecision value).permit_open] := by
  obtain ⟨_, _, _, he, hpolicy, hpending, hauth⟩ := h
  obtain ⟨rfl, -, -, rfl, rfl⟩ := Event.response.inj he
  change (t.handlePolicyResponse config sender (some (.success, pending.req_id)) value clock allocated).outputs = _
  unfold handlePolicyResponse
  simp only [hpolicy, hpending, Bool.not_true, Bool.false_eq_true, if_false, ne_eq, not_true_eq_false, finishCheck,
    hauth, htype]
  rfl

/-- A decision of the cache that authorises hands the request on with its list. -/
theorem step_cached {sender : Text} {clock : ℕ → ℤ} {allocated sent : Bool} {decision : Decision}
    (hallows : (noports_policy_cooldown_allows t.policy_cooldown sender .npt (clock 0)).isSome)
    (hlookup : noports_policy_cache_lookup t.policy_decisions sender (clock 1) allocated = some decision)
    (hauth : decision.authorized = true) :
    (t.step config (.npt sender .verified clock allocated sent)).outputs =
      t.outputs ++ [.continueNpt t.envelopes.length sender (decision.permit_open.take 16)] := by
  obtain ⟨policy_cooldown, hallows⟩ := Option.isSome_iff_exists.mp hallows
  change (t.handleNptRequest sender .verified clock allocated sent).outputs = _
  rw [handleNptRequest, hallows]
  simp only [authoriseNpt, hlookup, hauth, if_true]
  rfl

/-- In every run the daemon holds each request that the policy lets through to the first 16 of the
listed entries that are shorter than 64 bytes, and permits of them what the Dart daemon does. -/
theorem heldToList_run {size : ℕ} {seed : UInt32} (hbegun : begun size seed = some start)
    (hr : (machine config).run start es = some t) : HeldToList config start es t := by
  constructor
  · intro pending envelope sender value clock allocated entries hanswered htype hlisted
    exact ⟨_, _, step_answered hanswered htype, (enforcesAsDart_of_listed hlisted).1⟩
  · intro sender clock allocated sent decision hallows hlookup hauth
    refine ⟨_, step_cached hallows hlookup hauth, ?_⟩
    obtain ⟨entry, hmem, hname, hentry, -, hcopied⟩ := cached_of_lookup hlookup hauth
    apply (cachedFrom_run hbegun hr entry hmem hentry).mono
    rintro u e ⟨pending, value, hby, hread, hsame⟩
    refine ⟨pending, value, hby, ⟨entry.atsign, hsame, hname⟩, fun entries hlisted => ?_⟩
    rw [hcopied, hread]
    exact (enforcesAsDart_of_listed hlisted).2

/-! ### One rule for every host, and lists that are cut -/

def anyEntry : ListedEntry := ⟨"*", none, by decide, by decide⟩

def answer (permitOpen : List String) : Option Json :=
  some (.obj [("payload", .obj [("authorized", .bool true), ("permitOpen", .arr (permitOpen.map .str))])])

def lists (permitOpen : List String) : Event :=
  .response (some (bytes "@policy")) (some (.success, 1)) (answer permitOpen) (fun _ => 1) true

/-- What Alice's npt request asks for. -/
def asks (host : String) (port : ℤ) : Option Json :=
  some (.obj [("requestedHost", .str host), ("requestedPort", .int port)])

theorem heldToList_run_any : ∃ t u, (machine sampleConfig).run sampleStart [npt alice] = some t ∧
    t.step sampleConfig (lists ["*:*"]) = u ∧
    (∃ client policy_po, u.outputs = t.outputs ++ [.continueNpt 0 client policy_po] ∧
      EnforcesAsDart policy_po (kept [anyEntry])) ∧
    ∃ policy_po, (u.step sampleConfig (.npt alice .verified (fun _ => 3000) true true)).outputs =
        u.outputs ++ [.continueNpt 1 alice policy_po] ∧
      (machine sampleConfig).At sampleStart [npt alice, lists ["*:*"]] fun u e => ∃ pending value,
        u.AnsweredBy sampleConfig e pending value ∧ SameAtsign pending.requesting_atsign alice ∧
          ∀ entries, Listed value entries → EnforcesAsDart policy_po (kept entries) := by
  have hfirst : (machine sampleConfig).run sampleStart [npt alice] = some _ := rfl
  have hboth : (machine sampleConfig).run sampleStart [npt alice, lists ["*:*"]] = some _ := rfl
  have hfresh := (heldToList_run begun_sample hfirst).fresh ⟨.npt 0, 1, 0, 0, alice, alice⟩ 0
    (some (bytes "@policy")) (answer ["*:*"]) (fun _ => 1) true [anyEntry]
    ⟨_, _, _, rfl, rfl, rfl, rfl⟩ rfl rfl
  have hcached := (heldToList_run begun_sample hboth).cached alice (fun _ => 3000) true true ⟨true, ["*:*"]⟩
    rfl rfl rfl
  exact ⟨_, _, hfirst, rfl, hfresh, hcached⟩

/-- Alice's request for a host and a port, decided by this list alone: what the Arduino daemon answers,
and what the Dart daemon does. -/
def Decided (permitOpen : List String) (host : String) (port : ℕ) (arduino dart : Bool) : Prop :=
  ∃ t policy_po, (machine sampleConfig).run sampleStart [npt alice, lists permitOpen] = some t ∧
    t.outputs = [.authCheck 1 alice, .continueNpt 0 alice policy_po] ∧
    requestPermitted (asks host port) policy_po = some arduino ∧
      permittedToOpen 22 permitOpen (.nptSessionRequest host port) = dart

/-- The last of 17 entries and one of 64 bytes are left out, and a host ends at its first null. -/
theorem list_cut :
    Decided (List.replicate 16 "web:80" ++ ["db:5432"]) "db" 5432 false true ∧
    Decided [String.ofList (List.replicate 61 'd') ++ ":22"] (String.ofList (List.replicate 61 'd')) 22 false true ∧
    Decided ["db\x00:22"] "db\x00" 22 false true ∧ Decided ["db:22"] "db\x00" 22 true false := by
  refine ⟨⟨_, _, rfl, rfl, ?_, ?_⟩, ⟨_, _, rfl, rfl, ?_, ?_⟩, ⟨_, _, rfl, rfl, ?_, ?_⟩, ⟨_, _, rfl, rfl, ?_, ?_⟩⟩
  all_goals decide +kernel

end Daemon
end NoPorts.ArduinoPolicy
