import Mathlib.Data.List.Perm.Basic
import Mathlib.Data.Rat.Defs
import Mathlib.Algebra.Order.Field.Rat
import NoPorts.Lib.Json
import NoPorts.Lib.Lowest
import NoPorts.Lib.Machine
import NoPorts.Lib.Table

/-! The choice of a relay: the discovery of the candidates' addresses, the daemon's and the
client's latencies, and what may come in between. -/
namespace NoPorts.RelaySelection
open Lib

inductive Thrown where
  | stateError (message : String)
  | typeError
  | other (message : String)
  deriving DecidableEq, Repr

abbrev Fields := List (String × Json)

abbrev Latencies := Table String ℤ

/-- What the selector calls: `jsonDecode`, `none` where it throws, and `toAtsign`. -/
structure Runtime where
  sshnpdAtSign : String
  jsonDecode : String → Option Json
  toAtsign : String → Except Thrown String

/-! Latencies -/

/-- `as String?` -/
def asString? : Json → Except Thrown (Option String)
  | .null => .ok none
  | .str s => .ok (some s)
  | _ => .error .typeError

/-- `as int?` -/
def asInt? : Json → Except Thrown (Option ℤ)
  | .null => .ok none
  | .int n => .ok (some n)
  | _ => .error .typeError

/-- The milliseconds a connection took, -1 where it failed. -/
def probeLatency : Option ℕ → ℤ
  | some elapsedMilliseconds => elapsedMilliseconds
  | none => -1

theorem asString?_some {j : Json} {t : String} (h : asString? j = .ok (some t)) : j = .str t := by
  cases j <;> cases h
  rfl

theorem asInt?_some {j : Json} {n : ℤ} (h : asInt? j = .ok (some n)) : j = .int n := by
  cases j <;> cases h
  rfl

/-- One relay of `measureLatencies`, by its address. -/
def measureLatency (addr : Fields) (probe : Option ℕ) : Except Thrown ℤ := do
  let ip ← asString? (Json.field addr "ipaddr")
  let port ← asInt? (Json.field addr "port")
  match ip, port with
  | some _, some _ => return probeLatency probe
  | _, _ => return -1

/-- What `measureLatencies` doesn't throw at. -/
def Readable (addr : Fields) : Prop :=
  ∃ ip port, asString? (Json.field addr "ipaddr") = .ok ip ∧ asInt? (Json.field addr "port") = .ok port

/-- There is an address to connect to, and the connection was made. -/
def Reaches (addr : Fields) (probe : Option ℕ) : Prop :=
  (∃ ip port, Json.field addr "ipaddr" = .str ip ∧ Json.field addr "port" = .int port) ∧ probe.isSome

theorem measureLatency_throws {addr : Fields} {probe : Option ℕ} {e : Thrown} (h : measureLatency addr probe = .error e) :
    ¬Readable addr := by
  rintro ⟨ip, port, hip, hport⟩
  unfold measureLatency at h
  rw [hip, hport] at h
  cases ip <;> cases port <;> cases h

theorem measureLatency_ok {addr : Fields} {probe : Option ℕ} {n : ℤ} (h : measureLatency addr probe = .ok n) :
    Readable addr ∧ (n ≠ -1 → Reaches addr probe) := by
  unfold measureLatency at h
  cases hip : asString? (Json.field addr "ipaddr") with
  | error e =>
    rw [hip] at h
    cases h
  | ok ip =>
    cases hport : asInt? (Json.field addr "port") with
    | error e =>
      rw [hip, hport] at h
      cases h
    | ok port =>
      rw [hip, hport] at h
      refine ⟨⟨ip, port, hip, hport⟩, fun hn => ?_⟩
      cases ip with
      | none =>
        cases h
        exact absurd rfl hn
      | some host =>
        cases port with
        | none =>
          cases h
          exact absurd rfl hn
        | some k =>
          have hprobe : probeLatency probe = n := Except.ok.inj h
          refine ⟨⟨host, k, asString?_some hip, asInt?_some hport⟩, ?_⟩
          cases probe with
          | none => exact absurd hprobe.symm hn
          | some _ => rfl

theorem measureLatency_reaches {addr : Fields} {probe : Option ℕ} (h : Reaches addr probe) :
    ∃ n, measureLatency addr probe = .ok n ∧ n ≠ -1 := by
  obtain ⟨⟨ip, port, hip, hport⟩, hprobe⟩ := h
  obtain ⟨ms, rfl⟩ := Option.isSome_iff_exists.mp hprobe
  refine ⟨ms, ?_, fun h => by omega⟩
  unfold measureLatency
  rw [hip, hport]
  rfl

/-- What `measureLatencies` has gathered, and its first error. -/
structure Measured where
  latencies : Latencies
  thrown : Option Thrown

def Measured.add (rvServers : Table String Fields) (probe : String → Option ℕ) (m : Measured) (rv : String) : Measured :=
  match rvServers.get? rv with
  | none => m
  | some addr =>
    match measureLatency addr (probe rv) with
    | .ok latency => { m with latencies := m.latencies.set rv latency }
    | .error e => { m with thrown := m.thrown <|> some e }

/-- The relays in the order they were measured, and how the connection to each went. The others are
measured where one throws. -/
def measureLatencies (rvServers : Table String Fields) (order : List String) (probe : String → Option ℕ) : Measured :=
  order.foldl (Measured.add rvServers probe) ⟨Table.empty, none⟩

section
variable {rvServers : Table String Fields} {order : List String} {probe : String → Option ℕ}

theorem measureLatencies_concat (rv : String) :
    measureLatencies rvServers (order ++ [rv]) probe =
      (measureLatencies rvServers order probe).add rvServers probe rv := by
  rw [measureLatencies, List.foldl_append]
  rfl

theorem get?_measureLatencies {rv : String} {n : ℤ} :
    (measureLatencies rvServers order probe).latencies.get? rv = some n ↔
      rv ∈ order ∧ ∃ addr, rvServers.get? rv = some addr ∧ measureLatency addr (probe rv) = .ok n := by
  induction order using List.reverseRecOn with
  | nil => simp [measureLatencies]
  | append_singleton order x ih =>
    rw [measureLatencies_concat, Measured.add]
    by_cases hrv : rv = x
    · subst hrv
      rw [and_iff_right (List.mem_append_right order List.mem_cons_self)]
      cases haddr : rvServers.get? rv with
      | none => simp [ih, haddr]
      | some addr =>
        cases hm : measureLatency addr (probe rv) with
        | error e => simp [ih, haddr, hm]
        | ok latency => simp [Table.get?_set, hm]
    · have hmem : rv ∈ order ++ [x] ↔ rv ∈ order := by simp [hrv]
      rw [hmem, ← ih]
      cases rvServers.get? x with
      | none => rfl
      | some addr =>
        cases hm : measureLatency addr (probe x) with
        | error e => simp only [hm]
        | ok latency => simp only [hm, Table.get?_set, if_neg hrv]

theorem measureLatencies_thrown {e : Thrown} (h : (measureLatencies rvServers order probe).thrown = some e) :
    ∃ rv ∈ order, ∃ addr, rvServers.get? rv = some addr ∧ ¬Readable addr := by
  induction order using List.reverseRecOn with
  | nil => cases h
  | append_singleton order x ih =>
    rw [measureLatencies_concat, Measured.add] at h
    have hbefore : (measureLatencies rvServers order probe).thrown = some e →
        ∃ rv ∈ order ++ [x], ∃ addr, rvServers.get? rv = some addr ∧ ¬Readable addr := by
      intro hthrown
      obtain ⟨rv, hrv, haddr⟩ := ih hthrown
      exact ⟨rv, List.mem_append_left [x] hrv, haddr⟩
    cases haddr : rvServers.get? x with
    | none =>
      rw [haddr] at h
      exact hbefore h
    | some addr =>
      rw [haddr] at h
      cases hm : measureLatency addr (probe x) with
      | ok latency =>
        simp only [hm] at h
        exact hbefore h
      | error f => exact ⟨x, List.mem_append_right order List.mem_cons_self, addr, haddr, measureLatency_throws hm⟩

end

/-- `int.toDouble`: 53 bits are kept, a tie goes to the even one. -/
def toDouble (n : ℤ) : ℚ :=
  let ulp := 2 ^ (n.natAbs.log2 - 52)
  let kept := n.natAbs / ulp
  let rest := n.natAbs % ulp
  let rounded := if ulp < 2 * rest ∨ ulp = 2 * rest ∧ kept % 2 = 1 then kept + 1 else kept
  n.sign * (rounded * ulp : ℕ)

/-- `(d + c) / 2`, the sum in 64 bits. -/
def average (d c : ℤ) : ℚ := toDouble ((d + c).bmod (2 ^ 64)) / 2

def noReachable : Thrown := .stateError "No reachable RV found"

/-- At first the best average is infinite, and every average below it. -/
def lowestAverageLatency (rt : Runtime) (daemonLatencies clientLatencies : Latencies) : Except Thrown String :=
  let score := fun rv =>
    let d := (daemonLatencies.get? rv).getD (-1)
    let c := (clientLatencies.get? rv).getD (-1)
    if d = -1 ∨ c = -1 then none else some (average d c)
  match lowest score daemonLatencies.keys with
  | none => .error noReachable
  | some (bestRv, _) => rt.toAtsign bestRv

def lowestLatency (rt : Runtime) (latencies : Latencies) : Except Thrown String :=
  match lowest (fun entry : String × ℤ => if entry.2 = -1 then none else some entry.2) latencies.entries with
  | none => .error noReachable
  | some ((bestRv, _), _) => rt.toAtsign bestRv

/-- Some connection to `rv` was made. -/
def Reached (latencies : Latencies) (rv : String) : Prop := ∃ n, latencies.get? rv = some n ∧ n ≠ -1

theorem reached_iff_getD {latencies : Latencies} {rv : String} :
    Reached latencies rv ↔ (latencies.get? rv).getD (-1) ≠ -1 := by
  unfold Reached
  cases latencies.get? rv with
  | none => simp
  | some n => simp

theorem reached_measureLatencies {rvServers : Table String Fields} {order : List String} {probe : String → Option ℕ}
    {rv : String} : Reached (measureLatencies rvServers order probe).latencies rv ↔
      rv ∈ order ∧ ∃ addr, rvServers.get? rv = some addr ∧ Reaches addr (probe rv) := by
  constructor
  · rintro ⟨n, hn, hne⟩
    obtain ⟨hrv, addr, haddr, hm⟩ := get?_measureLatencies.mp hn
    exact ⟨hrv, addr, haddr, (measureLatency_ok hm).2 hne⟩
  · rintro ⟨hrv, addr, haddr, hreaches⟩
    obtain ⟨n, hm, hne⟩ := measureLatency_reaches hreaches
    exact ⟨n, get?_measureLatencies.mpr ⟨hrv, addr, haddr, hm⟩, hne⟩

section
variable {rt : Runtime} {daemonLatencies clientLatencies : Latencies}

/-- The relay chosen was reached by the client, and none that was reached is nearer to it. -/
theorem lowestLatency_ok (hrt : ∀ rv n, clientLatencies.get? rv = some n → rt.toAtsign rv = .ok rv) {best : String}
    (h : lowestLatency rt clientLatencies = .ok best) :
    ∃ n, clientLatencies.get? best = some n ∧ n ≠ -1 ∧
      ∀ rv k, clientLatencies.get? rv = some k → k ≠ -1 → n ≤ k := by
  unfold lowestLatency at h
  split at h
  · cases h
  · rename_i rv n m hlow
    obtain ⟨hmem, hscore, hle⟩ := lowest_spec hlow
    obtain ⟨hne, hn⟩ := Option.ite_none_left_eq_some.mp hscore
    have hn : n = m := Option.some.inj hn
    subst hn
    have hget := Table.mem_entries_iff.mp hmem
    rw [hrt rv n hget] at h
    obtain rfl := Except.ok.inj h
    refine ⟨n, hget, hne, fun rv' k hk hkne => ?_⟩
    exact hle (rv', k) (Table.mem_entries_iff.mpr hk) k (if_neg hkne)

theorem lowestLatency_error (hrt : ∀ rv n, clientLatencies.get? rv = some n → rt.toAtsign rv = .ok rv) {e : Thrown}
    (h : lowestLatency rt clientLatencies = .error e) (rv : String) : ¬Reached clientLatencies rv := by
  rintro ⟨k, hk, hne⟩
  unfold lowestLatency at h
  split at h
  · rename_i hnone
    have hscore := lowest_eq_none.mp hnone (rv, k) (Table.mem_entries_iff.mpr hk)
    rw [if_neg hne] at hscore
    cases hscore
  · rename_i best n m hlow
    rw [hrt best n (Table.mem_entries_iff.mp (lowest_spec hlow).1)] at h
    cases h

/-- The relay chosen was reached by both, and none that was has a lower average. -/
theorem lowestAverageLatency_ok (hrt : ∀ rv n, clientLatencies.get? rv = some n → rt.toAtsign rv = .ok rv)
    {best : String} (h : lowestAverageLatency rt daemonLatencies clientLatencies = .ok best) :
    ∃ d c, daemonLatencies.get? best = some d ∧ clientLatencies.get? best = some c ∧ d ≠ -1 ∧ c ≠ -1 ∧
      ∀ rv d' c', daemonLatencies.get? rv = some d' → clientLatencies.get? rv = some c' → d' ≠ -1 → c' ≠ -1 →
        average d c ≤ average d' c' := by
  unfold lowestAverageLatency at h
  simp only at h
  split at h
  · cases h
  · rename_i rv a hlow
    obtain ⟨hmem, hscore, hle⟩ := lowest_spec hlow
    obtain ⟨hne, ha⟩ := Option.ite_none_left_eq_some.mp hscore
    obtain ⟨hd, hc⟩ := not_or.mp hne
    obtain ⟨d, hd', hdne⟩ := reached_iff_getD.mpr hd
    obtain ⟨c, hc', hcne⟩ := reached_iff_getD.mpr hc
    rw [hrt rv c hc'] at h
    obtain rfl := Except.ok.inj h
    simp only [hd', hc', Option.getD_some, Option.some.injEq] at ha
    refine ⟨d, c, hd', hc', hdne, hcne, fun x e f he hf hene hfne => ?_⟩
    rw [ha]
    apply hle x (Table.mem_keys_iff.mpr ⟨e, he⟩)
    simp only [he, hf, Option.getD_some, if_neg (not_or.mpr ⟨hene, hfne⟩)]

theorem lowestAverageLatency_error (hrt : ∀ rv n, clientLatencies.get? rv = some n → rt.toAtsign rv = .ok rv)
    {e : Thrown} (h : lowestAverageLatency rt daemonLatencies clientLatencies = .error e) (rv : String) :
    ¬(Reached clientLatencies rv ∧ Reached daemonLatencies rv) := by
  rintro ⟨hc, hd⟩
  unfold lowestAverageLatency at h
  simp only at h
  split at h
  · rename_i hnone
    have hmem : rv ∈ daemonLatencies.keys := Table.mem_keys_iff.mpr ⟨hd.choose, hd.choose_spec.1⟩
    have hscore := lowest_eq_none.mp hnone rv hmem
    rw [if_neg (not_or.mpr ⟨reached_iff_getD.mp hd, reached_iff_getD.mp hc⟩)] at hscore
    cases hscore
  · rename_i best a hlow
    obtain ⟨hne, -⟩ := Option.ite_none_left_eq_some.mp (lowest_spec hlow).2.1
    obtain ⟨c, hbest, -⟩ := reached_iff_getD.mpr (not_or.mp hne).2
    rw [hrt best c hbest] at h
    cases h

end

/-! The requests -/

/-- Where the `notify` of a request is. -/
inductive Notify where
  | sending
  | sent
  | threw
  deriving DecidableEq, Repr

/-- A `requestRelayIpAddress`, its subscription included. -/
structure Request where
  rv : String
  notify : Notify
  completer : Option Fields
  timedOut : Bool
  listening : Bool

inductive RequestEvent where
  /-- A notification that the subscription's regex matches. -/
  | notification (fromAtSign : String) (value : Option String)
  | notifyReturned
  | notifyThrew
  | timeout

/-- `jsonDecode`, and the type that the completer takes. -/
def discoverFields (rt : Runtime) (value : String) : Option Fields := (rt.jsonDecode value).bind Json.obj?

/-- The listener, and the errors it throws. -/
def Request.receive (rt : Runtime) (r : Request) (fromAtSign : String) (value : Option String) : Request × ℕ :=
  if r.completer.isNone ∧ fromAtSign = r.rv then
    match value with
    | none => (r, 0)
    | some value =>
      match discoverFields rt value with
      | some fields => ({ r with completer := some fields, listening := false }, 0)
      | none => (r, 1)
  else (r, 0)

def Request.turn (rt : Runtime) (r : Request) : RequestEvent → Option (Request × ℕ)
  | .notification fromAtSign value => if r.listening then some (r.receive rt fromAtSign value) else none
  | .notifyReturned => if r.notify = .sending then some ({ r with notify := .sent }, 0) else none
  | .notifyThrew => if r.notify = .sending then some ({ r with notify := .threw }, 0) else none
  | .timeout =>
    if r.notify = .sent ∧ r.completer.isNone ∧ r.timedOut = false then
      some ({ r with timedOut := true, listening := false }, 0)
    else none

/-- What the request has returned. -/
def Request.ipInfo (r : Request) : Option Fields :=
  match r.notify with
  | .sent => r.completer
  | _ => none

/-- The request has returned or thrown. -/
def Request.ended (r : Request) : Bool :=
  match r.notify with
  | .sending => false
  | .threw => true
  | .sent => r.completer.isSome || r.timedOut

def requestRelayIpAddress (rv : String) : Request := ⟨rv, .sending, none, false, true⟩

/-- The `fetchDeviceLatencies` of a selection, its subscription included. -/
structure DeviceRequest where
  notify : Notify
  /-- `some none` is an error. -/
  completer : Option (Option Latencies)
  timedOut : Bool
  listening : Bool
  /-- `deviceLatencyFuture` -/
  latency : Option (Option Latencies)

inductive DeviceEvent where
  | notification (fromAtSign : String) (value : Option String)
  | notifyReturned
  | notifyThrew
  /-- The timeout of the completer's future, set when `notify` returns. -/
  | timeout
  /-- The timeout of the whole request, set when it starts. -/
  | deviceLatencyTimeout

/-- `Map<String, int>.from` -/
def latenciesOf (raw : Fields) : Option Latencies :=
  raw.foldlM (fun latencies entry =>
    match entry.2 with
    | .int n => some (latencies.set entry.1 n)
    | _ => none) Table.empty

/-- A response's latencies, `none` where decoding them throws. -/
def decodeLatencies (rt : Runtime) (value : Option String) : Option Latencies := do
  let value ← value
  let raw ← (rt.jsonDecode value).bind Json.obj?
  latenciesOf raw

/-- What `fetchDeviceLatencies` has come to; `some none` is a throw. -/
def DeviceRequest.fetched (d : DeviceRequest) : Option (Option Latencies) :=
  match d.notify with
  | .sending => none
  | .threw => some none
  | .sent => d.completer <|> if d.timedOut then some none else none

def DeviceRequest.settle (d : DeviceRequest) : DeviceRequest := { d with latency := d.latency <|> d.fetched }

/-- The listener. Nothing listens to the completer's future before `notify` has returned: its error is uncaught.
A notification stands where that error would be delivered. -/
def DeviceRequest.receive (rt : Runtime) (d : DeviceRequest) (fromAtSign : String) (value : Option String) :
    DeviceRequest × ℕ :=
  if fromAtSign = rt.sshnpdAtSign ∧ d.completer.isNone then
    let latencies := decodeLatencies rt value
    ({ d with completer := some latencies, listening := false },
      if latencies.isNone ∧ d.notify ≠ .sent then 1 else 0)
  else (d, 0)

/-- The same duration gives both timeouts, so that the one set later comes later. -/
def DeviceRequest.turn (rt : Runtime) (d : DeviceRequest) : DeviceEvent → Option (DeviceRequest × ℕ)
  | .notification fromAtSign value => if d.listening then some (d.receive rt fromAtSign value) else none
  | .notifyReturned => if d.notify = .sending then some ({ d with notify := .sent }, 0) else none
  | .notifyThrew => if d.notify = .sending then some ({ d with notify := .threw }, 0) else none
  | .timeout =>
    if d.notify = .sent ∧ d.completer.isNone ∧ d.timedOut = false ∧ d.latency.isSome then
      some ({ d with timedOut := true, listening := false }, 0)
    else none
  | .deviceLatencyTimeout => if d.latency.isNone then some ({ d with latency := some none }, 0) else none

def fetchDeviceLatencies : DeviceRequest := ⟨.sending, none, false, true, none⟩

/-! The selection -/

structure State where
  requests : List Request
  rvIpMap : Table String Fields
  device : Option DeviceRequest
  clientLatency : Option Measured
  /-- The selection's own future. -/
  result : Option (Except Thrown String)
  /-- Errors raised outside it. -/
  uncaught : ℕ

inductive Event where
  | request (i : ℕ) (e : RequestEvent)
  | device (e : DeviceEvent)
  /-- `latencyMeasurer` is done: the relays in the order they were measured, and how each connection went. -/
  | measured (order : List String) (probe : String → Option ℕ)

/-- Once every request has ended. -/
def State.discovered (s : State) : State :=
  if s.device.isNone ∧ s.result.isNone ∧ s.requests.all Request.ended then
    if s.rvIpMap.entries.isEmpty then
      { s with result := some (.error (.stateError "No RV servers could be resolved")) }
    else { s with device := some fetchDeviceLatencies }
  else s

/-- The rest of the selection, once it has both latencies. -/
def State.select (rt : Runtime) (s : State) : State :=
  match s.result, s.clientLatency, s.device with
  | none, some measured, some device =>
    match measured.thrown, device.latency with
    | some e, _ => { s with result := some (.error e) }
    | none, none => s
    | none, some none => { s with result := some (lowestLatency rt measured.latencies) }
    | none, some (some deviceLatency) =>
      { s with result := some (lowestAverageLatency rt deviceLatency measured.latencies) }
  | _, _, _ => s

/-- Request `i` from `r` to `r'`. -/
def State.setRequest (s : State) (i : ℕ) (r r' : Request) : State :=
  let s' := { s with requests := s.requests.set i r' }
  match r.ipInfo, r'.ipInfo with
  | none, some ipInfo => { s' with rvIpMap := s.rvIpMap.set r.rv ipInfo }
  | _, _ => s'

def step (rt : Runtime) (s : State) : Event → Option State
  | .request i e => do
    let r ← s.requests[i]?
    let (r', errors) ← r.turn rt e
    return { s.setRequest i r r' with uncaught := s.uncaught + errors }.discovered
  | .device e => do
    let d ← s.device
    let (d', errors) ← d.turn rt e
    return { s with device := some d'.settle, uncaught := s.uncaught + errors }.select rt
  | .measured order probe =>
    if s.device.isSome ∧ s.clientLatency.isNone ∧ order.Perm s.rvIpMap.keys then
      some ({ s with clientLatency := some (measureLatencies s.rvIpMap order probe) }.select rt)
    else none

def machine (rt : Runtime) : Machine State Event := ⟨step rt⟩

/-- The relays to check: those given, or those of the list that was fetched. -/
def toCheck (rt : Runtime) (rvAtSigns : Option (List String)) (fetchStandardRelays : Except Thrown Fields) :
    Except Thrown (List String) :=
  match rvAtSigns with
  | some (rv :: rvs) => .ok (rv :: rvs)
  | _ => do
    let standardRelaysRaw ← fetchStandardRelays
    match (Json.field standardRelaysRaw "standard_relays").obj? with
    | none => .error .typeError
    | some defaultRvList => defaultRvList.mapM fun entry => rt.toAtsign entry.1

def selectBestRelay (rvs : List String) : State :=
  State.discovered ⟨rvs.map requestRelayIpAddress, Table.empty, none, none, none, 0⟩

end NoPorts.RelaySelection
