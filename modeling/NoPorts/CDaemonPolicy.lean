import Mathlib.Data.Set.Basic
import NoPorts.EnrollmentSignatureC

/-! Whom the C daemon serves and what it opens for them: the manager list, the
permit-open lists, and the policy service's decisions with the cache and the
throttle that stand before it. -/
namespace NoPorts.CDaemon
open Lib

/-- The parameters the loop and its handlers read. `permitopen` zips the two
arrays of hosts and ports, a port of 0 standing for `*`. -/
structure SshnpdParams where
  atsign : String
  device : String
  managerList : List String
  policy : Option String
  policyCacheSize : ℕ
  permitopen : List (String × ℕ)
  localSshdPort : ℕ
  clientKeyCheckSecs : ℕ
  requireEnrollmentSignature : Bool

/-! ### authorization.c -/

/-- What `SSHNPD_ATSIGN_BUFFER_LEN` leaves before the terminating null. -/
def atsignBufferRoom : ℕ := 56

def reservedCharacters : List Char := "!*'\x60();:&=+$,/?#[]\x7b\x7d".toList

def isWhitespaceOrControl (c : Char) : Bool := c.toNat ≤ 0x1F || c.toNat == 0x7F || c == ' '

/-- The loop, with `o` bytes written. A character is written byte by byte, so it
fits when its last byte does. -/
def normalizeLoop : ℕ → List Char → Option (List Char)
  | _, [] => some []
  | o, c :: cs =>
    if c = '@' then none
    else if isWhitespaceOrControl c || reservedCharacters.contains c then none
    else if c = '.' then normalizeLoop o cs
    else if atsignBufferRoom < o + c.utf8Size then none
    else (normalizeLoop (o + c.utf8Size) cs).map (c.toLower :: ·)

def normalizeAtsign (input : String) : Option String :=
  if input = "" then none
  else
    match normalizeLoop 1 (dropPrefix ['@'] input.toList) with
    | none => none
    | some [] => none
    | some out => some (String.ofList ('@' :: out))

def isManagerAtsign (params : SshnpdParams) (atsign : Option String) : Bool :=
  match atsign with
  | none => false
  | some atsign =>
    match normalizeAtsign atsign with
    | none => false
    | some normalized => params.managerList.contains normalized

/-! ### permitopen.c -/

def shouldPermitopen (permitopen : List (String × ℕ)) (host : String) (port : ℕ) : Bool :=
  permitopen.any fun e => (e.2 == 0 || e.2 == port) && (e.1 == "*" || e.1 == host)

/-- The connections a permit-open list opens. -/
def openedBy (permitopen : List (String × ℕ)) : Set (String × ℕ) :=
  {c | ∃ e ∈ permitopen, (e.2 = 0 ∨ e.2 = c.2) ∧ (e.1 = "*" ∨ e.1 = c.1)}

theorem shouldPermitopen_iff {permitopen : List (String × ℕ)} {host : String} {port : ℕ} :
    shouldPermitopen permitopen host port = true ↔ (host, port) ∈ openedBy permitopen := by
  simp only [shouldPermitopen, openedBy, List.any_eq_true, Bool.and_eq_true, Bool.or_eq_true,
    beq_iff_eq, Set.mem_ofPred_eq]

/-- A port of 0 is opened by a wildcard alone, which opens every other as well. -/
theorem openedBy_of_zero {permitopen : List (String × ℕ)} {host : String}
    (h : (host, 0) ∈ openedBy permitopen) (port : ℕ) : (host, port) ∈ openedBy permitopen := by
  obtain ⟨e, he, hport, hhost⟩ := h
  exact ⟨e, he, Or.inl (hport.elim id id), hhost⟩

/-! ### policy.c -/

structure PolicyDecision where
  authorized : Bool
  permitOpen : List String
  deriving DecidableEq, Repr

/-- A zeroed decision, as `policy_decision_free` leaves it. -/
def PolicyDecision.zero : PolicyDecision := ⟨false, []⟩

/-- The values of an `unsigned long`. -/
def ulongRange : ℕ := 18446744073709551616

/-- The number a text starts with and what follows it, `none` when it starts with
none or with one out of range. A sign is taken, a negative number wraps. -/
def strtoul (s : List Char) : Option (ℕ × List Char) :=
  let text := s.dropWhile isAsciiSpace
  let negative := text.head? == some '-'
  let digits := if negative then text.drop 1 else dropPrefix ['+'] text
  let num := digits.takeWhile Char.isDigit
  let value := num.foldl (fun n c => 10 * n + (c.toNat - 48)) 0
  if num = [] ∨ ulongRange ≤ value then none
  else some (if negative then (ulongRange - value) % ulongRange else value,
    digits.dropWhile Char.isDigit)

/-- The port an entry names, `none` when it is malformed or out of range. -/
def entryPort (portStr : List Char) : Option ℕ :=
  match strtoul portStr with
  | some (port, []) => if 1 ≤ port ∧ port ≤ 65535 then some port else none
  | _ => none

/-- One turn of the loop over a decision's entries. -/
def entryPermits (host : String) (port : ℕ) (entry : String) : Bool :=
  match fromLast ':' entry.toList with
  | [] => false
  | _ :: portStr =>
    (beforeLast ':' entry.toList == ['*'] || beforeLast ':' entry.toList == host.toList) &&
      (portStr == ['*'] || entryPort portStr == some port)

def policyPermitsOpen (decision : PolicyDecision) (host : String) (port : ℕ) : Bool :=
  decision.permitOpen.any (entryPermits host port)

/-- The connections a decision opens: those an entry `host:port` names, `*` naming
every host or every port. -/
def PolicyDecision.opens (decision : PolicyDecision) : Set (String × ℕ) :=
  {c | ∃ entry ∈ decision.permitOpen, ∃ host port : List Char,
    entry.toList = host ++ ':' :: port ∧ ':' ∉ port ∧ (host = ['*'] ∨ host = c.1.toList) ∧
      (port = ['*'] ∨ entryPort port = some c.2)}

theorem entryPermits_iff {host entry : String} {port : ℕ} :
    entryPermits host port entry = true ↔ ∃ h p : List Char, entry.toList = h ++ ':' :: p ∧
      ':' ∉ p ∧ (h = ['*'] ∨ h = host.toList) ∧ (p = ['*'] ∨ entryPort p = some port) := by
  by_cases hc : ':' ∈ entry.toList
  · obtain ⟨h, p, he, hp⟩ := exists_cut_last hc
    obtain ⟨hfrom, hbefore⟩ := cut_last (h := h) hp
    rw [entryPermits, he, hfrom, hbefore]
    simp only [Bool.and_eq_true, Bool.or_eq_true, beq_iff_eq]
    constructor
    · intro hpermits
      exact ⟨h, p, rfl, hp, hpermits⟩
    · rintro ⟨h', p', heq, hp', hpermits⟩
      obtain ⟨hfrom', hbefore'⟩ := cut_last (h := h') hp'
      have hh : h = h' := by rw [← hbefore, ← hbefore', heq]
      have hpp : p = p' := List.tail_eq_of_cons_eq (by rw [← hfrom, ← hfrom', heq])
      rwa [hh, hpp]
  · have hnone : fromLast ':' entry.toList = [] := if_neg hc
    rw [entryPermits, hnone]
    refine iff_of_false Bool.false_ne_true ?_
    rintro ⟨h, p, he, -⟩
    exact hc (by rw [he]; exact List.mem_append_right h List.mem_cons_self)

theorem policyPermitsOpen_iff {decision : PolicyDecision} {host : String} {port : ℕ} :
    policyPermitsOpen decision host port = true ↔ (host, port) ∈ decision.opens := by
  simp only [policyPermitsOpen, PolicyDecision.opens, List.any_eq_true, entryPermits_iff,
    Set.mem_ofPred_eq]

theorem entryPort_pos {port : List Char} {n : ℕ} (h : entryPort port = some n) : 0 < n := by
  unfold entryPort at h
  split at h
  · split at h
    · rename_i hrange
      obtain rfl := Option.some.inj h
      omega
    · cases h
  · cases h

theorem PolicyDecision.opens_of_zero {decision : PolicyDecision} {host : String}
    (h : (host, 0) ∈ decision.opens) (port : ℕ) : (host, port) ∈ decision.opens := by
  obtain ⟨entry, hentry, h', p, he, hp, hhost, hport⟩ := h
  refine ⟨entry, hentry, h', p, he, hp, hhost, ?_⟩
  rcases hport with hstar | hzero
  · exact Or.inl hstar
  · have hpos := entryPort_pos hzero
    omega

/-- Equal but for a leading `@` on either. -/
def atsignEquals (a b : Option String) : Bool :=
  match a, b with
  | some a, some b => dropPrefix ['@'] a.toList == dropPrefix ['@'] b.toList
  | _, _ => false

/-! ### policy_limits.c -/

def policyCacheTtlMs : ℤ := 15000
def policyCacheMaxSize : ℕ := 64
def policyThrottleSlots : ℕ := 8
def policyThrottleMs : ℤ := 2000

inductive NotificationKey where
  | none | sshpublickey | ping | sshRequest | nptRequest
  deriving DecidableEq, Repr

/-- The slot last written longest ago, of slots that are all in use. -/
def oldestSlot {α : Type*} (checkedAt : α → ℤ) (slots : List (Option α)) : ℕ :=
  let at' (i : ℕ) : ℤ := ((slots[i]?.join).map checkedAt).getD 0
  (List.range slots.length).foldl (fun slot i => if at' i < at' slot then i else slot) 0

/-- The slot to write: the one already held for it, else the first unused one,
else the oldest. -/
def chooseSlot {α : Type*} (same : α → Bool) (checkedAt : α → ℤ) (slots : List (Option α)) : ℕ :=
  match slots.findIdx? (·.any same), slots.findIdx? Option.isNone with
  | some i, _ => i
  | none, some i => i
  | none, none => oldestSlot checkedAt slots

structure PolicyCacheEntry where
  atsign : String
  checkedAtMs : ℤ
  decision : PolicyDecision
  deriving DecidableEq, Repr

/-- `none` in an entry that is not used. -/
structure PolicyCache where
  entries : List (Option PolicyCacheEntry)
  deriving DecidableEq, Repr

namespace PolicyCache

def init (size : ℕ) : Option PolicyCache :=
  if policyCacheMaxSize < size then none else some ⟨List.replicate size none⟩

def lookup (cache : PolicyCache) (atsign : String) (nowMs : ℤ) : Option PolicyDecision :=
  match normalizeAtsign atsign with
  | none => none
  | some normalized =>
    match cache.entries.reduceOption.find? (·.atsign == normalized) with
    | none => none
    | some entry =>
      if policyCacheTtlMs ≤ nowMs - entry.checkedAtMs then none else some entry.decision

def store (cache : PolicyCache) (atsign : String) (decision : PolicyDecision) (nowMs : ℤ) :
    PolicyCache :=
  match cache.entries, normalizeAtsign atsign with
  | [], _ => cache
  | _, none => cache
  | entries, some normalized =>
    let slot := chooseSlot (·.atsign == normalized) (·.checkedAtMs) entries
    ⟨entries.set slot (some ⟨normalized, nowMs, decision⟩)⟩

end PolicyCache

structure PolicyThrottleSlot where
  atsign : String
  kind : NotificationKey
  checkedAtMs : ℤ
  deriving DecidableEq, Repr

structure PolicyThrottle where
  slots : List (Option PolicyThrottleSlot)
  deriving DecidableEq, Repr

namespace PolicyThrottle

def init : PolicyThrottle := ⟨List.replicate policyThrottleSlots none⟩

/-- The throttle once the check is recorded, `none` when it is not allowed. -/
def allows (throttle : PolicyThrottle) (atsign : String) (kind : NotificationKey) (nowMs : ℤ) :
    Option PolicyThrottle :=
  match normalizeAtsign atsign with
  | none => none
  | some normalized =>
    let same (s : PolicyThrottleSlot) : Bool := s.kind == kind && s.atsign == normalized
    match throttle.slots.reduceOption.find? same with
    | some last =>
      if nowMs - last.checkedAtMs < policyThrottleMs then none
      else some ⟨throttle.slots.set (chooseSlot same (·.checkedAtMs) throttle.slots)
        (some ⟨normalized, kind, nowMs⟩)⟩
    | none => some ⟨throttle.slots.set (chooseSlot same (·.checkedAtMs) throttle.slots)
        (some ⟨normalized, kind, nowMs⟩)⟩

end PolicyThrottle

inductive PolicyGateResult where
  | allow | deny | drop
  deriving DecidableEq, Repr

/-- What `now_ms` answers at the lookup, at the throttle and at the store. -/
structure GateClock where
  lookupMs : ℤ
  throttleMs : ℤ
  storeMs : ℤ

/-- The gate's result, with the data it writes: the cache, the throttle, and the
decision it is handed. -/
structure Gate where
  cache : PolicyCache
  throttle : PolicyThrottle
  result : PolicyGateResult
  decision : PolicyDecision

def PolicyDecision.result (decision : PolicyDecision) : PolicyGateResult :=
  if decision.authorized then .allow else .deny

/-- `check` is what `policy_auth_check` answers, `none` when the question could
not be sent, which zeroes the decision all the same. -/
def policyGate (cache : PolicyCache) (throttle : PolicyThrottle) (clientAtsign : String)
    (kind : NotificationKey) (clock : GateClock) (check : Option PolicyDecision)
    (decision : PolicyDecision) : Gate :=
  match cache.lookup clientAtsign clock.lookupMs with
  | some cached => ⟨cache, throttle, cached.result, cached⟩
  | none =>
    match throttle.allows clientAtsign kind clock.throttleMs with
    | none => ⟨cache, throttle, .drop, decision⟩
    | some throttle =>
      match check with
      | none => ⟨cache, throttle, .deny, .zero⟩
      | some checked =>
        ⟨cache.store clientAtsign checked clock.storeMs, throttle, checked.result, checked⟩

end NoPorts.CDaemon
