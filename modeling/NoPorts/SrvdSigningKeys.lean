import Mathlib.Data.List.InsertIdx
import NoPorts.EnrollmentSignature
import NoPorts.SrvdModels
import NoPorts.Lib.Machine
import NoPorts.Lib.Table

/-! The relay's record of its sessions, and the re-checks of the signing keys their
sockets were accepted with: ticks, lookups under way, and sessions that come and go. -/
namespace NoPorts.Srvd
open Lib Signing

/-- What a lookup of a public record comes to. -/
inductive Lookup where
  | held | missing | failed
  deriving DecidableEq, Repr

/-! ### public_lookup.dart -/

def perEnrollmentRevoked : String := "r.__e"

def perEnrollmentDeleted : String := "d.__e"

def isLowerIdChar (c : Char) : Bool := c.isLower || c.isDigit || c == '_' || c == '-'

/-- The groups of `_apskUri`: the enrollment's id, and the atSign. -/
def apskUri (uri : String) : Option (String × String) :=
  match stripPrefix? "public:_apsk.".toList uri.toList with
  | none => none
  | some rest =>
    let id := rest.takeWhile isLowerIdChar
    match id, stripPrefix? ".a.__e".toList (rest.dropWhile isLowerIdChar) with
    | [], _ => none
    | _, some ('@' :: name) =>
      if name ≠ [] ∧ name.all (fun c => c != '@' && c != ':' && !isWhitespace c) then
        some (String.ofList id, String.ofList ('@' :: name))
      else none
    | _, _ => none

/-- The records that tell where `uri` has been withdrawn to. -/
def withdrawnRecords (uri : String) : Option (String × String) :=
  (apskUri uri).map fun (id, atSign) =>
    ("public:_apsk." ++ id ++ "." ++ perEnrollmentRevoked ++ atSign,
      "public:_apsk." ++ id ++ "." ++ perEnrollmentDeleted ++ atSign)

/-- `withdrawnTo`, once both lookups are done, which are none for a `uri` of another
shape. -/
def withdrawnTo (records : Option (String × String)) (revoked deleted : Lookup) :
    Except Unit (Option String) :=
  match records with
  | none => .ok none
  | some _ =>
    if revoked = .held then .ok (some perEnrollmentRevoked)
    else if deleted = .held then .ok (some perEnrollmentDeleted)
    else if revoked = .failed ∨ deleted = .failed then .error ()
    else .ok none

/-! ### srvd_impl.dart -/

def maxSigningKeysPerSession : ℕ := 4

inductive EndMessage where
  | stop (worker : ℕ)
  | endSession (sessionId : String)
  | nobody
  deriving DecidableEq, Repr

/-- One call of `_endSession`, and what it sends. -/
structure Ending where
  ref : ℕ
  sessionId : String
  signingKey : String
  withdrawnTo : String
  message : EndMessage
  deriving DecidableEq, Repr

/-- What a `_recheck` is suspended on. -/
inductive RecheckStage where
  | lookupDirect
  | withdrawnTo (records : Option (String × String))
  deriving DecidableEq, Repr

structure KeyChecks where
  sessions : Table String SessionInfo
  keysBeingChecked : List String
  /-- The running calls of `_recheck`, by their keys. -/
  rechecks : List (String × RecheckStage)
  endings : List Ending
  /-- The next session's `ref`. -/
  refs : ℕ

inductive KeyEvent where
  /-- A session is recorded; `worker` is its port-pair worker, when it has one. -/
  | startSession (params : SrvdSessionParams) (worker : ℕ)
  | removeSession (sessionId : String)
  | recordSigningKey (sessionId signingKeyUri : String)
  | checkSigningKeys
  | lookedUp (recheck : ℕ) (answer : Lookup)
  | located (recheck : ℕ) (revoked deleted : Lookup)

namespace KeyChecks

/-- `SessionInfo` of a session that starts; none for a single-port session when the relay
is not bound to port 443. -/
def startSession (s : KeyChecks) (bind443 : Bool) (params : SrvdSessionParams) (worker : ℕ) :
    KeyChecks :=
  if params.only443 && !bind443 then s
  else { s with
    sessions := s.sessions.set params.sessionId
      ⟨s.refs, params, if params.only443 then none else some worker, [], false⟩
    refs := s.refs + 1 }

def recordSigningKey (s : KeyChecks) (sdk : Sdk) (sessionId signingKeyUri : String) : KeyChecks :=
  let key := sdk.canonicalSigningKeyUri signingKeyUri
  { s with sessions := s.sessions.modify sessionId fun si =>
      if si.signingKeys.contains key then si
      else if maxSigningKeysPerSession ≤ si.signingKeys.length then si
      else { si with signingKeys := si.signingKeys ++ [key] } }

/-- The keys a pass looks up. -/
def keysToCheck (s : KeyChecks) : List String :=
  ((s.sessions.values.filter (!·.ending)).flatMap (·.signingKeys)).eraseDups.filter
    (!s.keysBeingChecked.contains ·)

/-- `checkSigningKeys`, each of its `_recheck`s to its first await. -/
def checkSigningKeys (s : KeyChecks) : KeyChecks := { s with
  keysBeingChecked := s.keysBeingChecked ++ s.keysToCheck
  rechecks := s.rechecks ++ s.keysToCheck.map (·, .lookupDirect) }

def toBeEnded (key : String) (si : SessionInfo) : Bool := !si.ending && si.signingKeys.contains key

def endMessage (sessionId : String) (si : SessionInfo) : EndMessage :=
  match si.toWorker with
  | some worker => .stop worker
  | none => if si.params.only443 then .endSession sessionId else .nobody

/-- `_endSession` for every session that `key` withdrawn to `location` ends. -/
def endSessions (s : KeyChecks) (key location : String) : KeyChecks := { s with
  sessions := s.sessions.mapValues fun _ si =>
    if toBeEnded key si then { si with ending := true } else si
  endings := s.endings ++ (s.sessions.entries.filter fun e => toBeEnded key e.2).map fun e =>
    ⟨e.2.ref, e.1, key, location, endMessage e.1 e.2⟩ }

/-- The end of a `_recheck`, `location` being where its key was withdrawn to. -/
def finishRecheck (s : KeyChecks) (recheck : ℕ) (key : String) (location : Option String) :
    KeyChecks :=
  let s := match location with
    | none => s
    | some location => s.endSessions key location
  { s with
    keysBeingChecked := s.keysBeingChecked.filter (· != key)
    rechecks := s.rechecks.eraseIdx recheck }

def lookedUp (s : KeyChecks) (recheck : ℕ) (answer : Lookup) : Option KeyChecks :=
  match s.rechecks[recheck]? with
  | some (key, .lookupDirect) =>
    match answer with
    | .held | .failed => some (s.finishRecheck recheck key none)
    | .missing => some { s with
        rechecks := s.rechecks.set recheck (key, .withdrawnTo (withdrawnRecords key)) }
  | _ => none

def located (s : KeyChecks) (recheck : ℕ) (revoked deleted : Lookup) : Option KeyChecks :=
  match s.rechecks[recheck]? with
  | some (key, .withdrawnTo records) =>
    match withdrawnTo records revoked deleted with
    | .error _ => some (s.finishRecheck recheck key none)
    | .ok location => some (s.finishRecheck recheck key location)
  | _ => none

def step (bind443 : Bool) (sdk : Sdk) (s : KeyChecks) : KeyEvent → Option KeyChecks
  | .startSession params worker => some (s.startSession bind443 params worker)
  | .removeSession sessionId => some { s with sessions := s.sessions.erase sessionId }
  | .recordSigningKey sessionId signingKeyUri => some (s.recordSigningKey sdk sessionId signingKeyUri)
  | .checkSigningKeys => some s.checkSigningKeys
  | .lookedUp recheck answer => s.lookedUp recheck answer
  | .located recheck revoked deleted => s.located recheck revoked deleted

def machine (bind443 : Bool) (sdk : Sdk) : Machine KeyChecks KeyEvent := ⟨step bind443 sdk⟩

def init : KeyChecks := ⟨.empty, [], [], [], 0⟩

/-! ### What one step does -/

/-- In `s`, `e` completes a re-check that finds `key` withdrawn to `location`. -/
def FindsWithdrawn (s : KeyChecks) (e : KeyEvent) (key location : String) : Prop :=
  ∃ recheck revoked deleted records, e = .located recheck revoked deleted ∧
    s.rechecks[recheck]? = some (key, .withdrawnTo records) ∧
      withdrawnTo records revoked deleted = .ok (some location)

/-- The states a step leads to, the ends of re-checks told apart by what they found. -/
inductive Leads (bind443 : Bool) (sdk : Sdk) (s : KeyChecks) : KeyEvent → KeyChecks → Prop where
  | startSession (params : SrvdSessionParams) (worker : ℕ) :
    Leads bind443 sdk s (.startSession params worker) (s.startSession bind443 params worker)
  | removeSession (sessionId : String) :
    Leads bind443 sdk s (.removeSession sessionId)
      { s with sessions := s.sessions.erase sessionId }
  | recordSigningKey (sessionId signingKeyUri : String) :
    Leads bind443 sdk s (.recordSigningKey sessionId signingKeyUri)
      (s.recordSigningKey sdk sessionId signingKeyUri)
  | checkSigningKeys : Leads bind443 sdk s .checkSigningKeys s.checkSigningKeys
  | missing {recheck : ℕ} {key : String}
    (hget : s.rechecks[recheck]? = some (key, .lookupDirect)) :
    Leads bind443 sdk s (.lookedUp recheck .missing) { s with
      rechecks := s.rechecks.set recheck (key, .withdrawnTo (withdrawnRecords key)) }
  | kept {e : KeyEvent} {recheck : ℕ} {key : String} {stage : RecheckStage}
    (hget : s.rechecks[recheck]? = some (key, stage))
    (hkept : ∀ key location, ¬FindsWithdrawn s e key location) :
    Leads bind443 sdk s e (s.finishRecheck recheck key none)
  | withdrawn {e : KeyEvent} {recheck : ℕ} {key location : String} {stage : RecheckStage}
    (hget : s.rechecks[recheck]? = some (key, stage)) (hfinds : FindsWithdrawn s e key location) :
    Leads bind443 sdk s e (s.finishRecheck recheck key (some location))

theorem FindsWithdrawn.inj {s : KeyChecks} {e : KeyEvent} {key key' location location' : String}
    (h : FindsWithdrawn s e key location) (h' : FindsWithdrawn s e key' location') :
    key = key' ∧ location = location' := by
  obtain ⟨recheck, revoked, deleted, records, rfl, hget, hto⟩ := h
  obtain ⟨recheck', revoked', deleted', records', he, hget', hto'⟩ := h'
  injection he with hr hv hd
  subst hr hv hd
  have hpair := Prod.ext_iff.mp (Option.some.inj (hget.symm.trans hget'))
  obtain ⟨rfl, hrecords⟩ := hpair
  injection hrecords with hrecords
  subst hrecords
  exact ⟨rfl, Option.some.inj (Except.ok.inj (hto.symm.trans hto'))⟩

theorem step_leads {bind443 : Bool} {sdk : Sdk} {s t : KeyChecks} {e : KeyEvent}
    (h : step bind443 sdk s e = some t) : Leads bind443 sdk s e t := by
  cases e with
  | startSession params worker =>
    obtain rfl := Option.some.inj h
    exact .startSession params worker
  | removeSession sessionId =>
    obtain rfl := Option.some.inj h
    exact .removeSession sessionId
  | recordSigningKey sessionId uri =>
    obtain rfl := Option.some.inj h
    exact .recordSigningKey sessionId uri
  | checkSigningKeys =>
    obtain rfl := Option.some.inj h
    exact .checkSigningKeys
  | lookedUp recheck answer =>
    have hno (key location : String) : ¬FindsWithdrawn s (.lookedUp recheck answer) key location := by
      rintro ⟨_, _, _, _, he, -⟩
      cases he
    simp only [step, lookedUp] at h
    split at h
    · rename_i key hget
      cases answer with
      | missing =>
        obtain rfl := Option.some.inj h
        exact .missing hget
      | held =>
        obtain rfl := Option.some.inj h
        exact .kept hget hno
      | failed =>
        obtain rfl := Option.some.inj h
        exact .kept hget hno
    · cases h
  | located recheck revoked deleted =>
    simp only [step, located] at h
    split at h
    · rename_i key records hget
      have hreads {key' location' : String}
          (hf : FindsWithdrawn s (.located recheck revoked deleted) key' location') :
          withdrawnTo records revoked deleted = .ok (some location') := by
        obtain ⟨_, _, _, records', he, hget', hto⟩ := hf
        injection he with hr hv hd
        subst hr hv hd
        injection (Prod.ext_iff.mp (Option.some.inj (hget.symm.trans hget'))).2 with hrecords
        rwa [hrecords]
      split at h
      · rename_i hto
        obtain rfl := Option.some.inj h
        refine .kept hget fun key' location' hf => ?_
        cases hto.symm.trans (hreads hf)
      · rename_i location hto
        obtain rfl := Option.some.inj h
        cases location with
        | none =>
          refine .kept hget fun key' location' hf => ?_
          cases hto.symm.trans (hreads hf)
        | some location =>
          exact .withdrawn hget ⟨recheck, revoked, deleted, records, rfl, hget, hto⟩
    · cases h

/-- The sessions on record, and who has been told to end. -/
structure Told (s : KeyChecks) : Prop where
  refs_lt : ∀ {id si}, s.sessions.get? id = some si → si.ref < s.refs
  distinct : ∀ {id id' si si'}, s.sessions.get? id = some si → s.sessions.get? id' = some si' →
    si.ref = si'.ref → id = id'
  addressed : ∀ {id si}, s.sessions.get? id = some si → endMessage id si ≠ .nobody
  ending_iff : ∀ {id si}, s.sessions.get? id = some si →
    (si.ending = true ↔ si.ref ∈ s.endings.map Ending.ref)
  endings_lt : ∀ x ∈ s.endings, x.ref < s.refs
  sent : ∀ x ∈ s.endings, x.message ≠ .nobody
  once : (s.endings.map Ending.ref).Nodup

/-- Each key being checked is under one re-check. -/
structure OneCheckEach (s : KeyChecks) : Prop where
  mem_iff : ∀ key, key ∈ s.keysBeingChecked ↔ key ∈ s.rechecks.map Prod.fst
  nodup : (s.rechecks.map Prod.fst).Nodup

theorem told_init : Told init where
  refs_lt := by simp [init]
  distinct := by simp [init]
  addressed := by simp [init]
  ending_iff := by simp [init]
  endings_lt := by simp [init]
  sent := by simp [init]
  once := List.nodup_nil

theorem oneCheckEach_init : OneCheckEach init := ⟨fun _ => Iff.rfl, List.nodup_nil⟩

/-- A step that keeps every session's identity, and who is ending, keeps who was told. -/
theorem Told.of_sessions {s t : KeyChecks} (h : Told s)
    (hsessions : ∀ {id si'}, t.sessions.get? id = some si' → ∃ si, s.sessions.get? id = some si ∧
      si'.ref = si.ref ∧ si'.params = si.params ∧ si'.toWorker = si.toWorker ∧
        si'.ending = si.ending)
    (hendings : t.endings = s.endings) (hrefs : t.refs = s.refs) : Told t where
  refs_lt h' := by
    obtain ⟨si, hsi, href, -⟩ := hsessions h'
    rw [href, hrefs]
    exact h.refs_lt hsi
  distinct h₁ h₂ heq := by
    obtain ⟨si₁, hsi₁, href₁, -⟩ := hsessions h₁
    obtain ⟨si₂, hsi₂, href₂, -⟩ := hsessions h₂
    exact h.distinct hsi₁ hsi₂ (by rw [← href₁, ← href₂, heq])
  addressed h' := by
    obtain ⟨si, hsi, -, hparams, hworker, -⟩ := hsessions h'
    have hsame := h.addressed hsi
    unfold endMessage at hsame ⊢
    rwa [hworker, hparams]
  ending_iff h' := by
    obtain ⟨si, hsi, href, -, -, hending⟩ := hsessions h'
    rw [hending, href, hendings]
    exact h.ending_iff hsi
  endings_lt := by
    rw [hendings, hrefs]
    exact h.endings_lt
  sent := by
    rw [hendings]
    exact h.sent
  once := by
    rw [hendings]
    exact h.once

theorem Told.startSession {s : KeyChecks} (h : Told s) (bind443 : Bool) (params : SrvdSessionParams)
    (worker : ℕ) : Told (s.startSession bind443 params worker) := by
  unfold KeyChecks.startSession
  split
  · exact h
  · have hnew : s.refs ∉ s.endings.map Ending.ref := by
      intro hmem
      obtain ⟨x, hx, hxr⟩ := List.mem_map.mp hmem
      exact absurd (h.endings_lt x hx) (by omega)
    have hget {id : String} {si : SessionInfo} (hsi : (s.sessions.set params.sessionId
        ⟨s.refs, params, if params.only443 then none else some worker, [], false⟩).get? id =
          some si) :
        id = params.sessionId ∧ si = ⟨s.refs, params, if params.only443 then none else some worker,
          [], false⟩ ∨ s.sessions.get? id = some si := by
      rw [Table.get?_set] at hsi
      split at hsi
      · rename_i hid
        exact Or.inl ⟨hid, (Option.some.inj hsi).symm⟩
      · exact Or.inr hsi
    constructor
    · intro id si hsi
      rcases hget hsi with ⟨-, rfl⟩ | hold
      · exact Nat.lt_succ_self s.refs
      · exact Nat.lt_succ_of_lt (h.refs_lt hold)
    · intro id id' si si' hsi hsi' heq
      rcases hget hsi with ⟨rfl, rfl⟩ | hold
      · rcases hget hsi' with ⟨rfl, -⟩ | hold'
        · rfl
        · exact absurd (h.refs_lt hold') (by rw [← heq]; exact Nat.lt_irrefl s.refs)
      · rcases hget hsi' with ⟨-, rfl⟩ | hold'
        · exact absurd (h.refs_lt hold) (by rw [heq]; exact Nat.lt_irrefl s.refs)
        · exact h.distinct hold hold' heq
    · intro id si hsi
      rcases hget hsi with ⟨-, rfl⟩ | hold
      · unfold endMessage
        cases params.only443 <;> simp
      · exact h.addressed hold
    · intro id si hsi
      rcases hget hsi with ⟨-, rfl⟩ | hold
      · exact iff_of_false Bool.false_ne_true hnew
      · exact h.ending_iff hold
    · exact fun x hx => Nat.lt_succ_of_lt (h.endings_lt x hx)
    · exact h.sent
    · exact h.once

theorem Told.removeSession {s : KeyChecks} (h : Told s) (sessionId : String) :
    Told { s with sessions := s.sessions.erase sessionId } := by
  refine h.of_sessions (fun {id si} hsi => ?_) rfl rfl
  rw [Table.get?_erase] at hsi
  split at hsi
  · cases hsi
  · exact ⟨si, hsi, rfl, rfl, rfl, rfl⟩

theorem Told.recordSigningKey {s : KeyChecks} (h : Told s) (sdk : Sdk) (sessionId uri : String) :
    Told (s.recordSigningKey sdk sessionId uri) := by
  refine h.of_sessions (fun {id si'} hsi => ?_) rfl rfl
  simp only [KeyChecks.recordSigningKey, Table.get?_modify] at hsi
  split at hsi
  · obtain ⟨si, hget, rfl⟩ := Option.map_eq_some_iff.mp hsi
    refine ⟨si, hget, ?_⟩
    split
    · exact ⟨rfl, rfl, rfl, rfl⟩
    · split
      · exact ⟨rfl, rfl, rfl, rfl⟩
      · exact ⟨rfl, rfl, rfl, rfl⟩
  · exact ⟨si', hsi, rfl, rfl, rfl, rfl⟩

/-- The sessions a withdrawn key ends. -/
theorem mem_endings_endSessions {s : KeyChecks} {key location : String} {x : Ending} :
    x ∈ (s.endSessions key location).endings ↔ x ∈ s.endings ∨
      ∃ id si, s.sessions.get? id = some si ∧ toBeEnded key si = true ∧
        x = ⟨si.ref, id, key, location, endMessage id si⟩ := by
  simp only [endSessions, List.mem_append, List.mem_map, List.mem_filter, Prod.exists,
    Table.mem_entries_iff, and_assoc]
  refine or_congr_right (exists_congr fun id => exists_congr fun si => ?_)
  exact and_congr_right fun _ => and_congr_right fun _ => eq_comm

theorem get?_endSessions {s : KeyChecks} {key location id : String} {si' : SessionInfo} :
    (s.endSessions key location).sessions.get? id = some si' ↔
      ∃ si, s.sessions.get? id = some si ∧
        si' = if toBeEnded key si then { si with ending := true } else si := by
  simp only [endSessions, Table.get?_mapValues, Option.map_eq_some_iff]
  exact exists_congr fun si => and_congr_right fun _ => eq_comm

theorem toBeEnded_iff {key : String} {si : SessionInfo} :
    toBeEnded key si = true ↔ si.ending = false ∧ key ∈ si.signingKeys := by
  simp only [toBeEnded, Bool.and_eq_true, Bool.not_eq_true', List.contains_iff_mem]

theorem Told.endSessions {s : KeyChecks} (h : Told s) (key location : String) :
    Told (s.endSessions key location) := by
  have hold {id : String} {si' : SessionInfo}
      (hsi : (s.endSessions key location).sessions.get? id = some si') :
      ∃ si, s.sessions.get? id = some si ∧ si'.ref = si.ref ∧ si'.params = si.params ∧
        si'.toWorker = si.toWorker := by
    obtain ⟨si, hget, rfl⟩ := get?_endSessions.mp hsi
    refine ⟨si, hget, ?_⟩
    split
    · exact ⟨rfl, rfl, rfl⟩
    · exact ⟨rfl, rfl, rfl⟩
  constructor
  · intro id si' hsi
    obtain ⟨si, hget, href, -⟩ := hold hsi
    rw [href]
    exact h.refs_lt hget
  · intro id id' si₁ si₂ h₁ h₂ heq
    obtain ⟨si, hget, href, -⟩ := hold h₁
    obtain ⟨si', hget', href', -⟩ := hold h₂
    exact h.distinct hget hget' (by rw [← href, ← href', heq])
  · intro id si' hsi
    obtain ⟨si, hget, -, hparams, hworker⟩ := hold hsi
    have hsame := h.addressed hget
    unfold endMessage at hsame ⊢
    rwa [hworker, hparams]
  · intro id si' hsi
    obtain ⟨si, hget, rfl⟩ := get?_endSessions.mp hsi
    split
    · rename_i hended
      refine iff_of_true rfl (List.mem_map.mpr ⟨_, mem_endings_endSessions.mpr (Or.inr
        ⟨id, si, hget, hended, rfl⟩), rfl⟩)
    · rename_i hkept
      rw [h.ending_iff hget]
      constructor
      · intro hmem
        obtain ⟨x, hx, hxr⟩ := List.mem_map.mp hmem
        exact List.mem_map.mpr ⟨x, mem_endings_endSessions.mpr (Or.inl hx), hxr⟩
      · intro hmem
        obtain ⟨x, hx, hxr⟩ := List.mem_map.mp hmem
        rcases mem_endings_endSessions.mp hx with hx | ⟨id', si', hget', hended, rfl⟩
        · exact List.mem_map.mpr ⟨x, hx, hxr⟩
        · obtain rfl := h.distinct hget' hget hxr
          obtain rfl := Option.some.inj (hget'.symm.trans hget)
          exact absurd hended hkept
  · intro x hx
    rcases mem_endings_endSessions.mp hx with hx | ⟨id, si, hget, -, rfl⟩
    · exact h.endings_lt x hx
    · exact h.refs_lt hget
  · intro x hx
    rcases mem_endings_endSessions.mp hx with hx | ⟨id, si, hget, -, rfl⟩
    · exact h.sent x hx
    · exact h.addressed hget
  · have hentries : s.sessions.entries.Nodup := List.Nodup.of_map _ s.sessions.nodup
    simp only [KeyChecks.endSessions, List.map_append, List.map_map]
    refine List.nodup_append.mpr ⟨h.once, ?_, ?_⟩
    · refine (hentries.filter _).map_on ?_
      rintro ⟨id, si⟩ he ⟨id', si'⟩ he' heq
      have hget := Table.mem_entries_iff.mp (List.mem_filter.mp he).1
      have hget' := Table.mem_entries_iff.mp (List.mem_filter.mp he').1
      obtain rfl := h.distinct hget hget' heq
      rw [Option.some.inj (hget.symm.trans hget')]
    · -- whoever is told now has not been told before
      intro r hr r' hr' heq
      obtain ⟨⟨id, si⟩, he, rfl⟩ := List.mem_map.mp hr'
      have hget := Table.mem_entries_iff.mp (List.mem_filter.mp he).1
      have hended := (toBeEnded_iff.mp (List.mem_filter.mp he).2).1
      rw [heq] at hr
      rw [(h.ending_iff hget).mpr hr] at hended
      cases hended

theorem Told.finishRecheck {s : KeyChecks} (h : Told s) (recheck : ℕ) (key : String)
    (location : Option String) : Told (s.finishRecheck recheck key location) := by
  have hkeep {s : KeyChecks} (h : Told s) (keys : List String)
      (rechecks : List (String × RecheckStage)) :
      Told { s with keysBeingChecked := keys, rechecks := rechecks } :=
    h.of_sessions (fun {id si} hsi => ⟨si, hsi, rfl, rfl, rfl, rfl⟩) rfl rfl
  cases location with
  | none => exact hkeep h _ _
  | some location => exact hkeep (h.endSessions key location) _ _

/-! One re-check for each key. -/

theorem nodup_eraseDups {l : List String} : l.eraseDups.Nodup := by
  induction hn : l.length using Nat.strongRecOn generalizing l with
  | ind n ih =>
    cases l with
    | nil => exact List.nodup_nil
    | cons a l =>
      have hlt : (l.filter fun b => !b == a).length < n := by
        rw [← hn, List.length_cons]
        exact Nat.lt_succ_of_le (List.length_filter_le _ l)
      rw [List.eraseDups_cons, List.nodup_cons]
      refine ⟨fun hmem => ?_, ih _ hlt rfl⟩
      have hne := (List.mem_filter.mp (List.mem_eraseDups.mp hmem)).2
      rw [beq_self_eq_true] at hne
      cases hne

theorem OneCheckEach.checkSigningKeys {s : KeyChecks} (h : OneCheckEach s) :
    OneCheckEach s.checkSigningKeys := by
  have hmap : (s.keysToCheck.map (·, RecheckStage.lookupDirect)).map Prod.fst = s.keysToCheck := by
    rw [List.map_map]
    exact List.map_id _
  constructor
  · intro key
    simp only [KeyChecks.checkSigningKeys, List.mem_append, List.map_append, hmap, h.mem_iff]
  · simp only [KeyChecks.checkSigningKeys, List.map_append, hmap]
    refine List.nodup_append.mpr ⟨h.nodup, nodup_eraseDups.filter _, ?_⟩
    intro key hkey key' hkey' heq
    have hnew := (List.mem_filter.mp hkey').2
    rw [← heq, List.contains_iff_mem.mpr ((h.mem_iff key).mpr hkey)] at hnew
    cases hnew

theorem OneCheckEach.set {s : KeyChecks} (h : OneCheckEach s) {recheck : ℕ} {key : String}
    {stage stage' : RecheckStage} (hget : s.rechecks[recheck]? = some (key, stage)) :
    OneCheckEach { s with rechecks := s.rechecks.set recheck (key, stage') } := by
  have hmap : (s.rechecks.set recheck (key, stage')).map Prod.fst = s.rechecks.map Prod.fst := by
    refine List.ext_getElem? fun j => ?_
    rw [List.getElem?_map, List.getElem?_map, List.getElem?_set]
    by_cases hj : recheck = j
    · subst hj
      have hlt := (List.getElem?_eq_some_iff.mp hget).1
      rw [if_pos rfl, if_pos hlt, hget]
      rfl
    · rw [if_neg hj]
  exact ⟨fun k => by simpa only [hmap] using h.mem_iff k, by simpa only [hmap] using h.nodup⟩

theorem OneCheckEach.finishRecheck {s : KeyChecks} (h : OneCheckEach s) {recheck : ℕ} {key : String}
    {stage : RecheckStage} (hget : s.rechecks[recheck]? = some (key, stage))
    (location : Option String) : OneCheckEach (s.finishRecheck recheck key location) := by
  have hfields : (s.finishRecheck recheck key location).keysBeingChecked =
      s.keysBeingChecked.filter (· != key) ∧
      (s.finishRecheck recheck key location).rechecks = s.rechecks.eraseIdx recheck := by
    cases location with
    | none => exact ⟨rfl, rfl⟩
    | some location => exact ⟨rfl, rfl⟩
  have hkey : (s.rechecks.map Prod.fst)[recheck]? = some key := by
    rw [List.getElem?_map, hget]
    rfl
  obtain ⟨hlt, hat⟩ := List.getElem?_eq_some_iff.mp hkey
  have herase : (s.rechecks.eraseIdx recheck).map Prod.fst = (s.rechecks.map Prod.fst).erase key := by
    rw [← List.eraseIdx_map, ← hat, h.nodup.erase_getElem]
  constructor
  · intro k
    rw [hfields.1, hfields.2, herase, h.nodup.mem_erase_iff, ← h.mem_iff, List.mem_filter,
      bne_iff_ne, and_comm]
  · rw [hfields.2, herase]
    exact h.nodup.erase key

/-! ### Runs -/

variable {bind443 : Bool} {sdk : Sdk}

theorem Told.step {s t : KeyChecks} {e : KeyEvent} (h : Told s)
    (hstep : Leads bind443 sdk s e t) : Told t := by
  cases hstep with
  | startSession params worker => exact h.startSession bind443 params worker
  | removeSession sessionId => exact h.removeSession sessionId
  | recordSigningKey sessionId uri => exact h.recordSigningKey sdk sessionId uri
  | checkSigningKeys =>
    exact h.of_sessions (fun {id si} hsi => ⟨si, hsi, rfl, rfl, rfl, rfl⟩) rfl rfl
  | missing hget =>
    exact h.of_sessions (fun {id si} hsi => ⟨si, hsi, rfl, rfl, rfl, rfl⟩) rfl rfl
  | kept hget _ => exact h.finishRecheck _ _ none
  | withdrawn hget _ => exact h.finishRecheck _ _ _

theorem OneCheckEach.step {s t : KeyChecks} {e : KeyEvent} (h : OneCheckEach s)
    (hstep : Leads bind443 sdk s e t) : OneCheckEach t := by
  cases hstep with
  | startSession params worker =>
    unfold KeyChecks.startSession
    split
    · exact h
    · exact ⟨h.mem_iff, h.nodup⟩
  | removeSession sessionId => exact ⟨h.mem_iff, h.nodup⟩
  | recordSigningKey sessionId uri => exact ⟨h.mem_iff, h.nodup⟩
  | checkSigningKeys => exact h.checkSigningKeys
  | missing hget => exact h.set hget
  | kept hget _ => exact h.finishRecheck hget none
  | withdrawn hget _ => exact h.finishRecheck hget _

/-- At `e`, a re-check finds withdrawn a key recorded for the live session `ref`. -/
def LosesKey (ref : ℕ) (s : KeyChecks) (e : KeyEvent) : Prop :=
  ∃ key location, FindsWithdrawn s e key location ∧
    ∃ id si, s.sessions.get? id = some si ∧ si.ref = ref ∧ key ∈ si.signingKeys

/-- A step that finds nothing withdrawn tells nobody. -/
theorem endings_of_not_findsWithdrawn {s t : KeyChecks} {e : KeyEvent}
    (hno : ∀ key location, ¬FindsWithdrawn s e key location) (hstep : Leads bind443 sdk s e t) :
    t.endings = s.endings := by
  cases hstep with
  | startSession params worker =>
    unfold KeyChecks.startSession
    split
    · rfl
    · rfl
  | removeSession sessionId => rfl
  | recordSigningKey sessionId uri => rfl
  | checkSigningKeys => rfl
  | missing hget => rfl
  | kept hget _ => rfl
  | withdrawn hget hfinds => exact absurd hfinds (hno _ _)

/-- Who is told by one step: those that lose a key and had not been told. -/
theorem told_step {s t : KeyChecks} {e : KeyEvent} (h : Told s) (hstep : Leads bind443 sdk s e t)
    (ref : ℕ) : ref ∈ t.endings.map Ending.ref ↔
      ref ∈ s.endings.map Ending.ref ∨ LosesKey ref s e := by
  by_cases hfinds : ∃ key location, FindsWithdrawn s e key location
  · obtain ⟨key, location, hfinds⟩ := hfinds
    have hendings : t.endings = (s.endSessions key location).endings := by
      cases hstep with
      | withdrawn _ hfinds' =>
        obtain ⟨rfl, rfl⟩ := hfinds.inj hfinds'
        rfl
      | kept _ hno => exact absurd hfinds (hno key location)
      | _ =>
        obtain ⟨_, _, _, _, he, -⟩ := hfinds
        cases he
    rw [hendings]
    constructor
    · intro hmem
      obtain ⟨x, hx, rfl⟩ := List.mem_map.mp hmem
      rcases mem_endings_endSessions.mp hx with hx | ⟨id, si, hsi, hended, rfl⟩
      · exact Or.inl (List.mem_map_of_mem hx)
      · exact Or.inr ⟨key, location, hfinds, id, si, hsi, rfl, (toBeEnded_iff.mp hended).2⟩
    · rintro (hmem | ⟨key', location', hfinds', id, si, hsi, rfl, hkey⟩)
      · obtain ⟨x, hx, rfl⟩ := List.mem_map.mp hmem
        exact List.mem_map.mpr ⟨x, mem_endings_endSessions.mpr (Or.inl hx), rfl⟩
      · obtain ⟨rfl, rfl⟩ := hfinds.inj hfinds'
        by_cases hending : si.ending = true
        · obtain ⟨x, hx, hxr⟩ := List.mem_map.mp ((h.ending_iff hsi).mp hending)
          exact List.mem_map.mpr ⟨x, mem_endings_endSessions.mpr (Or.inl hx), hxr⟩
        · have hended : toBeEnded key si = true :=
            toBeEnded_iff.mpr ⟨Bool.not_eq_true _ ▸ hending, hkey⟩
          exact List.mem_map.mpr ⟨_, mem_endings_endSessions.mpr
            (Or.inr ⟨id, si, hsi, hended, rfl⟩), rfl⟩
  · have hno (key location : String) : ¬FindsWithdrawn s e key location :=
      fun hf => hfinds ⟨key, location, hf⟩
    rw [endings_of_not_findsWithdrawn hno hstep, or_iff_left]
    rintro ⟨key, location, hf, -⟩
    exact hno key location hf

theorem told_of_run {es : List KeyEvent} {t : KeyChecks}
    (hr : (machine bind443 sdk).run init es = some t) : Told t :=
  (machine bind443 sdk).invariant (fun _ _ _ h hstep => h.step (step_leads hstep)) told_init hr

theorem oneCheckEach_of_run {es : List KeyEvent} {t : KeyChecks}
    (hr : (machine bind443 sdk).run init es = some t) : OneCheckEach t :=
  (machine bind443 sdk).invariant (fun _ _ _ h hstep => h.step (step_leads hstep))
    oneCheckEach_init hr

theorem told_iff_of_run {es : List KeyEvent} {t : KeyChecks}
    (hr : (machine bind443 sdk).run init es = some t) (ref : ℕ) :
    ref ∈ t.endings.map Ending.ref ↔ (machine bind443 sdk).At init es (LosesKey ref) := by
  refine @Machine.run_induction _ _ (machine bind443 sdk) init (fun es t =>
    ref ∈ t.endings.map Ending.ref ↔ (machine bind443 sdk).At init es (LosesKey ref))
    ?_ ?_ es t hr
  · refine iff_of_false List.not_mem_nil ?_
    rintro ⟨pre, e, post, u, hes, -⟩
    cases pre with
    | nil => cases hes
    | cons => cases hes
  · intro es e u v hu ih hstep
    rw [told_step (told_of_run hu) (step_leads hstep), ih]
    constructor
    · rintro (hbefore | hnow)
      · exact hbefore.later e
      · exact Machine.At.now hu hnow
    · intro hat
      rcases hat.of_concat hu with hbefore | hnow
      · exact Or.inl hbefore
      · exact Or.inr hnow

/-- In every run, a session is told to end when, at some moment, a re-check finds a key
recorded for it withdrawn, and for no other reason; it is told once, by a message that has
somewhere to go; no key is under two re-checks; and lookups that are answered, find nothing
or fail tell nobody. -/
theorem endings_iff_losesKey {es : List KeyEvent} {t : KeyChecks}
    (hr : (machine bind443 sdk).run init es = some t) :
    (∀ ref, ref ∈ t.endings.map Ending.ref ↔ (machine bind443 sdk).At init es (LosesKey ref)) ∧
      (t.endings.map Ending.ref).Nodup ∧ (∀ x ∈ t.endings, x.message ≠ .nobody) ∧
      (t.rechecks.map Prod.fst).Nodup ∧
      (∀ recheck answer u, step bind443 sdk t (.lookedUp recheck answer) = some u →
        u.endings = t.endings) ∧
      ∀ recheck revoked deleted u, revoked ≠ .held → deleted ≠ .held →
        step bind443 sdk t (.located recheck revoked deleted) = some u → u.endings = t.endings := by
  refine ⟨told_iff_of_run hr, (told_of_run hr).once, (told_of_run hr).sent,
    (oneCheckEach_of_run hr).nodup, ?_, ?_⟩
  · intro recheck answer u hstep
    refine endings_of_not_findsWithdrawn ?_ (step_leads hstep)
    rintro key location ⟨_, _, _, _, he, -⟩
    cases he
  · intro recheck revoked deleted u hrevoked hdeleted hstep
    refine endings_of_not_findsWithdrawn ?_ (step_leads hstep)
    rintro key location ⟨_, _, _, records, he, -, hto⟩
    injection he with _ hrev hdel
    subst hrev hdel
    cases records with
    | none => cases hto
    | some records =>
      simp only [Srvd.withdrawnTo, if_neg hrevoked, if_neg hdeleted] at hto
      split at hto
      · cases hto
      · cases hto

/-- A socket of session `s` is accepted, and its key, found missing, turns out revoked. -/
def revokedRun : List KeyEvent :=
  [.startSession ⟨"s", "@alice", "@bob", true, true, .escr, some "key", false, true⟩ 7,
    .recordSigningKey "s" "public:_apsk.1.a.__e@Alice", .checkSigningKeys, .checkSigningKeys,
    .lookedUp 0 .missing, .located 0 .held .missing]

theorem endings_iff_losesKey_revoked :
    (machine false sampleSdk).At init revokedRun (LosesKey 0) := by
  obtain ⟨t, hr, htold⟩ : ∃ t, (machine false sampleSdk).run init revokedRun = some t ∧
      t.endings = [⟨0, "s", "public:_apsk.1.a.__e@alice", "r.__e", .stop 7⟩] := ⟨_, rfl, rfl⟩
  refine ((endings_iff_losesKey hr).1 0).mp ?_
  rw [htold]
  exact List.mem_singleton_self 0

end KeyChecks
end NoPorts.Srvd
