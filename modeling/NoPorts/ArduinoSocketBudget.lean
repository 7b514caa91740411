import Mathlib.Algebra.Order.BigOperators.Group.List
import Mathlib.Algebra.Order.Group.Nat
import Mathlib.Algebra.Ring.Nat
import NoPorts.Lib.Machine

/-! The sockets of the Arduino daemon's relay sessions. Each session decides from its own slots whether it
opens two more, while the budget that keeps sockets for the atServer is one for all of them. -/
namespace NoPorts.ArduinoBudget
open Lib

/-- The two builds: `ESP32S3_2432S028R` is defined for the second. -/
inductive Board where
  | esp32
  | esp32s3
  deriving DecidableEq, Repr

namespace Board

def LWIP_TOTAL_PCBS : Board → ℕ
  | esp32 => 16
  | esp32s3 => 24

def RESERVED_ATSERVER_PCBS (_board : Board) : ℕ := 5

def MAX_RELAY_PCBS (board : Board) : ℕ := board.LWIP_TOTAL_PCBS - board.RESERVED_ATSERVER_PCBS

def MAX_RELAY_SUBS : Board → ℕ
  | esp32 => 5
  | esp32s3 => 9

def NOPORTS_MAX_RELAYS : Board → ℕ
  | esp32 => 5
  | esp32s3 => 6

end Board

def SUB_EVICTION_GRACE_MS : UInt32 := 10000

def ULONG_MAX : UInt32 := 0xFFFFFFFF

/-- A slot; `rvd` and `localOpen` tell whether its clients hold a socket. -/
structure RelaySub where
  active : Bool
  draining : Bool
  rvd : Bool
  localOpen : Bool
  sub_bytes_out : ℕ
  last_activity_ms : UInt32
  deriving DecidableEq, Repr

namespace RelaySub

def unused : RelaySub := ⟨false, false, false, false, 0, 0⟩

/-- `_close_relay_sub` -/
def close (sub : RelaySub) : RelaySub :=
  { sub with active := false, draining := false, rvd := false, localOpen := false }

def sockets (sub : RelaySub) : ℕ := sub.rvd.toNat + sub.localOpen.toNat

/-- One turn of the loop of `_find_evictable_sub` takes the sub into account; `available` tells whether
there is data to read on either side. -/
def evictable (sub : RelaySub) (now : UInt32) (available : Bool) : Bool :=
  sub.active && !(sub.sub_bytes_out == 0 && now - sub.last_activity_ms < SUB_EVICTION_GRACE_MS) &&
    !available && now - sub.last_activity_ms > SUB_EVICTION_GRACE_MS

end RelaySub

/-- What a session finds when a connect message comes. -/
structure Connect where
  now : UInt32
  /-- The subs closed by both peers, and those with data to read. -/
  dead : ℕ → Bool
  available : ℕ → Bool
  /-- The heap is below `MIN_HEAP_FOR_SUB`. -/
  lowHeap : Bool
  /-- The message parses, and its keys can be set up. -/
  keyed : Bool

/-- `_reclaim_dead_subs` -/
def reclaimDeadSubs (subs : List RelaySub) (dead : ℕ → Bool) : List RelaySub :=
  subs.mapIdx fun i sub => if sub.active && !sub.draining && dead i then sub.close else sub

/-- `_find_evictable_sub`: the one idle for longest. -/
def findEvictableSub (subs : List RelaySub) (now : UInt32) (available : ℕ → Bool) : Option ℕ :=
  (subs.zipIdx.foldl (fun best e =>
    if e.1.evictable now (available e.2) && e.1.last_activity_ms < best.2 then (some e.2, e.1.last_activity_ms)
    else best) ((none : Option ℕ), ULONG_MAX)).1

/-- `_handle_connect_msg` up to where it has a slot: the subs, and the slot it writes to. -/
def seat (board : Board) (subs : List RelaySub) (m : Connect) : List RelaySub × Option ℕ :=
  let subs := reclaimDeadSubs subs m.dead
  let session_pcbs := 1 + 2 * subs.countP (·.active)
  let spared :=
    if session_pcbs + 2 > board.MAX_RELAY_PCBS then
      (findEvictableSub subs m.now m.available).map fun victim => subs.modify victim RelaySub.close
    else some subs
  match spared with
  | none => (subs, none)
  | some subs =>
    if m.lowHeap && subs.any (·.active) then (subs, none)
    else
      match subs.findIdx? (!·.active) with
      | some slot => (subs, some slot)
      | none =>
        match findEvictableSub subs m.now m.available with
        | some victim => (subs.modify victim RelaySub.close, some victim)
        | none => (subs, none)

/-- What a sub that is being opened waits for. -/
inductive Stage where
  | rvd
  | auth
  | localConnect
  deriving DecidableEq, Repr

/-- Where the task of a session is. -/
inductive Phase where
  | created
  | connecting
  | authenticating
  | looping
  | opening (slot : ℕ) (stage : Stage)
  | closing
  | ended
  deriving DecidableEq, Repr

/-- The slot that `_handle_connect_msg` is filling. -/
def Phase.slot : Phase → Option ℕ
  | .opening slot _ => some slot
  | _ => none

structure Session where
  n_subs : ℕ
  phase : Phase
  /-- The control channel holds a socket, as a client does from its attempt to connect on. -/
  ctrl : Bool
  subs : List RelaySub
  deriving DecidableEq, Repr

/-- What happens in the task of a session: `ok` tells how a call of it ends. -/
inductive SessionEvent where
  | allocated (ok : Bool)
  | connected (ok : Bool)
  | authenticated (ok : Bool)
  | connectMsg (m : Connect)
  | opened (ok : Bool) (now : UInt32)
  | traffic (slot bytes_out : ℕ) (now : UInt32)
  | drain (slot : ℕ)
  | closeSub (slot : ℕ)
  | leave
  | closeNext

namespace Session
variable (board : Board)

def sockets (s : Session) : ℕ := s.ctrl.toNat + (s.subs.map (·.sockets)).sum

/-- `_handle_connect_msg` up to its first call of `connect`. -/
def handleConnectMsg (s : Session) (m : Connect) : Session :=
  match seat board s.subs m with
  | (subs, none) => { s with subs }
  | (subs, some slot) =>
    if m.keyed then
      { s with subs := subs.modify slot fun sub => { sub with rvd := true }, phase := .opening slot .rvd }
    else { s with subs }

/-- The call that the sub waits for has returned. -/
def opened (s : Session) (slot : ℕ) (stage : Stage) (ok : Bool) (now : UInt32) : Session :=
  if ok then
    match stage with
    | .rvd => { s with phase := .opening slot .auth }
    | .auth =>
      { s with
        subs := s.subs.modify slot fun sub => { sub with localOpen := true }
        phase := .opening slot .localConnect }
    | .localConnect =>
      { s with
        subs := s.subs.modify slot fun sub => { sub with active := true, sub_bytes_out := 0, last_activity_ms := now }
        phase := .looping }
  else { s with subs := s.subs.modify slot RelaySub.close, phase := .looping }

/-- A change of a sub that is active. -/
def onActive (s : Session) (slot : ℕ) (change : RelaySub → RelaySub) : Option Session :=
  if s.subs[slot]?.any (·.active) then some { s with subs := s.subs.modify slot change } else none

/-- The clean-up: the active subs first, then the control channel. -/
def closeNext (s : Session) : Session :=
  match s.subs.findIdx? (·.active) with
  | some slot => { s with subs := s.subs.modify slot RelaySub.close }
  | none => { s with ctrl := false, phase := .ended }

/-- `_relay_task_inner_multi` -/
def step (s : Session) : SessionEvent → Option Session
  | .allocated ok =>
    if s.phase ≠ .created then none
    else if ok then
      some { s with phase := .connecting, ctrl := true, subs := List.replicate s.n_subs RelaySub.unused }
    else some { s with phase := .ended }
  | .connected ok =>
    if s.phase ≠ .connecting then none
    else if ok then some { s with phase := .authenticating }
    else some { s with phase := .closing, ctrl := false }
  | .authenticated ok =>
    if s.phase ≠ .authenticating then none
    else some { s with phase := if ok then .looping else .closing }
  | .connectMsg m => if s.phase ≠ .looping then none else some (s.handleConnectMsg board m)
  | .opened ok now =>
    match s.phase with
    | .opening slot stage => some (s.opened slot stage ok now)
    | _ => none
  | .traffic slot bytes_out now =>
    if s.phase ≠ .looping then none
    else
      s.onActive slot fun sub =>
        { sub with sub_bytes_out := sub.sub_bytes_out + bytes_out, last_activity_ms := now }
  | .drain slot => if s.phase ≠ .looping then none else s.onActive slot fun sub => { sub with draining := true }
  | .closeSub slot => if s.phase ≠ .looping then none else s.onActive slot RelaySub.close
  | .leave => if s.phase ≠ .looping then none else some { s with phase := .closing }
  | .closeNext => if s.phase ≠ .closing then none else some s.closeNext

/-- The sockets that the session's slots have room for. -/
def capacity (s : Session) : ℕ := if s.phase = .ended then 0 else 1 + 2 * s.n_subs

end Session

structure Relays where
  /-- `_max_relays` -/
  max_relays : ℕ
  sessions : List Session

inductive Event where
  | setMaxRelays (max : UInt8)
  /-- `_continueNptRequest` starts a relay. -/
  | start
  | session (i : ℕ) (e : SessionEvent)

namespace Relays
variable (board : Board)

/-- How many subs a session has that is configured with `max_subs`. -/
def subsOf (max_subs : ℕ) : ℕ :=
  if 1 ≤ max_subs ∧ max_subs ≤ board.MAX_RELAY_SUBS then max_subs else board.MAX_RELAY_SUBS

def setMaxRelays (t : Relays) (max : UInt8) : Relays :=
  { t with
    max_relays := if 1 ≤ max.toNat ∧ max.toNat ≤ board.NOPORTS_MAX_RELAYS then max.toNat else board.NOPORTS_MAX_RELAYS }

def start (t : Relays) : Relays :=
  { t with sessions := t.sessions ++ [⟨subsOf board t.max_relays, .created, false, []⟩] }

def step (t : Relays) : Event → Option Relays
  | .setMaxRelays max => some (t.setMaxRelays board max)
  | .start => some (t.start board)
  | .session i e => do
    let s ← t.sessions[i]?
    let s' ← s.step board e
    return { t with sessions := t.sessions.set i s' }

def machine : Machine Relays Event := ⟨step board⟩

/-- The daemon as it is constructed. -/
def constructed : Relays := ⟨2, []⟩

def sockets (t : Relays) : ℕ := (t.sessions.map (·.sockets)).sum

def capacity (t : Relays) : ℕ := (t.sessions.map (·.capacity)).sum

/-- A session is started only where the slots of all sessions fit the budget. -/
def Fits (t : Relays) (e : Event) : Prop := e = .start → (t.start board).capacity ≤ board.MAX_RELAY_PCBS

instance (t : Relays) : DecidablePred (Fits board t)
  | .start => decidable_of_iff ((t.start board).capacity ≤ board.MAX_RELAY_PCBS) ⟨fun h _ => h, fun h => h rfl⟩
  | .setMaxRelays _ => isTrue fun h => by cases h
  | .session _ _ => isTrue fun h => by cases h

/-- A connect message is given a slot only where no sub is active: `es` leads from the start. -/
def NeverOverwrites (es : List Event) : Prop :=
  ∀ (pre : List Event) (i : ℕ) (m : Connect) (post : List Event) (u : Relays) (s : Session) (slot : ℕ),
    es = pre ++ .session i (.connectMsg m) :: post → (machine board).run constructed pre = some u →
      u.sessions[i]? = some s → s.phase = .looping → (seat board s.subs m).2 = some slot →
        ∃ sub, (seat board s.subs m).1[slot]? = some sub ∧ sub.active = false ∧ sub.sockets = 0

end Relays

/-! ### What an idle slot holds -/

/-- Only an active sub holds sockets, and the one in the slot that is being filled. -/
def Idle (subs : List RelaySub) (filled : Option ℕ) : Prop :=
  ∀ (j : ℕ) (sub : RelaySub), subs[j]? = some sub → sub.active = false → filled ≠ some j → sub.sockets = 0

theorem getElem?_modify_cases {subs : List RelaySub} {f : RelaySub → RelaySub} {i j : ℕ} {sub : RelaySub}
    (h : (subs.modify i f)[j]? = some sub) :
    (j = i ∧ ∃ old, subs[j]? = some old ∧ sub = f old) ∨ (j ≠ i ∧ subs[j]? = some sub) := by
  rw [List.getElem?_modify] at h
  split at h
  · rename_i hij
    obtain ⟨old, hold, hsub⟩ := Option.map_eq_some_iff.mp h
    exact Or.inl ⟨hij.symm, old, hold, hsub.symm⟩
  · rename_i hij
    obtain ⟨_, hold, rfl⟩ := Option.map_eq_some_iff.mp h
    exact Or.inr ⟨fun hji => hij hji.symm, hold⟩

theorem getElem?_modify_self {subs : List RelaySub} {i : ℕ} {sub : RelaySub} (h : subs[i]? = some sub)
    (f : RelaySub → RelaySub) : (subs.modify i f)[i]? = some (f sub) := by
  rw [List.getElem?_modify_eq, h]
  rfl

theorem sockets_close (sub : RelaySub) : sub.close.sockets = 0 := rfl

theorem Idle.close {subs : List RelaySub} {filled : Option ℕ} (h : Idle subs filled) (i : ℕ) :
    Idle (subs.modify i RelaySub.close) filled := by
  intro j sub hj hactive hfilled
  rcases getElem?_modify_cases hj with ⟨-, old, -, rfl⟩ | ⟨-, hj⟩
  · exact sockets_close old
  · exact h j sub hj hactive hfilled

/-- A slot is no longer being filled once its sub is closed or active. -/
theorem Idle.settle {subs : List RelaySub} {slot : ℕ} (h : Idle subs (some slot)) {f : RelaySub → RelaySub}
    (hf : ∀ sub, (f sub).active = false → (f sub).sockets = 0) : Idle (subs.modify slot f) none := by
  intro j sub hj hactive _
  rcases getElem?_modify_cases hj with ⟨-, old, -, rfl⟩ | ⟨hne, hj⟩
  · exact hf old hactive
  · exact h j sub hj hactive fun hslot => hne (Option.some.inj hslot).symm

theorem Idle.fill {subs : List RelaySub} {slot : ℕ} {filled : Option ℕ} (h : Idle subs filled)
    (hfilled : filled = none ∨ filled = some slot) (f : RelaySub → RelaySub) :
    Idle (subs.modify slot f) (some slot) := by
  intro j sub hj hactive hslot
  rcases getElem?_modify_cases hj with ⟨rfl, -⟩ | ⟨-, hj⟩
  · exact absurd rfl hslot
  · apply h j sub hj hactive
    rcases hfilled with hnone | hsome
    · rw [hnone]
      exact fun hc => by cases hc
    · rw [hsome]
      exact hslot

theorem Idle.reclaim {subs : List RelaySub} (h : Idle subs none) (dead : ℕ → Bool) :
    Idle (reclaimDeadSubs subs dead) none := by
  intro j sub hj hactive hfilled
  rw [reclaimDeadSubs, List.getElem?_mapIdx] at hj
  obtain ⟨old, hold, hsub⟩ := Option.map_eq_some_iff.mp hj
  split at hsub
  · rw [← hsub]
    exact sockets_close old
  · rw [← hsub] at hactive ⊢
    exact h j old hold hactive hfilled

theorem foldl_evictable_cases (now : UInt32) (available : ℕ → Bool) (entries : List (RelaySub × ℕ))
    (best : Option ℕ × UInt32) {victim : ℕ}
    (h : (entries.foldl (fun best e =>
      if e.1.evictable now (available e.2) && e.1.last_activity_ms < best.2 then (some e.2, e.1.last_activity_ms)
      else best) best).1 = some victim) : best.1 = some victim ∨ ∃ e ∈ entries, e.2 = victim := by
  induction entries generalizing best with
  | nil => exact Or.inl h
  | cons e entries ih =>
    rcases ih _ h with hbest | ⟨e', he', hvictim⟩
    · dsimp only at hbest
      split at hbest
      · exact Or.inr ⟨e, List.mem_cons_self, Option.some.inj hbest⟩
      · exact Or.inl hbest
    · exact Or.inr ⟨e', List.mem_cons_of_mem e he', hvictim⟩

theorem findEvictableSub_lt {subs : List RelaySub} {now : UInt32} {available : ℕ → Bool} {victim : ℕ}
    (h : findEvictableSub subs now available = some victim) : victim < subs.length := by
  rcases foldl_evictable_cases now available _ _ h with hnone | ⟨e, he, rfl⟩
  · cases hnone
  · exact (List.mem_zipIdx' he).1

/-- What a connect message does to the subs before it opens anything: it closes some of them, and it is given
a slot that then holds none. -/
structure Admitted (subs subs' : List RelaySub) (slot : Option ℕ) : Prop where
  length : subs'.length = subs.length
  idle : Idle subs none → Idle subs' none
  free : ∀ j, slot = some j → ∃ sub, subs'[j]? = some sub ∧ sub.active = false

theorem seat_admitted (board : Board) (subs : List RelaySub) (m : Connect) :
    Admitted subs (seat board subs m).1 (seat board subs m).2 := by
  have hreclaimed : (reclaimDeadSubs subs m.dead).length = subs.length := List.length_mapIdx
  have hrefused (subs' : List RelaySub) (hlength : subs'.length = subs.length)
      (hidle : Idle subs none → Idle subs' none) : Admitted subs subs' none :=
    ⟨hlength, hidle, fun j hj => by cases hj⟩
  unfold seat
  dsimp only
  split
  · exact hrefused _ hreclaimed fun h => h.reclaim m.dead
  · rename_i spared hspared
    have hspared' : spared.length = subs.length ∧ (Idle subs none → Idle spared none) := by
      split at hspared
      · obtain ⟨victim, -, rfl⟩ := Option.map_eq_some_iff.mp hspared
        exact ⟨(List.length_modify _ _ _).trans hreclaimed, fun h => (h.reclaim m.dead).close victim⟩
      · obtain rfl := Option.some.inj hspared
        exact ⟨hreclaimed, fun h => h.reclaim m.dead⟩
    obtain ⟨hlength, hidle⟩ := hspared'
    split
    · exact hrefused _ hlength hidle
    · split
      · rename_i slot hslot
        refine ⟨hlength, hidle, ?_⟩
        rintro _ ⟨⟩
        obtain ⟨hlt, hfree, -⟩ := List.findIdx?_eq_some_iff_getElem.mp hslot
        exact ⟨spared[slot], List.getElem?_eq_getElem hlt, by simpa using hfree⟩
      · split
        · rename_i victim hvictim
          refine ⟨(List.length_modify _ _ _).trans hlength, fun h => (hidle h).close victim, ?_⟩
          rintro _ ⟨⟩
          have hlt := findEvictableSub_lt hvictim
          exact ⟨spared[victim].close, getElem?_modify_self (List.getElem?_eq_getElem hlt) _, rfl⟩
        · exact hrefused _ hlength hidle

namespace Session
variable {board : Board} {s s' : Session}

/-- Of a session of a run. -/
structure Ok (s : Session) : Prop where
  length : s.subs.length ≤ s.n_subs
  idle : Idle s.subs s.phase.slot
  filled : ∀ slot, s.phase.slot = some slot → ∃ sub, s.subs[slot]? = some sub ∧ sub.active = false
  off : s.phase = .created ∨ s.phase = .ended → s.sockets = 0

theorem sockets_sub_le (sub : RelaySub) : sub.sockets ≤ 2 :=
  Nat.add_le_add (Bool.toNat_le _) (Bool.toNat_le _)

/-- A session holds no more sockets than its slots have room for. -/
theorem Ok.sockets_le (h : s.Ok) : s.sockets ≤ s.capacity := by
  rw [capacity]
  split
  · rename_i hended
    exact (h.off (Or.inr hended)).le
  · have hsum : (s.subs.map (·.sockets)).sum ≤ s.subs.length * 2 := by
      have hle := List.sum_le_card_nsmul (s.subs.map (·.sockets)) 2 fun n hn => by
        obtain ⟨sub, -, rfl⟩ := List.mem_map.mp hn
        exact sockets_sub_le sub
      rwa [List.length_map, Nat.nsmul_eq_mul] at hle
    have hctrl := Bool.toNat_le s.ctrl
    have hlength := h.length
    rw [sockets]
    omega

/-- Nothing is filled, and the session is under way. -/
theorem Ok.of_idle (hlength : s.subs.length ≤ s.n_subs) (hidle : Idle s.subs none) (hslot : s.phase.slot = none)
    (hcreated : s.phase ≠ .created) (hended : s.phase ≠ .ended) : s.Ok := by
  refine ⟨hlength, ?_, fun slot hs => ?_, fun hoff => ?_⟩
  · rw [hslot]
    exact hidle
  · rw [hslot] at hs
    cases hs
  · exact absurd hoff (not_or.mpr ⟨hcreated, hended⟩)

theorem Ok.handleConnectMsg (h : s.Ok) (hlooping : s.phase = .looping) (m : Connect) :
    (s.handleConnectMsg board m).Ok := by
  have hadmitted := seat_admitted board s.subs m
  have hidle : Idle s.subs none := by
    have hidle := h.idle
    rwa [hlooping] at hidle
  have hrefused (subs : List RelaySub) (hlength : subs.length = s.subs.length) (hidle : Idle subs none) :
      Ok { s with subs } :=
    Ok.of_idle (hlength.trans_le h.length) hidle (by rw [hlooping]; rfl) (by rw [hlooping]; rintro ⟨⟩)
      (by rw [hlooping]; rintro ⟨⟩)
  rw [Session.handleConnectMsg]
  rcases hcase : seat board s.subs m with ⟨subs, _ | slot⟩
  · rw [hcase] at hadmitted
    exact hrefused subs hadmitted.length (hadmitted.idle hidle)
  · rw [hcase] at hadmitted
    obtain ⟨sub, hsub, hfree⟩ := hadmitted.free slot rfl
    dsimp only
    split
    · refine ⟨?_, (hadmitted.idle hidle).fill (Or.inl rfl) _, ?_, fun hoff => by rcases hoff with ⟨⟨⟩⟩ | ⟨⟨⟩⟩⟩
      · exact ((List.length_modify _ _ _).trans hadmitted.length).trans_le h.length
      · rintro _ ⟨⟩
        exact ⟨{ sub with rvd := true }, getElem?_modify_self hsub _, hfree⟩
    · exact hrefused subs hadmitted.length (hadmitted.idle hidle)

theorem sum_sockets_eq_zero {subs : List RelaySub} (h : ∀ sub ∈ subs, sub.sockets = 0) :
    (subs.map (·.sockets)).sum = 0 := by
  apply List.sum_eq_zero
  intro n hn
  obtain ⟨sub, hsub, rfl⟩ := List.mem_map.mp hn
  exact h sub hsub

theorem Ok.idle_of_slot (h : s.Ok) (hslot : s.phase.slot = none) : Idle s.subs none := by
  have hidle := h.idle
  rwa [hslot] at hidle

theorem Ok.opened (h : s.Ok) {slot : ℕ} {stage : Stage} (hphase : s.phase = .opening slot stage) (ok : Bool)
    (now : UInt32) : (s.opened slot stage ok now).Ok := by
  have hidle := h.idle
  obtain ⟨sub, hsub, hactive⟩ := h.filled slot (by rw [hphase]; rfl)
  rw [hphase] at hidle
  have hlength (f : RelaySub → RelaySub) : (s.subs.modify slot f).length ≤ s.n_subs :=
    (List.length_modify _ _ _).trans_le h.length
  unfold Session.opened
  split
  · cases stage with
    | rvd =>
      refine ⟨h.length, hidle, ?_, fun hoff => by rcases hoff with ⟨⟨⟩⟩ | ⟨⟨⟩⟩⟩
      rintro _ ⟨⟩
      exact ⟨sub, hsub, hactive⟩
    | auth =>
      refine ⟨hlength _, hidle.fill (Or.inr rfl) _, ?_, fun hoff => by rcases hoff with ⟨⟨⟩⟩ | ⟨⟨⟩⟩⟩
      rintro _ ⟨⟩
      exact ⟨_, getElem?_modify_self hsub _, hactive⟩
    | localConnect =>
      exact Ok.of_idle (hlength _) (hidle.settle fun _ hfalse => by cases hfalse) rfl (by rintro ⟨⟩) (by rintro ⟨⟩)
  · exact Ok.of_idle (hlength _) (hidle.settle fun sub _ => sockets_close sub) rfl (by rintro ⟨⟩) (by rintro ⟨⟩)

theorem Ok.onActive (h : s.Ok) (hlooping : s.phase = .looping) {slot : ℕ} {change : RelaySub → RelaySub}
    (hchange : ∀ sub, sub.active = true → (change sub).active = false → (change sub).sockets = 0)
    (hstep : s.onActive slot change = some s') : s'.Ok := by
  rw [Session.onActive] at hstep
  split at hstep
  · rename_i hactive
    obtain rfl := Option.some.inj hstep
    have hidle := h.idle_of_slot (by rw [hlooping]; rfl)
    refine Ok.of_idle ((List.length_modify _ _ _).trans_le h.length) ?_ (by rw [hlooping]; rfl)
      (by rw [hlooping]; rintro ⟨⟩) (by rw [hlooping]; rintro ⟨⟩)
    intro j sub hj hsub hnone
    rcases getElem?_modify_cases hj with ⟨rfl, old, hold, rfl⟩ | ⟨-, hj⟩
    · rw [hold] at hactive
      exact hchange old hactive hsub
    · exact hidle j sub hj hsub hnone
  · cases hstep

theorem Ok.closeNext (h : s.Ok) (hclosing : s.phase = .closing) : s.closeNext.Ok := by
  have hidle := h.idle_of_slot (by rw [hclosing]; rfl)
  rw [Session.closeNext]
  split
  · rename_i slot _
    exact Ok.of_idle ((List.length_modify _ _ _).trans_le h.length) (hidle.close slot) (by rw [hclosing]; rfl)
      (by rw [hclosing]; rintro ⟨⟩) (by rw [hclosing]; rintro ⟨⟩)
  · rename_i hnone
    refine ⟨h.length, hidle, fun slot hslot => (by cases hslot), fun _ => ?_⟩
    change 0 + (s.subs.map (·.sockets)).sum = 0
    rw [Nat.zero_add]
    apply sum_sockets_eq_zero
    intro sub hsub
    obtain ⟨j, hj⟩ := List.mem_iff_getElem?.mp hsub
    have hactive := List.findIdx?_eq_none_iff.mp hnone sub hsub
    exact hidle j sub hj hactive fun hc => by cases hc

theorem Ok.step (h : s.Ok) {e : SessionEvent} (hstep : s.step board e = some s') : s'.Ok := by
  -- every call but one is made in a phase of its own
  have hphase {phase : Phase} {r : Option Session} (hr : (if s.phase ≠ phase then none else r) = some s') :
      s.phase = phase ∧ r = some s' := by
    split at hr
    · cases hr
    · rename_i hsame
      exact ⟨not_ne_iff.mp hsame, hr⟩
  cases e with
  | allocated ok =>
    obtain ⟨hcreated, hr⟩ := hphase hstep
    split at hr
    · obtain rfl := Option.some.inj hr
      refine Ok.of_idle (List.length_replicate).le ?_ rfl (by rintro ⟨⟩) (by rintro ⟨⟩)
      intro j sub hj _ _
      rw [(List.mem_replicate.mp (List.mem_of_getElem? hj)).2]
      rfl
    · obtain rfl := Option.some.inj hr
      have hidle := h.idle_of_slot (by rw [hcreated]; rfl)
      exact ⟨h.length, hidle, fun slot hslot => (by cases hslot), fun _ => h.off (Or.inl hcreated)⟩
  | connected ok =>
    obtain ⟨hconnecting, hr⟩ := hphase hstep
    have hidle := h.idle_of_slot (by rw [hconnecting]; rfl)
    split at hr
    · obtain rfl := Option.some.inj hr
      exact Ok.of_idle h.length hidle rfl (by rintro ⟨⟩) (by rintro ⟨⟩)
    · obtain rfl := Option.some.inj hr
      exact Ok.of_idle h.length hidle rfl (by rintro ⟨⟩) (by rintro ⟨⟩)
  | authenticated ok =>
    obtain ⟨hauthenticating, hr⟩ := hphase hstep
    have hidle := h.idle_of_slot (by rw [hauthenticating]; rfl)
    obtain rfl := Option.some.inj hr
    cases ok with
    | true => exact Ok.of_idle h.length hidle rfl (by rintro ⟨⟩) (by rintro ⟨⟩)
    | false => exact Ok.of_idle h.length hidle rfl (by rintro ⟨⟩) (by rintro ⟨⟩)
  | connectMsg m =>
    obtain ⟨hlooping, hr⟩ := hphase hstep
    obtain rfl := Option.some.inj hr
    exact h.handleConnectMsg hlooping m
  | opened ok now =>
    change (match s.phase with
      | .opening slot stage => some (s.opened slot stage ok now)
      | _ => none) = some s' at hstep
    split at hstep
    · rename_i slot stage hopening
      obtain rfl := Option.some.inj hstep
      exact h.opened hopening ok now
    · cases hstep
  | traffic slot bytes_out now =>
    obtain ⟨hlooping, hr⟩ := hphase hstep
    apply h.onActive hlooping _ hr
    intro sub hactive hfalse
    cases hactive.symm.trans hfalse
  | drain slot =>
    obtain ⟨hlooping, hr⟩ := hphase hstep
    apply h.onActive hlooping _ hr
    intro sub hactive hfalse
    cases hactive.symm.trans hfalse
  | closeSub slot =>
    obtain ⟨hlooping, hr⟩ := hphase hstep
    exact h.onActive hlooping (fun sub _ _ => sockets_close sub) hr
  | leave =>
    obtain ⟨hlooping, hr⟩ := hphase hstep
    obtain rfl := Option.some.inj hr
    exact Ok.of_idle h.length (h.idle_of_slot (by rw [hlooping]; rfl)) rfl (by rintro ⟨⟩) (by rintro ⟨⟩)
  | closeNext =>
    obtain ⟨hclosing, hr⟩ := hphase hstep
    obtain rfl := Option.some.inj hr
    exact h.closeNext hclosing

theorem n_subs_handleConnectMsg (s : Session) (m : Connect) : (s.handleConnectMsg board m).n_subs = s.n_subs := by
  rw [Session.handleConnectMsg]
  split
  · rfl
  · split
    · rfl
    · rfl

theorem n_subs_opened (s : Session) (slot : ℕ) (stage : Stage) (ok : Bool) (now : UInt32) :
    (s.opened slot stage ok now).n_subs = s.n_subs := by
  unfold Session.opened
  split
  · cases stage with
    | rvd => rfl
    | auth => rfl
    | localConnect => rfl
  · rfl

theorem n_subs_onActive {slot : ℕ} {change : RelaySub → RelaySub} (h : s.onActive slot change = some s') :
    s'.n_subs = s.n_subs := by
  rw [Session.onActive] at h
  split at h
  · obtain rfl := Option.some.inj h
    rfl
  · cases h

theorem n_subs_closeNext (s : Session) : s.closeNext.n_subs = s.n_subs := by
  rw [Session.closeNext]
  split
  · rfl
  · rfl

/-- No call is made in a session that has ended, and the room of the others stays as it is. -/
theorem step_facts {e : SessionEvent} (hstep : s.step board e = some s') :
    s.phase ≠ .ended ∧ s'.n_subs = s.n_subs := by
  have hphase {phase : Phase} {r : Option Session} (hne : phase ≠ .ended)
      (hr : (if s.phase ≠ phase then none else r) = some s') (hr' : r = some s' → s'.n_subs = s.n_subs) :
      s.phase ≠ .ended ∧ s'.n_subs = s.n_subs := by
    split at hr
    · cases hr
    · rename_i hsame
      rw [not_ne_iff.mp hsame]
      exact ⟨hne, hr' hr⟩
  cases e with
  | allocated ok =>
    apply hphase (by rintro ⟨⟩) hstep
    intro hr
    split at hr
    · obtain rfl := Option.some.inj hr
      rfl
    · obtain rfl := Option.some.inj hr
      rfl
  | connected ok =>
    apply hphase (by rintro ⟨⟩) hstep
    intro hr
    split at hr
    · obtain rfl := Option.some.inj hr
      rfl
    · obtain rfl := Option.some.inj hr
      rfl
  | authenticated ok =>
    apply hphase (by rintro ⟨⟩) hstep
    intro hr
    obtain rfl := Option.some.inj hr
    rfl
  | connectMsg m =>
    apply hphase (by rintro ⟨⟩) hstep
    intro hr
    obtain rfl := Option.some.inj hr
    exact n_subs_handleConnectMsg s m
  | opened ok now =>
    change (match s.phase with
      | .opening slot stage => some (s.opened slot stage ok now)
      | _ => none) = some s' at hstep
    split at hstep
    · rename_i slot stage hopening
      obtain rfl := Option.some.inj hstep
      refine ⟨?_, n_subs_opened s slot stage ok now⟩
      rw [hopening]
      rintro ⟨⟩
    · cases hstep
  | traffic slot bytes_out now => exact hphase (by rintro ⟨⟩) hstep n_subs_onActive
  | drain slot => exact hphase (by rintro ⟨⟩) hstep n_subs_onActive
  | closeSub slot => exact hphase (by rintro ⟨⟩) hstep n_subs_onActive
  | leave =>
    apply hphase (by rintro ⟨⟩) hstep
    intro hr
    obtain rfl := Option.some.inj hr
    rfl
  | closeNext =>
    apply hphase (by rintro ⟨⟩) hstep
    intro hr
    obtain rfl := Option.some.inj hr
    exact n_subs_closeNext s

theorem capacity_step {e : SessionEvent} (hstep : s.step board e = some s') : s'.capacity ≤ s.capacity := by
  obtain ⟨hphase, hsubs⟩ := step_facts hstep
  rw [capacity, capacity, if_neg hphase, hsubs]
  split
  · exact Nat.zero_le _
  · exact le_rfl

end Session

namespace Relays
variable {board : Board} {t t' : Relays}

theorem ok_step (h : ∀ s ∈ t.sessions, s.Ok) {e : Event} (hstep : t.step board e = some t') :
    ∀ s ∈ t'.sessions, s.Ok := by
  cases e with
  | setMaxRelays max =>
    obtain rfl := Option.some.inj hstep
    exact h
  | start =>
    obtain rfl := Option.some.inj hstep
    intro s hs
    rcases List.mem_append.mp hs with hs | hs
    · exact h s hs
    · obtain rfl := List.mem_singleton.mp hs
      refine ⟨Nat.zero_le _, fun j sub hj => ?_, fun slot hslot => (by cases hslot), fun _ => rfl⟩
      cases hj
  | session i e =>
    obtain ⟨s, hs, hstep⟩ := Option.bind_eq_some_iff.mp hstep
    obtain ⟨s', hs', hstep⟩ := Option.bind_eq_some_iff.mp hstep
    obtain rfl := Option.some.inj hstep
    intro x hx
    rcases List.mem_or_eq_of_mem_set hx with hx | rfl
    · exact h x hx
    · exact (h s (List.mem_of_getElem? hs)).step hs'

theorem ok_run {es : List Event} (hr : (machine board).run constructed es = some t) : ∀ s ∈ t.sessions, s.Ok :=
  (machine board).invariant (I := fun t => ∀ s ∈ t.sessions, s.Ok) (fun _ _ _ h hstep => ok_step h hstep)
    (fun s hs => by cases hs) hr

theorem sockets_le_capacity (h : ∀ s ∈ t.sessions, s.Ok) : t.sockets ≤ t.capacity :=
  List.sum_le_sum fun s hs => (h s hs).sockets_le

theorem sum_map_set_le {α : Type*} (f : α → ℕ) {xs : List α} {i : ℕ} {a b : α} (h : xs[i]? = some a)
    (hle : f b ≤ f a) : ((xs.set i b).map f).sum ≤ (xs.map f).sum := by
  induction xs generalizing i with
  | nil => cases h
  | cons x xs ih =>
    cases i with
    | zero =>
      obtain rfl := Option.some.inj h
      exact Nat.add_le_add_right hle _
    | succ i => exact Nat.add_le_add_left (ih h) _

/-- The slots of the sessions fit the budget, in every run whose starts meet the condition. -/
theorem capacity_run {es : List Event} (hfits : (machine board).Meets (Fits board) constructed es)
    (hr : (machine board).run constructed es = some t) : t.capacity ≤ board.MAX_RELAY_PCBS := by
  apply (machine board).invariant_of_meets (I := fun t => t.capacity ≤ board.MAX_RELAY_PCBS) _ _ hfits hr
  · intro u e v hu hg hstep
    cases e with
    | setMaxRelays max =>
      obtain rfl := Option.some.inj hstep
      exact hu
    | start =>
      obtain rfl := Option.some.inj hstep
      exact hg rfl
    | session i e =>
      obtain ⟨s, hs, hstep⟩ := Option.bind_eq_some_iff.mp hstep
      obtain ⟨s', hs', hstep⟩ := Option.bind_eq_some_iff.mp hstep
      obtain rfl := Option.some.inj hstep
      exact (sum_map_set_le (·.capacity) hs (Session.capacity_step hs')).trans hu
  · exact Nat.zero_le _

theorem neverOverwrites (board : Board) (es : List Event) : NeverOverwrites board es := by
  rintro pre i m post u s slot rfl hu hs hlooping hslot
  have hok := ok_run hu s (List.mem_of_getElem? hs)
  have hadmitted := seat_admitted board s.subs m
  obtain ⟨sub, hsub, hactive⟩ := hadmitted.free slot hslot
  have hidle := hadmitted.idle (hok.idle_of_slot (by rw [hlooping]; rfl))
  exact ⟨sub, hsub, hactive, hidle slot sub hsub hactive fun hc => by cases hc⟩

/-- In every run no slot is written to whose sub is active; and where sessions are started only as long as
their slots fit the budget, they never hold more sockets than it. -/
theorem budget_of_fits {es : List Event} (hr : (machine board).run constructed es = some t) :
    NeverOverwrites board es ∧
      ((machine board).Meets (Fits board) constructed es → t.sockets ≤ board.MAX_RELAY_PCBS) := by
  refine ⟨neverOverwrites board es, fun hfits => ?_⟩
  calc
    t.sockets ≤ t.capacity := sockets_le_capacity (ok_run hr)
    _ ≤ board.MAX_RELAY_PCBS := capacity_run hfits hr

/-! ### Two sessions at once -/

def quiet : Connect := ⟨0, fun _ => false, fun _ => false, false, true⟩

/-- A session comes to its loop. -/
def comesUp (i : ℕ) : List Event :=
  [.start, .session i (.allocated true), .session i (.connected true), .session i (.authenticated true)]

/-- One more connection through the session. -/
def connects (i : ℕ) : List Event :=
  [.session i (.connectMsg quiet), .session i (.opened true 0), .session i (.opened true 0),
    .session i (.opened true 0)]

/-- Two sessions of two slots, which fit. -/
def shared : List Event :=
  .setMaxRelays 2 :: comesUp 0 ++ connects 0 ++ comesUp 1 ++ connects 1 ++ connects 0 ++ connects 1

theorem budget_of_fits_sample : ∃ t, (machine .esp32).run constructed shared = some t ∧
    t.sockets = 10 ∧ t.sockets ≤ Board.esp32.MAX_RELAY_PCBS := by
  have hrun : (machine .esp32).run constructed shared = some _ := rfl
  exact ⟨_, hrun, rfl, (budget_of_fits hrun).2 (by decide +kernel)⟩

def filled : List Event :=
  .setMaxRelays 5 :: comesUp 0 ++ connects 0 ++ connects 0 ++ connects 0 ++ connects 0 ++ connects 0 ++ comesUp 1

/-- A session whose five slots are in use, and the control channel of another: twelve sockets of eleven. -/
theorem two_sessions_exceed : ∃ t, (machine .esp32).run constructed filled = some t ∧ t.sockets = 12 ∧
    ¬t.sockets ≤ Board.esp32.MAX_RELAY_PCBS := by
  refine ⟨_, rfl, rfl, ?_⟩
  decide

end Relays
end NoPorts.ArduinoBudget
