import NoPorts.SrvdSessions

/-! What a record of the relay's table is removed by: its worker has not yet ended its
session, or the message that it has is still to be handled. -/
namespace NoPorts.Srvd
open Lib

namespace RequestStage

/-- Between the start of a request's session and the end of the request. -/
def active : RequestStage → Bool
  | .refusing | .over => false
  | _ => true

/-- Before its session is recorded. -/
def early : RequestStage → Bool
  | .payloadKeys | .spawning | .sendPort _ | .ports _ | .mutex _ | .nacking => true
  | _ => false

theorem active_of_early {stage : RequestStage} (h : stage.early = true) : stage.active = true := by
  revert h
  cases stage <;> simp [early, active]

def worker? : RequestStage → Option ℕ
  | .sendPort w | .ports w => some w
  | .mutex worker => worker
  | _ => none

end RequestStage

namespace PairWorker

/-- If its connector is done, the main isolate has yet to hear of it. -/
def Owes (p : PairWorker) : Prop := p.phase = .completed → FromPair.sessionComplete ∈ p.toMain

/-- Its ports come before the end of its session. -/
def PortsFirst (p : PairWorker) : Prop :=
  FromPair.ports ∈ p.toMain → p.phase = .completed → p.toMain.getLast? = some .sessionComplete

theorem PortsFirst.pop {p : PairWorker} (h : p.PortsFirst) {message : FromPair} {rest : List FromPair}
    (hp : p.toMain = message :: rest) : PortsFirst { p with toMain := rest } := by
  intro hports hcompleted
  have hlast := h (hp ▸ List.mem_cons_of_mem _ hports) hcompleted
  rw [hp] at hlast
  cases rest with
  | nil => cases hports
  | cons next rest => rwa [List.getLast?_cons_cons] at hlast

theorem PortsFirst.owes {p : PairWorker} (h : p.PortsFirst) {rest : List FromPair}
    (hp : p.toMain = .ports :: rest) : Owes { p with toMain := rest } := by
  intro hcompleted
  have hlast := h (hp ▸ List.mem_cons_self) hcompleted
  rw [hp] at hlast
  cases rest with
  | nil => cases hlast
  | cons next rest =>
    rw [List.getLast?_cons_cons] at hlast
    exact List.mem_of_getLast? hlast

theorem Owes.pop {p : PairWorker} (h : p.Owes) {message : FromPair} {rest : List FromPair}
    (hp : p.toMain = message :: rest) (hne : message ≠ .sessionComplete) :
    Owes { p with toMain := rest } := by
  intro hcompleted
  have hmem := h hcompleted
  rw [hp] at hmem
  exact (List.mem_cons.mp hmem).resolve_left hne.symm

end PairWorker

/-- The session whose record the message removes. -/
def ToMain.ended? : ToMain → Option String
  | .sessionComplete sessionId => some sessionId
  | .startRefused sessionId _ => some sessionId
  | .signingKey _ _ => none

namespace Relay

/-- The single-port worker, or a message of it or to it, will end the session. -/
def Pending443 (s : Relay) (sessionId : String) : Prop :=
  (∃ params, .start params ∈ s.inbox443 ∧ params.sessionId = sessionId) ∨
    (s.worker443.sessions.lookup sessionId).isSome ∨
      (∃ message ∈ s.worker443.toMain, message.ended? = some sessionId) ∨ sessionId ∈ s.completing

/-- The main isolate has taken a message that ends no other session. -/
theorem Pending443.pop {s t : Relay} {id : String} {message : ToMain} {rest : List ToMain}
    (h : s.Pending443 id) (hpop : s.worker443.toMain = message :: rest)
    (hinbox443 : t.inbox443 = s.inbox443)
    (hworker443 : t.worker443 = { s.worker443 with toMain := rest })
    (hcompleting : id ∈ s.completing → id ∈ t.completing)
    (hmessage : message.ended? = some id → id ∈ t.completing) : t.Pending443 id := by
  unfold Pending443 at h ⊢
  rw [hinbox443, hworker443]
  rw [hpop] at h
  rcases h with h | h | ⟨m, hm, hended⟩ | h
  · exact Or.inl h
  · exact Or.inr (Or.inl h)
  · rcases List.mem_cons.mp hm with rfl | hm
    · exact Or.inr (Or.inr (Or.inr (hmessage hended)))
    · exact Or.inr (Or.inr (Or.inl ⟨m, hm, hended⟩))
  · exact Or.inr (Or.inr (Or.inr (hcompleting h)))

structure Sound (s : Relay) : Prop where
  starting : ∀ (i : ℕ) (r : PortsRequest), s.requests[i]? = some r → r.stage.active = true →
    r.params.sessionId ∈ s.startingSessions
  alone : ∀ (i j : ℕ) (r q : PortsRequest), s.requests[i]? = some r → s.requests[j]? = some q → r.stage.active = true →
    q.stage.active = true → r.params.sessionId = q.params.sessionId → i = j
  unrecorded : ∀ (i : ℕ) (r : PortsRequest), s.requests[i]? = some r → r.stage.early = true →
    s.sessions.get? r.params.sessionId = none
  worker : ∀ (i : ℕ) (r : PortsRequest) (w : ℕ), s.requests[i]? = some r → r.stage.worker? = some w →
    ∃ p, s.pairs[w]? = some p ∧ p.request = i ∧ p.sessionId = r.params.sessionId
  single : ∀ (i : ℕ) (r : PortsRequest), s.requests[i]? = some r → r.stage = .mutex none → r.params.only443 = true
  portsFirst : ∀ p ∈ s.pairs, p.PortsFirst
  refs : ∀ id si, s.sessions.get? id = some si → si.ref < s.refs
  pairRecord : ∀ id si w, s.sessions.get? id = some si → si.toWorker = some w →
    ∃ p, s.pairs[w]? = some p ∧ p.sessionId = id ∧ (p.Owes ∨ id ∈ s.completing)
  singleRecord : ∀ id si, s.sessions.get? id = some si → si.toWorker = none → s.Pending443 id

/-- No step puts one record in the place of another. -/
def Keeps (s t : Relay) : Prop :=
  ∀ id si si', s.sessions.get? id = some si → t.sessions.get? id = some si' → si'.ref = si.ref

/-- From `s` to `t`, messages have come and gone, and records have gone. -/
structure Settles (s t : Relay) : Prop where
  requests : t.requests = s.requests
  startingSessions : t.startingSessions = s.startingSessions
  refs : t.refs = s.refs
  records : ∀ id si', t.sessions.get? id = some si' →
    ∃ si, s.sessions.get? id = some si ∧ si'.ref = si.ref ∧ si'.toWorker = si.toWorker
  pairs : ∀ (w : ℕ) (p : PairWorker), s.pairs[w]? = some p → ∃ p', t.pairs[w]? = some p' ∧ p'.request = p.request ∧
    p'.sessionId = p.sessionId ∧ (p.Owes → p'.Owes ∨
      ((t.sessions.get? p.sessionId).isSome → p.sessionId ∈ t.completing))
  portsFirst : (∀ p ∈ s.pairs, p.PortsFirst) → ∀ p ∈ t.pairs, p.PortsFirst
  completing : ∀ id ∈ s.completing, (t.sessions.get? id).isSome → id ∈ t.completing
  single : ∀ id, (t.sessions.get? id).isSome → s.Pending443 id → t.Pending443 id

theorem Sound.settles {s t : Relay} (h : s.Sound) (ht : s.Settles t) : t.Sound ∧ s.Keeps t := by
  constructor
  · constructor
    · intro i r hr hactive
      rw [ht.requests] at hr
      rw [ht.startingSessions]
      exact h.starting i r hr hactive
    · intro i j r q hr hq
      rw [ht.requests] at hr hq
      exact h.alone i j r q hr hq
    · intro i r hr hearly
      rw [ht.requests] at hr
      by_contra hsome
      obtain ⟨si', hsi'⟩ := Option.ne_none_iff_exists'.mp hsome
      obtain ⟨si, hsi, -, -⟩ := ht.records _ _ hsi'
      rw [h.unrecorded i r hr hearly] at hsi
      cases hsi
    · intro i r w hr hw
      rw [ht.requests] at hr
      obtain ⟨p, hp, hrequest, hid⟩ := h.worker i r w hr hw
      obtain ⟨p', hp', hrequest', hid', -⟩ := ht.pairs w p hp
      exact ⟨p', hp', hrequest'.trans hrequest, hid'.trans hid⟩
    · intro i r hr
      rw [ht.requests] at hr
      exact h.single i r hr
    · exact ht.portsFirst h.portsFirst
    · intro id si' hsi'
      obtain ⟨si, hsi, href, -⟩ := ht.records _ _ hsi'
      rw [ht.refs, href]
      exact h.refs id si hsi
    · intro id si' w hsi' hw
      obtain ⟨si, hsi, -, hworker⟩ := ht.records _ _ hsi'
      have hsome : (t.sessions.get? id).isSome := by simp [hsi']
      obtain ⟨p, hp, rfl, howes⟩ := h.pairRecord id si w hsi (hworker ▸ hw)
      obtain ⟨p', hp', -, hid', hlater⟩ := ht.pairs w p hp
      refine ⟨p', hp', hid', ?_⟩
      rcases howes with howes | hmem
      · exact (hlater howes).imp_right fun h => h hsome
      · exact Or.inr (ht.completing _ hmem hsome)
    · intro id si' hsi' hw
      obtain ⟨si, hsi, -, hworker⟩ := ht.records _ _ hsi'
      exact ht.single id (by simp [hsi']) (h.singleRecord id si hsi (hworker ▸ hw))
  · intro id si si' hsi hsi'
    obtain ⟨si₀, hsi₀, href, -⟩ := ht.records _ _ hsi'
    rw [hsi] at hsi₀
    rw [href, Option.some.inj hsi₀]

/-! ### Steps that make no request go on -/

/-- A worker's phase and queues change, and what it owes it goes on owing. -/
theorem settles_setPair {s : Relay} {w : ℕ} {p p' : PairWorker} (hp : s.pairs[w]? = some p)
    (hrequest : p'.request = p.request) (hid : p'.sessionId = p.sessionId) (howes : p.Owes → p'.Owes)
    (hports : p.PortsFirst → p'.PortsFirst) : s.Settles (s.setPair w p') where
  requests := rfl
  startingSessions := rfl
  refs := rfl
  records id si hsi := ⟨si, hsi, rfl, rfl⟩
  pairs v q hq := by
    have hw : w < s.pairs.length := (List.getElem?_eq_some_iff.mp hp).1
    by_cases hv : w = v
    · subst hv
      obtain rfl : p = q := Option.some.inj (hp.symm.trans hq)
      exact ⟨p', by rw [setPair, List.getElem?_set_self hw], hrequest, hid, fun h => Or.inl (howes h)⟩
    · exact ⟨q, by rw [setPair, List.getElem?_set_ne hv, hq], rfl, rfl, Or.inl⟩
  portsFirst h q hq := by
    rcases List.mem_or_eq_of_mem_set hq with hq | rfl
    · exact h q hq
    · exact hports (h p (List.mem_of_getElem? hp))
  completing _ hid _ := hid
  single _ _ h := h

theorem settles_send (s : Relay) (w : ℕ) (message : ToPair) : s.Settles (s.send w message) := by
  unfold send
  cases hp : s.pairs[w]? with
  | none => exact ⟨rfl, rfl, rfl, fun _ si hsi => ⟨si, hsi, rfl, rfl⟩, fun _ p hp => ⟨p, hp, rfl, rfl, Or.inl⟩,
      fun h => h, fun _ hid _ => hid, fun _ _ h => h⟩
  | some p => exact settles_setPair hp rfl rfl (fun h => h) fun h => h

/-- Messages of the single-port worker come and go, and records go. -/
theorem settles_of_pairs {s t : Relay} (hrequests : t.requests = s.requests)
    (hstarting : t.startingSessions = s.startingSessions) (hrefs : t.refs = s.refs)
    (hpairs : t.pairs = s.pairs)
    (hrecords : ∀ id si', t.sessions.get? id = some si' →
      ∃ si, s.sessions.get? id = some si ∧ si'.ref = si.ref ∧ si'.toWorker = si.toWorker)
    (hcompleting : ∀ id ∈ s.completing, (t.sessions.get? id).isSome → id ∈ t.completing)
    (hsingle : ∀ id, (t.sessions.get? id).isSome → s.Pending443 id → t.Pending443 id) : s.Settles t where
  requests := hrequests
  startingSessions := hstarting
  refs := hrefs
  records := hrecords
  pairs w p hp := ⟨p, by rwa [hpairs], rfl, rfl, Or.inl⟩
  portsFirst h p hp := h p (by rwa [hpairs] at hp)
  completing := hcompleting
  single := hsingle

theorem Settles.trans {s t u : Relay} (h : s.Settles t) (h' : t.Settles u) : s.Settles u := by
  have hsome {id : String} (hu : (u.sessions.get? id).isSome) : (t.sessions.get? id).isSome := by
    obtain ⟨si', hsi'⟩ := Option.isSome_iff_exists.mp hu
    obtain ⟨si, hsi, -⟩ := h'.records _ _ hsi'
    rw [hsi]
    rfl
  refine ⟨h'.requests.trans h.requests, h'.startingSessions.trans h.startingSessions,
    h'.refs.trans h.refs, ?_, ?_, ?_, ?_, ?_⟩
  · intro id si'' hsi''
    obtain ⟨si', hsi', href', hworker'⟩ := h'.records _ _ hsi''
    obtain ⟨si, hsi, href, hworker⟩ := h.records _ _ hsi'
    exact ⟨si, hsi, href'.trans href, hworker'.trans hworker⟩
  · intro w p hp
    obtain ⟨p', hp', hrequest, hid, howes⟩ := h.pairs w p hp
    obtain ⟨p'', hp'', hrequest', hid', howes'⟩ := h'.pairs w p' hp'
    refine ⟨p'', hp'', hrequest'.trans hrequest, hid'.trans hid, fun hp => ?_⟩
    rcases howes hp with hp' | hcompleting
    · exact (howes' hp').imp_right fun h hu => hid ▸ h (hid.symm ▸ hu)
    · exact Or.inr fun hu => h'.completing _ (hcompleting (hsome hu)) hu
  · exact fun hall => h'.portsFirst (h.portsFirst hall)
  · exact fun id hid hu => h'.completing id (h.completing id hid (hsome hu)) hu
  · exact fun id hu hpending => h'.single id hu (h.single id (hsome hu) hpending)

/-- A record that is erased, and the messages about it. -/
theorem records_erase {s t : Relay} {id : String} (ht : t.sessions = s.sessions.erase id) :
    (∀ id' si', t.sessions.get? id' = some si' →
      ∃ si, s.sessions.get? id' = some si ∧ si'.ref = si.ref ∧ si'.toWorker = si.toWorker) ∧
    ∀ id', (t.sessions.get? id').isSome → id' ≠ id := by
  constructor
  · intro id' si' hsi'
    rw [ht, Table.get?_erase] at hsi'
    split at hsi'
    · cases hsi'
    · exact ⟨si', hsi', rfl, rfl⟩
  · rintro id' hsome rfl
    rw [ht, Table.get?_erase, if_pos rfl] at hsome
    cases hsome

/-- The record goes at once, or once its last event is logged. -/
theorem handleSessionComplete_cases (s : Relay) (id : String) :
    s.handleSessionComplete id = { s with sessions := s.sessions.erase id } ∨
      s.handleSessionComplete id = { s with completing := s.completing ++ [id] } := by
  unfold handleSessionComplete
  split
  · exact Or.inr rfl
  · exact Or.inl rfl

/-- After it, what is recorded of the session is on its way out. -/
theorem handleSessionComplete_spec {s t : Relay} {id : String} (ht : t = s.handleSessionComplete id) :
    (∀ id' si', t.sessions.get? id' = some si' →
      ∃ si, s.sessions.get? id' = some si ∧ si'.ref = si.ref ∧ si'.toWorker = si.toWorker) ∧
    (∀ id' ∈ s.completing, id' ∈ t.completing) ∧ ((t.sessions.get? id).isSome → id ∈ t.completing) := by
  rcases handleSessionComplete_cases s id with heq | heq
  · rw [heq] at ht
    subst ht
    obtain ⟨hrecords, hne⟩ := @records_erase s { s with sessions := s.sessions.erase id } id rfl
    exact ⟨hrecords, fun _ h => h, fun h => absurd rfl (hne id h)⟩
  · rw [heq] at ht
    subst ht
    exact ⟨fun _ si hsi => ⟨si, hsi, rfl, rfl⟩, fun _ h => List.mem_append_left _ h, fun _ => by simp⟩

theorem handleSessionComplete_frame {s t : Relay} {id : String} (ht : t = s.handleSessionComplete id) :
    t.requests = s.requests ∧ t.startingSessions = s.startingSessions ∧ t.refs = s.refs ∧
      t.pairs = s.pairs ∧ t.worker443 = s.worker443 ∧ t.inbox443 = s.inbox443 := by
  rcases handleSessionComplete_cases s id with heq | heq <;>
  · rw [heq] at ht
    subst ht
    exact ⟨rfl, rfl, rfl, rfl, rfl, rfl⟩

/-- A port-pair worker has told that its session is complete. -/
theorem settles_sessionComplete {s : Relay} {w : ℕ} {p : PairWorker} {rest : List FromPair}
    (hp : s.pairs[w]? = some p) (hpop : p.toMain = .sessionComplete :: rest) :
    s.Settles ((s.setPair w { p with toMain := rest }).handleSessionComplete p.sessionId) := by
  generalize ht : (s.setPair w { p with toMain := rest }).handleSessionComplete p.sessionId = t
  obtain ⟨hrecords, hcompleting, hgone⟩ := handleSessionComplete_spec ht.symm
  obtain ⟨hrequests, hstarting, hrefs, hpairs, hworker443, hinbox443⟩ := handleSessionComplete_frame ht.symm
  have hw : w < s.pairs.length := (List.getElem?_eq_some_iff.mp hp).1
  refine ⟨hrequests, hstarting, hrefs, hrecords, ?_, ?_, fun id hid _ => hcompleting id hid, ?_⟩
  · intro v q hq
    rw [hpairs]
    by_cases hv : w = v
    · subst hv
      obtain rfl : p = q := Option.some.inj (hp.symm.trans hq)
      exact ⟨{ p with toMain := rest }, by rw [setPair, List.getElem?_set_self hw], rfl, rfl,
        fun _ => Or.inr hgone⟩
    · exact ⟨q, by rw [setPair, List.getElem?_set_ne hv, hq], rfl, rfl, Or.inl⟩
  · intro h q hq
    rw [hpairs] at hq
    rcases List.mem_or_eq_of_mem_set hq with hq | rfl
    · exact h q hq
    · exact (h p (List.mem_of_getElem? hp)).pop hpop
  · intro id _ hpending
    unfold Pending443 at hpending ⊢
    rw [hworker443, hinbox443]
    exact hpending.imp_right fun h => h.imp_right fun h => h.imp_right (hcompleting id)

theorem settles_from443 {s t : Relay} (hstep : s.from443 = some t) : s.Settles t := by
  unfold from443 at hstep
  split at hstep
  · cases hstep
  · rename_i message rest hpop
    simp only at hstep
    split at hstep
    · rename_i id
      obtain rfl := Option.some.inj hstep
      generalize ht : handleSessionComplete _ id = t
      obtain ⟨hrecords, hcompleting, hgone⟩ := handleSessionComplete_spec ht.symm
      obtain ⟨hrequests, hstarting, hrefs, hpairs, hworker443, hinbox443⟩ :=
        handleSessionComplete_frame ht.symm
      refine settles_of_pairs hrequests hstarting hrefs hpairs hrecords (fun id hid _ => hcompleting id hid) ?_
      intro id' hsome hpending
      apply hpending.pop hpop hinbox443 hworker443 (hcompleting id')
      intro hended
      obtain rfl := Option.some.inj hended
      exact hgone hsome
    · rename_i id reason
      obtain rfl := Option.some.inj hstep
      obtain ⟨hrecords, hne⟩ := @records_erase s
        { s with worker443 := { s.worker443 with toMain := rest }, sessions := s.sessions.erase id } id rfl
      refine settles_of_pairs rfl rfl rfl rfl hrecords (fun _ h _ => h) ?_
      intro id' hsome hpending
      refine hpending.pop hpop ?_ ?_ ?_ ?_
      · rfl
      · rfl
      · exact fun h => h
      intro hended
      exact absurd (Option.some.inj hended).symm (hne id' hsome)
    · obtain rfl := Option.some.inj hstep
      refine settles_of_pairs rfl rfl rfl rfl (fun _ si hsi => ⟨si, hsi, rfl, rfl⟩) (fun _ h _ => h) ?_
      intro id' _ hpending
      refine hpending.pop hpop ?_ ?_ ?_ ?_
      · rfl
      · rfl
      · exact fun h => h
      intro hended
      cases hended

theorem settles_doneLogged {s t : Relay} {k : ℕ} (hstep : s.doneLogged k = some t) : s.Settles t := by
  obtain ⟨id, hid, hstep⟩ := Option.bind_eq_some_iff.mp hstep
  obtain rfl := Option.some.inj hstep
  obtain ⟨hrecords, hne⟩ := @records_erase s
    { s with sessions := s.sessions.erase id, completing := s.completing.eraseIdx k } id rfl
  have hcompleting : ∀ id' ∈ s.completing, id' ≠ id → id' ∈ s.completing.eraseIdx k := by
    intro id' hid' hother
    obtain ⟨j, hj⟩ := List.mem_iff_getElem?.mp hid'
    refine List.mem_eraseIdx_iff_getElem?.mpr ⟨j, ?_, hj⟩
    rintro rfl
    exact hother (Option.some.inj (hj.symm.trans hid))
  refine settles_of_pairs rfl rfl rfl rfl hrecords (fun id' h hsome => hcompleting id' h (hne id' hsome)) ?_
  intro id' hsome hpending
  exact hpending.imp_right fun h => h.imp_right fun h => h.imp_right fun h =>
    hcompleting id' h (hne id' hsome)

theorem settles_logging {s t : Relay} {cfg : RelayConfig} {sender id config : String}
    (hstep : s.logging cfg sender id config = some t) : s.Settles t := by
  obtain ⟨si, -, hstep⟩ := Option.bind_eq_some_iff.mp hstep
  obtain ⟨daemon, -, hstep⟩ := Option.bind_eq_some_iff.mp hstep
  obtain ⟨-, -, hstep⟩ := Option.bind_eq_some_iff.mp hstep
  obtain rfl := Option.some.inj hstep
  exact settles_of_pairs rfl rfl rfl rfl (fun _ si hsi => ⟨si, hsi, rfl, rfl⟩) (fun _ h _ => h)
    fun _ _ h => h

theorem settles_validated {s t : Relay} {k : ℕ} {valid : Bool}
    (hstep : s.validated k valid = some t) : s.Settles t := by
  obtain ⟨⟨ref, config⟩, -, hstep⟩ := Option.bind_eq_some_iff.mp hstep
  obtain rfl := Option.some.inj hstep
  cases valid
  · exact settles_of_pairs rfl rfl rfl rfl (fun _ si hsi => ⟨si, hsi, rfl, rfl⟩) (fun _ h _ => h)
      fun _ _ h => h
  · refine settles_of_pairs rfl rfl rfl rfl ?_ (fun _ h _ => h) fun _ _ h => h
    intro id si' hsi'
    rw [if_pos rfl, Table.get?_mapValues] at hsi'
    obtain ⟨si, hsi, rfl⟩ := Option.map_eq_some_iff.mp hsi'
    refine ⟨si, hsi, ?_⟩
    split <;> exact ⟨rfl, rfl⟩

theorem settles_endSession {s t : Relay} {id : String} (hstep : s.endSession id = some t) :
    s.Settles t := by
  obtain ⟨si, -, hstep⟩ := Option.bind_eq_some_iff.mp hstep
  obtain ⟨-, -, hstep⟩ := Option.bind_eq_some_iff.mp hstep
  have hending : s.Settles { s with
      sessions := s.sessions.modify id fun si => { si with ending := true } } := by
    refine settles_of_pairs rfl rfl rfl rfl ?_ (fun _ h _ => h) fun _ _ h => h
    intro id' si' hsi'
    rw [Table.get?_modify] at hsi'
    split at hsi'
    · obtain ⟨si, hsi, rfl⟩ := Option.map_eq_some_iff.mp hsi'
      exact ⟨si, hsi, rfl, rfl⟩
    · exact ⟨si', hsi', rfl, rfl⟩
  cases hworker : si.toWorker with
  | some w =>
    rw [hworker] at hstep
    obtain rfl := Option.some.inj hstep
    exact hending.trans (settles_send _ _ _)
  | none =>
    rw [hworker] at hstep
    simp only at hstep
    split at hstep
    · obtain rfl := Option.some.inj hstep
      apply hending.trans
      refine settles_of_pairs rfl rfl rfl rfl (fun _ si hsi => ⟨si, hsi, rfl, rfl⟩) (fun _ h _ => h) ?_
      rintro id' - (⟨params, hstart, hid⟩ | h)
      · exact Or.inl ⟨params, List.mem_append_left _ hstart, hid⟩
      · exact Or.inr h
    · obtain rfl := Option.some.inj hstep
      exact hending

/-! ### The workers -/

theorem settles_pairListens {s t : Relay} {w : ℕ} (hstep : s.pairListens w = some t) : s.Settles t := by
  obtain ⟨p, hp, hstep⟩ := Option.bind_eq_some_iff.mp hstep
  obtain ⟨-, -, hstep⟩ := Option.bind_eq_some_iff.mp hstep
  obtain rfl := Option.some.inj hstep
  refine settles_setPair hp rfl rfl ?_ ?_
  · intro _ hphase
    cases hphase
  · intro _ _ hphase
    cases hphase

theorem settles_pairTakes {s t : Relay} {w : ℕ} (hstep : s.pairTakes w = some t) : s.Settles t := by
  obtain ⟨p, hp, hstep⟩ := Option.bind_eq_some_iff.mp hstep
  obtain ⟨_, hphase, hstep⟩ := Option.bind_eq_some_iff.mp hstep
  have hrunning : p.phase ≠ .completed := by
    intro hcompleted
    rcases (Option.guard_eq_some' _).mp hphase with h | h | h <;>
    · rw [hcompleted] at h
      cases h
  split at hstep
  · cases hstep
  · obtain rfl := Option.some.inj hstep
    have hnot : ¬(if p.phase = .listening then PairPhase.starting else p.phase) = .completed := by
      split
      · exact PairPhase.noConfusion
      · exact hrunning
    exact settles_setPair hp rfl rfl (fun _ h => absurd h hnot) fun _ _ h => absurd h hnot
  · obtain rfl := Option.some.inj hstep
    have hnot : ¬(if p.phase = .running then PairPhase.running else .killed) = .completed := by
      split <;> exact PairPhase.noConfusion
    exact settles_setPair hp rfl rfl (fun _ h => absurd h hnot) fun _ _ h => absurd h hnot

theorem settles_pairBinds {s t : Relay} {w : ℕ} (hstep : s.pairBinds w = some t) : s.Settles t := by
  obtain ⟨p, hp, hstep⟩ := Option.bind_eq_some_iff.mp hstep
  obtain ⟨-, -, hstep⟩ := Option.bind_eq_some_iff.mp hstep
  obtain rfl := Option.some.inj hstep
  refine settles_setPair hp rfl rfl ?_ ?_
  · intro _ hphase
    cases hphase
  · intro _ _ hphase
    cases hphase

theorem settles_pairDone {s t : Relay} {w : ℕ} (hstep : s.pairDone w = some t) : s.Settles t := by
  obtain ⟨p, hp, hstep⟩ := Option.bind_eq_some_iff.mp hstep
  obtain ⟨-, -, hstep⟩ := Option.bind_eq_some_iff.mp hstep
  obtain rfl := Option.some.inj hstep
  refine settles_setPair hp rfl rfl ?_ ?_
  · exact fun _ _ => List.mem_append_right _ (List.mem_singleton_self _)
  · exact fun _ _ _ => List.getLast?_concat

theorem settles_pairDies {s t : Relay} {w : ℕ} (hstep : s.pairDies w = some t) : s.Settles t := by
  obtain ⟨p, hp, hstep⟩ := Option.bind_eq_some_iff.mp hstep
  obtain ⟨-, -, hstep⟩ := Option.bind_eq_some_iff.mp hstep
  obtain rfl := Option.some.inj hstep
  refine settles_setPair hp rfl rfl ?_ ?_
  · intro _ hphase
    cases hphase
  · intro _ _ hphase
    cases hphase

/-- A start that is taken ends in a session, in the one there is, or in a refusal. -/
theorem startSession_pending (worker : SinglePortWorker) (params : SrvdSessionParams) :
    ((worker.startSession params).sessions.lookup params.sessionId).isSome ∨
      ∃ message ∈ (worker.startSession params).toMain, message.ended? = some params.sessionId := by
  unfold SinglePortWorker.startSession
  split
  · rename_i hlive
    exact Or.inl hlive
  · split
    · exact Or.inr ⟨_, List.mem_append_right _ (List.mem_singleton_self _), rfl⟩
    · exact Or.inl (by simp)

theorem startSession_later (worker : SinglePortWorker) (params : SrvdSessionParams) (id : String) :
    ((worker.sessions.lookup id).isSome →
        ((worker.startSession params).sessions.lookup id).isSome) ∧
      ∀ message ∈ worker.toMain, message ∈ (worker.startSession params).toMain := by
  unfold SinglePortWorker.startSession
  split
  · exact ⟨fun h => h, fun _ h => h⟩
  · split
    · exact ⟨fun h => h, fun _ h => List.mem_append_left _ h⟩
    · refine ⟨fun h => ?_, fun _ h => h⟩
      rw [List.lookup_cons]
      split
      · rfl
      · exact h

theorem endSession_lookup {worker : SinglePortWorker} (ended : String) {id : String}
    (h : (worker.sessions.lookup id).isSome) :
    ((worker.endSession ended).sessions.lookup id).isSome := by
  obtain ⟨e, he, hid⟩ := List.lookup_isSome_iff.mp h
  refine List.lookup_isSome_iff.mpr ⟨_, List.mem_map_of_mem he, ?_⟩
  split <;> exact hid

theorem settles_takes443 {s t : Relay} (hstep : s.takes443 = some t) : s.Settles t := by
  unfold takes443 at hstep
  split at hstep
  · cases hstep
  · rename_i params rest hpop
    obtain rfl := Option.some.inj hstep
    refine settles_of_pairs rfl rfl rfl rfl (fun _ si hsi => ⟨si, hsi, rfl, rfl⟩) (fun _ h _ => h) ?_
    rintro id - (⟨params', hstart, rfl⟩ | h | ⟨m, hm, hended⟩ | h)
    · rw [hpop] at hstart
      rcases List.mem_cons.mp hstart with heq | hstart
      · cases heq
        exact Or.inr ((startSession_pending s.worker443 params).imp_right Or.inl)
      · exact Or.inl ⟨params', hstart, rfl⟩
    · exact Or.inr (Or.inl ((startSession_later s.worker443 params id).1 h))
    · exact Or.inr (Or.inr (Or.inl ⟨m, (startSession_later s.worker443 params id).2 m hm, hended⟩))
    · exact Or.inr (Or.inr (Or.inr h))
  · rename_i ended rest hpop
    obtain rfl := Option.some.inj hstep
    refine settles_of_pairs rfl rfl rfl rfl (fun _ si hsi => ⟨si, hsi, rfl, rfl⟩) (fun _ h _ => h) ?_
    rintro id - (⟨params, hstart, hid⟩ | h | h)
    · rw [hpop] at hstart
      exact Or.inl ⟨params, (List.mem_cons.mp hstart).resolve_left ToSinglePort.noConfusion, hid⟩
    · exact Or.inr (Or.inl (endSession_lookup ended h))
    · exact Or.inr (Or.inr h)

theorem settles_done443 {s t : Relay} {id : String} (hstep : s.done443 id = some t) : s.Settles t := by
  obtain ⟨worker443, hworker443, hstep⟩ := Option.bind_eq_some_iff.mp hstep
  obtain rfl := Option.some.inj hstep
  unfold SinglePortWorker.connectorDone at hworker443
  split at hworker443
  · cases hworker443
  obtain rfl := Option.some.inj hworker443
  refine settles_of_pairs rfl rfl rfl rfl (fun _ si hsi => ⟨si, hsi, rfl, rfl⟩) (fun _ h _ => h) ?_
  rintro id' - (h | h | ⟨m, hm, hended⟩ | h)
  · exact Or.inl h
  · by_cases hid : id' = id
    · exact Or.inr (Or.inr (Or.inl
        ⟨_, List.mem_append_right _ (List.mem_singleton_self _), congrArg some hid.symm⟩))
    · obtain ⟨e, he, heq⟩ := List.lookup_isSome_iff.mp h
      have hne : e.1 ≠ id := fun h => hid ((beq_iff_eq.mp heq).trans h)
      exact Or.inr (Or.inl (List.lookup_isSome_iff.mpr
        ⟨e, List.mem_filter.mpr ⟨he, bne_iff_ne.mpr hne⟩, heq⟩))
  · exact Or.inr (Or.inr (Or.inl ⟨m, List.mem_append_left _ hm, hended⟩))
  · exact Or.inr (Or.inr (Or.inr h))

/-! ### Requests that go on -/

theorem keeps_of_sessions {s t : Relay} (h : t.sessions = s.sessions) : s.Keeps t := by
  intro id si si' hsi hsi'
  rw [h, hsi] at hsi'
  rw [Option.some.inj hsi']

/-- A request awaits something else, before its session is recorded or after it. -/
theorem Sound.move {s : Relay} (h : s.Sound) {i : ℕ} {r : PortsRequest} (hr : s.requests[i]? = some r)
    {stage : RequestStage} (hactive : stage.active = true → r.stage.active = true)
    (hearly : stage.early = true → r.stage.early = true)
    (hworker : ∀ w, stage.worker? = some w →
      ∃ p, s.pairs[w]? = some p ∧ p.request = i ∧ p.sessionId = r.params.sessionId)
    (hsingle : stage = .mutex none → r.params.only443 = true) : (s.move i r stage).Sound := by
  refine ⟨?_, ?_, ?_, ?_, ?_, h.portsFirst, h.refs, h.pairRecord, h.singleRecord⟩
  · intro j q hq hq'
    rcases getElem?_set_cases hq with ⟨rfl, rfl⟩ | ⟨-, hq⟩
    · exact h.starting j r hr (hactive hq')
    · exact h.starting j q hq hq'
  · intro j k q q' hq hq' ha ha' hsame
    rcases getElem?_set_cases hq with ⟨rfl, rfl⟩ | ⟨-, hq₁⟩
    · rcases getElem?_set_cases hq' with ⟨rfl, rfl⟩ | ⟨-, hq₁'⟩
      · rfl
      · exact h.alone j k r q' hr hq₁' (hactive ha) ha' hsame
    · rcases getElem?_set_cases hq' with ⟨rfl, rfl⟩ | ⟨-, hq₁'⟩
      · exact h.alone j k q r hq₁ hr ha (hactive ha') hsame
      · exact h.alone j k q q' hq₁ hq₁' ha ha' hsame
  · intro j q hq hq'
    rcases getElem?_set_cases hq with ⟨rfl, rfl⟩ | ⟨-, hq⟩
    · exact h.unrecorded j r hr (hearly hq')
    · exact h.unrecorded j q hq hq'
  · intro j q w hq hq'
    rcases getElem?_set_cases hq with ⟨rfl, rfl⟩ | ⟨-, hq⟩
    · exact hworker w hq'
    · exact h.worker j q w hq hq'
  · intro j q hq hq'
    rcases getElem?_set_cases hq with ⟨rfl, rfl⟩ | ⟨-, hq⟩
    · exact hsingle hq'
    · exact h.single j q hq hq'

theorem Sound.finish {s : Relay} (h : s.Sound) {i : ℕ} {r : PortsRequest}
    (hr : s.requests[i]? = some r) (hactive : r.stage.active = true) : (s.finish i r).Sound := by
  have hmoved : (s.move i r .over).Sound :=
    h.move hr Bool.noConfusion Bool.noConfusion (by simp [RequestStage.worker?]) RequestStage.noConfusion
  refine ⟨?_, hmoved.alone, hmoved.unrecorded, hmoved.worker, hmoved.single, h.portsFirst, h.refs,
    h.pairRecord, h.singleRecord⟩
  intro j q hq hq'
  rcases getElem?_set_cases hq with ⟨rfl, rfl⟩ | ⟨hj, hq⟩
  · cases hq'
  · refine List.mem_filter.mpr ⟨h.starting j q hq hq', ?_⟩
    simp only [ne_eq, decide_eq_true_eq]
    exact fun hsame => hj (h.alone j i q r hq hr hq' hactive hsame)

/-- The id of a session that is starting is not yet recorded, so no record is overwritten. -/
theorem Sound.record {s : Relay} (h : s.Sound) {i : ℕ} {r : PortsRequest} (cfg : RelayConfig)
    (hr : s.requests[i]? = some r) (hactive : r.stage.active = true) (hearly : r.stage.early = true)
    {toWorker : Option ℕ}
    (hworker : ∀ w, toWorker = some w →
      ∃ p, s.pairs[w]? = some p ∧ p.sessionId = r.params.sessionId ∧ p.Owes)
    (hsingle : toWorker = none → r.params.only443 = true) :
    (s.record cfg i r toWorker).Sound ∧ s.Keeps (s.record cfg i r toWorker) := by
  have hnone := h.unrecorded i r hr hearly
  unfold Relay.record
  split
  · split
    · exact ⟨h.move hr (fun _ => hactive) (fun _ => hearly) (by simp [RequestStage.worker?])
        RequestStage.noConfusion, keeps_of_sessions rfl⟩
    · exact ⟨h.finish hr hactive, keeps_of_sessions rfl⟩
  · have hmoved : (s.move i r .notifying).Sound :=
      h.move hr (fun _ => hactive) Bool.noConfusion (by simp [RequestStage.worker?])
        RequestStage.noConfusion
    constructor
    · refine ⟨hmoved.starting, hmoved.alone, ?_, hmoved.worker, hmoved.single, h.portsFirst, ?_, ?_, ?_⟩
      · intro j q hq hq'
        rcases getElem?_set_cases hq with ⟨rfl, rfl⟩ | ⟨hj, hq⟩
        · cases hq'
        · have hother : q.params.sessionId ≠ r.params.sessionId := by
            intro hsame
            exact hj (h.alone j i q r hq hr (RequestStage.active_of_early hq') hactive hsame)
          rw [Table.get?_set, if_neg hother]
          exact h.unrecorded j q hq hq'
      · intro id si hsi
        rw [Table.get?_set] at hsi
        split at hsi
        · obtain rfl := Option.some.inj hsi
          exact Nat.lt_succ_self _
        · exact Nat.lt_succ_of_lt (h.refs id si hsi)
      · intro id si w hsi hw
        rw [Table.get?_set] at hsi
        split at hsi
        · rename_i hid
          obtain rfl := Option.some.inj hsi
          obtain ⟨p, hp, hpid, howes⟩ := hworker w hw
          exact ⟨p, hp, hpid.trans hid.symm, Or.inl howes⟩
        · exact h.pairRecord id si w hsi hw
      · intro id si hsi hw
        rw [Table.get?_set] at hsi
        split at hsi
        · rename_i hid
          obtain rfl := Option.some.inj hsi
          refine Or.inl ⟨r.params, ?_, hid.symm⟩
          rw [if_pos (hsingle hw)]
          exact List.mem_append_right _ (List.mem_singleton_self _)
        · rcases h.singleRecord id si hsi hw with ⟨params, hstart, hid⟩ | hpending
          · refine Or.inl ⟨params, ?_, hid⟩
            split
            · exact List.mem_append_left _ hstart
            · exact hstart
          · exact Or.inr hpending
    · intro id si si' hsi hsi'
      rw [Table.get?_set] at hsi'
      split at hsi'
      · rename_i hid
        rw [hid, hnone] at hsi
        cases hsi
      · rw [hsi] at hsi'
        rw [Option.some.inj hsi']

/-- A new request, which starts a session if it is active, under an id of its own. -/
theorem Sound.add {s : Relay} (h : s.Sound) (r : PortsRequest) (starting : List String)
    (hworker : r.stage.worker? = none) (hsingle : r.stage ≠ .mutex none)
    (hstarting : ∀ id ∈ s.startingSessions, id ∈ starting)
    (hactive : r.stage.active = true → r.params.sessionId ∈ starting ∧
      r.params.sessionId ∉ s.startingSessions ∧ s.sessions.get? r.params.sessionId = none) :
    Sound { s with startingSessions := starting, requests := s.requests ++ [r] } := by
  refine ⟨?_, ?_, ?_, ?_, ?_, h.portsFirst, h.refs, h.pairRecord, h.singleRecord⟩
  · intro j q hq hq'
    rcases getElem?_concat_cases hq with hq | ⟨-, rfl⟩
    · exact hstarting _ (h.starting j q hq hq')
    · exact (hactive hq').1
  · intro j k q q' hq hq' ha ha' hsame
    rcases getElem?_concat_cases hq with hq₁ | ⟨rfl, rfl⟩
    · rcases getElem?_concat_cases hq' with hq₁' | ⟨-, rfl⟩
      · exact h.alone j k q q' hq₁ hq₁' ha ha' hsame
      · exact absurd (hsame ▸ h.starting j q hq₁ ha) (hactive ha').2.1
    · rcases getElem?_concat_cases hq' with hq₁' | ⟨rfl, -⟩
      · exact absurd (hsame.symm ▸ h.starting k q' hq₁' ha') (hactive ha).2.1
      · rfl
  · intro j q hq hq'
    rcases getElem?_concat_cases hq with hq | ⟨-, rfl⟩
    · exact h.unrecorded j q hq hq'
    · exact (hactive (RequestStage.active_of_early hq')).2.2
  · intro j q w hq hq'
    rcases getElem?_concat_cases hq with hq | ⟨-, rfl⟩
    · exact h.worker j q w hq hq'
    · rw [hworker] at hq'
      cases hq'
  · intro j q hq hq'
    rcases getElem?_concat_cases hq with hq | ⟨-, rfl⟩
    · exact h.single j q hq hq'
    · exact absurd hq' hsingle

theorem Sound.handleRequestPorts {s : Relay} (h : s.Sound) (cfg : RelayConfig) (sender : String)
    (params : SrvdSessionParams) : (s.handleRequestPorts cfg sender params).Sound := by
  unfold Relay.handleRequestPorts
  split
  · exact h
  · split
    · exact h
    · rename_i hknown
      split
      · split
        · exact h.add ⟨params, .refusing⟩ s.startingSessions rfl RequestStage.noConfusion
            (fun _ hid => hid) Bool.noConfusion
        · exact h
      · apply h.add ⟨params, .payloadKeys⟩ _ rfl RequestStage.noConfusion
        · exact fun _ hid => List.mem_append_left _ hid
        · intro _
          simp only [Bool.or_eq_true, not_or, Bool.not_eq_true, Option.isSome_eq_false_iff,
            Option.isNone_iff_eq_none] at hknown
          refine ⟨List.mem_append_right _ (List.mem_singleton_self _), ?_, hknown.1⟩
          simpa using hknown.2

theorem settles_newPair (s : Relay) (i : ℕ) (id : String) :
    s.Settles { s with pairs := s.pairs ++ [⟨i, id, .spawned, [], []⟩] } where
  requests := rfl
  startingSessions := rfl
  refs := rfl
  records _ si hsi := ⟨si, hsi, rfl, rfl⟩
  pairs w p hp := by
    have hlt := (List.getElem?_eq_some_iff.mp hp).1
    exact ⟨p, by rw [List.getElem?_append_left hlt, hp], rfl, rfl, Or.inl⟩
  portsFirst h p hp := by
    rcases List.mem_append.mp hp with hp | hp
    · exact h p hp
    · obtain rfl := List.mem_singleton.mp hp
      intro hports
      cases hports
  completing _ hid _ := hid
  single _ _ h := h

theorem Sound.spawned {s t : Relay} (h : s.Sound) {i : ℕ} {started : Bool}
    (hstep : s.spawned i started = some t) : t.Sound ∧ s.Keeps t := by
  obtain ⟨r, hr, hstep⟩ := Option.bind_eq_some_iff.mp hstep
  obtain ⟨_, hstage, hstep⟩ := Option.bind_eq_some_iff.mp hstep
  have hspawning := (Option.guard_eq_some' _).mp hstage
  obtain rfl := Option.some.inj hstep
  cases started
  · exact ⟨h.finish hr (by rw [hspawning]; rfl), keeps_of_sessions rfl⟩
  · refine ⟨?_, keeps_of_sessions rfl⟩
    -- the worker first, then the request that awaits it
    have hnew := (h.settles (s.settles_newPair i r.params.sessionId)).1
    have hstage' : RequestStage.active (.sendPort s.pairs.length) = true → r.stage.active = true :=
      fun _ => by rw [hspawning]; rfl
    refine hnew.move hr hstage' (fun _ => by rw [hspawning]; rfl) ?_ RequestStage.noConfusion
    intro w hw
    obtain rfl := Option.some.inj hw
    exact ⟨_, by rw [List.getElem?_concat_length], rfl, rfl⟩

theorem Sound.nackSent {s t : Relay} (h : s.Sound) {i : ℕ} (hstep : s.nackSent i = some t) :
    t.Sound ∧ s.Keeps t := by
  obtain ⟨r, hr, hstep⟩ := Option.bind_eq_some_iff.mp hstep
  split at hstep
  · obtain rfl := Option.some.inj hstep
    exact ⟨h.move hr Bool.noConfusion Bool.noConfusion (by simp [RequestStage.worker?])
      RequestStage.noConfusion, keeps_of_sessions rfl⟩
  · rename_i hstage
    obtain rfl := Option.some.inj hstep
    exact ⟨h.finish hr (by rw [hstage]; rfl), keeps_of_sessions rfl⟩
  · cases hstep

/-- A request that has its ports goes on with a worker that still owes the end of its session. -/
theorem Sound.mutexOrRecord {s : Relay} (h : s.Sound) {i : ℕ} {r : PortsRequest} (cfg : RelayConfig)
    (hr : s.requests[i]? = some r) (hearly : r.stage.early = true) {toWorker : Option ℕ}
    (hworker : ∀ w, toWorker = some w → ∃ p, s.pairs[w]? = some p ∧ p.request = i ∧
      p.sessionId = r.params.sessionId ∧ p.Owes)
    (hsingle : toWorker = none → r.params.only443 = true) :
    (s.mutexOrRecord cfg i r toWorker).Sound ∧ s.Keeps (s.mutexOrRecord cfg i r toWorker) := by
  have hactive := RequestStage.active_of_early hearly
  unfold Relay.mutexOrRecord
  split
  · apply h.record cfg hr hactive hearly _ hsingle
    intro w hw
    obtain ⟨p, hp, -, hid, howes⟩ := hworker w hw
    exact ⟨p, hp, hid, howes⟩
  · refine ⟨h.move hr (fun _ => hactive) (fun _ => hearly) ?_ ?_, keeps_of_sessions rfl⟩
    · intro w hw
      obtain ⟨p, hp, hrequest, hid, -⟩ := hworker w hw
      exact ⟨p, hp, hrequest, hid⟩
    · intro hnone
      exact hsingle (RequestStage.mutex.inj hnone)

theorem Sound.payloadKeys {s t : Relay} (h : s.Sound) {cfg : RelayConfig} {i : ℕ} {fetched : Bool}
    (hstep : s.payloadKeys cfg i fetched = some t) : t.Sound ∧ s.Keeps t := by
  obtain ⟨r, hr, hstep⟩ := Option.bind_eq_some_iff.mp hstep
  obtain ⟨_, hstage, hstep⟩ := Option.bind_eq_some_iff.mp hstep
  have hkeys := (Option.guard_eq_some' _).mp hstage
  obtain rfl := Option.some.inj hstep
  split
  · exact ⟨h.finish hr (by rw [hkeys]; rfl), keeps_of_sessions rfl⟩
  · split
    · rename_i honly443
      exact h.mutexOrRecord cfg hr (by rw [hkeys]; rfl) (fun _ hw => by cases hw) fun _ => honly443
    · exact ⟨h.move hr (fun _ => by rw [hkeys]; rfl) (fun _ => by rw [hkeys]; rfl)
        (by simp [RequestStage.worker?]) RequestStage.noConfusion, keeps_of_sessions rfl⟩

theorem Sound.timeout {s t : Relay} (h : s.Sound) {i : ℕ} (hstep : s.timeout i = some t) :
    t.Sound ∧ s.Keeps t := by
  obtain ⟨r, hr, hstep⟩ := Option.bind_eq_some_iff.mp hstep
  split at hstep
  · rename_i hstage
    obtain rfl := Option.some.inj hstep
    exact ⟨h.finish hr (by rw [hstage]; rfl), keeps_of_sessions rfl⟩
  · rename_i hstage
    obtain rfl := Option.some.inj hstep
    exact ⟨h.finish hr (by rw [hstage]; rfl), keeps_of_sessions rfl⟩
  · cases hstep

theorem Sound.notified {s t : Relay} (h : s.Sound) {i : ℕ} (hstep : s.notified i = some t) :
    t.Sound ∧ s.Keeps t := by
  obtain ⟨r, hr, hstep⟩ := Option.bind_eq_some_iff.mp hstep
  obtain ⟨_, hstage, hstep⟩ := Option.bind_eq_some_iff.mp hstep
  have hnotifying := (Option.guard_eq_some' _).mp hstage
  obtain rfl := Option.some.inj hstep
  exact ⟨h.move hr (fun _ => by rw [hnotifying]; rfl) Bool.noConfusion (by simp [RequestStage.worker?])
    RequestStage.noConfusion, keeps_of_sessions rfl⟩

theorem Sound.preFetched {s t : Relay} (h : s.Sound) {i : ℕ} (hstep : s.preFetched i = some t) :
    t.Sound ∧ s.Keeps t := by
  obtain ⟨r, hr, hstep⟩ := Option.bind_eq_some_iff.mp hstep
  obtain ⟨_, hstage, hstep⟩ := Option.bind_eq_some_iff.mp hstep
  have hpreFetching := (Option.guard_eq_some' _).mp hstage
  obtain rfl := Option.some.inj hstep
  exact ⟨h.finish hr (by rw [hpreFetching]; rfl), keeps_of_sessions rfl⟩

theorem Sound.exited {s t : Relay} (h : s.Sound) {w : ℕ} (hstep : s.exited w = some t) :
    t.Sound ∧ s.Keeps t := by
  obtain ⟨p, -, hstep⟩ := Option.bind_eq_some_iff.mp hstep
  obtain ⟨_, -, hstep⟩ := Option.bind_eq_some_iff.mp hstep
  obtain ⟨r, hr, hstep⟩ := Option.bind_eq_some_iff.mp hstep
  obtain rfl := Option.some.inj hstep
  split
  · rename_i hstage
    exact ⟨h.finish hr (by rw [hstage]; rfl), keeps_of_sessions rfl⟩
  · exact ⟨h, keeps_of_sessions rfl⟩

/-- The step that records the session of a request with a lease finds its worker's end of the
session not yet handled. -/
def InTime (s : Relay) : RelayEvent → Prop
  | .mutex i true => ∀ (r : PortsRequest) (w : ℕ) (p : PairWorker), s.requests[i]? = some r →
    r.stage = .mutex (some w) → s.pairs[w]? = some p → p.Owes
  | _ => True

theorem Sound.mutex {s t : Relay} (h : s.Sound) {cfg : RelayConfig} {i : ℕ} {acquired : Bool}
    (hintime : s.InTime (.mutex i acquired)) (hstep : s.mutex cfg i acquired = some t) :
    t.Sound ∧ s.Keeps t := by
  obtain ⟨r, hr, hstep⟩ := Option.bind_eq_some_iff.mp hstep
  split at hstep
  · rename_i toWorker hstage
    obtain rfl := Option.some.inj hstep
    cases acquired
    · have hfinished : (s.finish i r).Sound := h.finish hr (by rw [hstage]; rfl)
      cases toWorker with
      | none => exact ⟨hfinished, keeps_of_sessions rfl⟩
      | some w =>
        obtain ⟨hsound, hkeeps⟩ := hfinished.settles (settles_send _ w .stop)
        exact ⟨hsound, hkeeps⟩
    · rw [if_pos rfl]
      apply h.record cfg hr (by rw [hstage]; rfl) (by rw [hstage]; rfl)
      · rintro w rfl
        obtain ⟨p, hp, -, hid⟩ := h.worker i r w hr (by rw [hstage]; rfl)
        exact ⟨p, hp, hid, hintime r w p hr hstage hp⟩
      · rintro rfl
        exact h.single i r hr hstage
  · cases hstep

theorem Sound.fromPair {s t : Relay} (h : s.Sound) {cfg : RelayConfig} {w : ℕ}
    (hstep : s.fromPair cfg w = some t) : t.Sound ∧ s.Keeps t := by
  obtain ⟨p, hp, hstep⟩ := Option.bind_eq_some_iff.mp hstep
  split at hstep
  · cases hstep
  rename_i message rest hpop
  have hportsFirst := h.portsFirst p (List.mem_of_getElem? hp)
  have hw : w < s.pairs.length := (List.getElem?_eq_some_iff.mp hp).1
  simp only at hstep
  split at hstep
  · obtain rfl := Option.some.inj hstep
    exact h.settles (settles_sessionComplete hp hpop)
  · have hpop' : s.Settles (s.setPair w { p with toMain := rest }) :=
      settles_setPair hp rfl rfl (fun howes => howes.pop hpop FromPair.noConfusion)
        fun hfirst => hfirst.pop hpop
    obtain ⟨hpopped, hkeeps⟩ := h.settles hpop'
    obtain ⟨r, hr, hstep⟩ := Option.bind_eq_some_iff.mp hstep
    obtain rfl := Option.some.inj hstep
    split
    · rename_i hstage
      have hmoved : ((s.setPair w { p with toMain := rest }).move p.request r (.ports w)).Sound := by
        refine hpopped.move hr (fun _ => by rw [hstage]; rfl) (fun _ => by rw [hstage]; rfl) ?_
          RequestStage.noConfusion
        intro v hv
        obtain rfl := Option.some.inj hv
        exact hpopped.worker p.request r w hr (by rw [hstage]; rfl)
      exact hmoved.settles (settles_send _ w .start)
    · exact ⟨hpopped, hkeeps⟩
  · have hpop' : s.Settles (s.setPair w { p with toMain := rest }) :=
      settles_setPair hp rfl rfl (fun howes => howes.pop hpop FromPair.noConfusion)
        fun hfirst => hfirst.pop hpop
    obtain ⟨hpopped, hkeeps⟩ := h.settles hpop'
    obtain ⟨r, hr, hstep⟩ := Option.bind_eq_some_iff.mp hstep
    obtain rfl := Option.some.inj hstep
    split
    · rename_i hstage
      obtain ⟨q, hq, -, hid⟩ := h.worker p.request r w hr (by rw [hstage]; rfl)
      obtain rfl : p = q := Option.some.inj (hp.symm.trans hq)
      refine hpopped.mutexOrRecord cfg hr (by rw [hstage]; rfl) ?_ fun hnone => by cases hnone
      -- its ports have only just been taken, and come first
      intro v hv
      obtain rfl := Option.some.inj hv
      exact ⟨_, List.getElem?_set_self hw, rfl, hid, hportsFirst.owes hpop⟩
    · exact ⟨hpopped, hkeeps⟩

/-! ### Runs -/

theorem Sound.start : Relay.start.Sound where
  starting _ _ hr := by cases hr
  alone _ _ _ _ hr := by cases hr
  unrecorded _ _ hr := by cases hr
  worker _ _ _ hr := by cases hr
  single _ _ hr := by cases hr
  portsFirst _ hp := by cases hp
  refs _ _ hsi := by cases hsi
  pairRecord _ _ _ hsi := by cases hsi
  singleRecord _ _ hsi := by cases hsi

theorem Sound.step {s t : Relay} (h : s.Sound) {cfg : RelayConfig} {e : RelayEvent}
    (hintime : s.InTime e) (hstep : Relay.step cfg s e = some t) : t.Sound ∧ s.Keeps t := by
  cases e with
  | requestPorts sender params =>
    obtain rfl := Option.some.inj hstep
    refine ⟨h.handleRequestPorts cfg sender params, keeps_of_sessions ?_⟩
    unfold Relay.handleRequestPorts
    split_ifs <;> rfl
  | nackSent i => exact h.nackSent hstep
  | payloadKeys i fetched => exact h.payloadKeys hstep
  | spawned i started => exact h.spawned hstep
  | timeout i => exact h.timeout hstep
  | mutex i acquired => exact h.mutex hintime hstep
  | notified i => exact h.notified hstep
  | preFetched i => exact h.preFetched hstep
  | fromPair w => exact h.fromPair hstep
  | exited w => exact h.exited hstep
  | from443 => exact h.settles (settles_from443 hstep)
  | doneLogged k => exact h.settles (settles_doneLogged hstep)
  | logging sender id config => exact h.settles (settles_logging hstep)
  | validated k valid => exact h.settles (settles_validated hstep)
  | endSession id => exact h.settles (settles_endSession hstep)
  | pairListens w => exact h.settles (settles_pairListens hstep)
  | pairTakes w => exact h.settles (settles_pairTakes hstep)
  | pairBinds w => exact h.settles (settles_pairBinds hstep)
  | pairDone w => exact h.settles (settles_pairDone hstep)
  | pairDies w => exact h.settles (settles_pairDies hstep)
  | takes443 => exact h.settles (settles_takes443 hstep)
  | done443 id => exact h.settles (settles_done443 hstep)

/-- No request and no message about the session is in flight. -/
structure Quiet (s : Relay) (sessionId : String) : Prop where
  requests : ∀ r ∈ s.requests, r.params.sessionId = sessionId → r.stage = .over
  pairs : ∀ p ∈ s.pairs, p.sessionId = sessionId → p.toMain = [] ∧ p.inbox = []
  inbox443 : ∀ params, .start params ∈ s.inbox443 → params.sessionId ≠ sessionId
  toMain443 : ∀ message ∈ s.worker443.toMain, message.ended? ≠ some sessionId
  completing : sessionId ∉ s.completing

/-- The record's worker has reported its session complete, or has it no more. -/
def Ended (s : Relay) (sessionId : String) (si : LiveSession) : Prop :=
  match si.toWorker with
  | some w => ∃ p, s.pairs[w]? = some p ∧ p.phase = .completed
  | none => s.worker443.sessions.lookup sessionId = none

theorem Sound.not_ended {s : Relay} (h : s.Sound) {id : String} (hquiet : s.Quiet id)
    {si : LiveSession} (hsi : s.sessions.get? id = some si) : ¬s.Ended id si := by
  intro hended
  unfold Ended at hended
  split at hended
  · rename_i w hw
    obtain ⟨p, hp, hid, howes⟩ := h.pairRecord id si w hsi hw
    obtain ⟨q, hq, hcompleted⟩ := hended
    obtain rfl : p = q := Option.some.inj (hp.symm.trans hq)
    rcases howes with howes | hcompleting
    · have hmessage := howes hcompleted
      rw [(hquiet.pairs p (List.mem_of_getElem? hp) hid).1] at hmessage
      cases hmessage
    · exact hquiet.completing hcompleting
  · rename_i hw
    rcases h.singleRecord id si hsi hw with ⟨params, hstart, hid⟩ | hlive | ⟨m, hm, hmessage⟩ | hcompleting
    · exact hquiet.inbox443 params hstart hid
    · rw [hended] at hlive
      cases hlive
    · exact hquiet.toMain443 m hm hmessage
    · exact hquiet.completing hcompleting

/-- While every session that takes the mutex is recorded before its end is handled, a session
that has ended has no record once nothing about it is in flight, and no record is overwritten. -/
theorem sessions_of_run (cfg : RelayConfig) {es : List RelayEvent} {s : Relay}
    (hg : (machine cfg).Meets InTime Relay.start es) (hr : (machine cfg).run Relay.start es = some s) :
    (∀ id si, s.Quiet id → s.sessions.get? id = some si → ¬s.Ended id si) ∧
      (∀ id si, s.sessions.get? id = some si → si.ref < s.refs) ∧
        ∀ e t, s.InTime e → (machine cfg).step s e = some t → s.Keeps t := by
  have hsound : s.Sound := (machine cfg).invariant_of_meets
    (fun _ _ _ hs hg hstep => (hs.step hg hstep).1) Sound.start hg hr
  refine ⟨?_, hsound.refs, ?_⟩
  · exact fun id si hquiet hsi => hsound.not_ended hquiet hsi
  · exact fun e t hintime hstep => (hsound.step hintime hstep).2

/-- A session of two ports, whose client cannot handle multiple acks. -/
def mutexParams : SrvdSessionParams where
  sessionId := "s"
  atSignA := "@a"
  atSignB := "@b"
  authenticateSocketA := true
  authenticateSocketB := true
  relayAuthMode := .escr
  relayAuthAesKey := none
  only443 := false
  multipleAcksOk := false

def openRelay : RelayConfig := ⟨"open", false, some, fun a b => a == b⟩

/-- A session up to the mutex, for which its request waits. -/
def untilMutex : List RelayEvent :=
  [.requestPorts "@a" mutexParams, .payloadKeys 0 true, .spawned 0 true, .pairListens 0, .fromPair 0,
    .pairTakes 0, .pairBinds 0, .fromPair 0]

theorem sessions_of_run_sample : ∃ s,
    (machine openRelay).run Relay.start (untilMutex ++ [.mutex 0 true, .pairDone 0, .fromPair 0]) = some s ∧
      ∀ si, s.Quiet "s" → s.sessions.get? "s" = some si → ¬s.Ended "s" si := by
  have hmeets : (machine openRelay).Meets InTime Relay.start
      (untilMutex ++ [.mutex 0 true, .pairDone 0, .fromPair 0]) := by
    iterate 8 refine Machine.meets_cons _ trivial rfl ?_
    refine Machine.meets_cons _ ?_ rfl ?_
    · intro r w p hr hstage hp hcompleted
      obtain rfl := Option.some.inj hr
      obtain rfl := Option.some.inj (RequestStage.mutex.inj hstage)
      obtain rfl := Option.some.inj hp
      cases hcompleted
    · iterate 2 refine Machine.meets_cons _ trivial rfl ?_
      trivial
  exact ⟨_, rfl, fun si => (sessions_of_run openRelay hmeets rfl).1 "s" si⟩

/-- A recorded id is refused. -/
theorem handleRequestPorts_recorded {s : Relay} {params : SrvdSessionParams} {si : LiveSession}
    (cfg : RelayConfig) (sender : String) (hsi : s.sessions.get? params.sessionId = some si) :
    s.handleRequestPorts cfg sender params = s := by
  unfold Relay.handleRequestPorts
  rw [hsi, Option.isSome_some, Bool.true_or, if_pos rfl, ite_self]

/-- When the session's end is handled before its request gets the lease, nothing removes its
record, and no session can be requested under its id. -/
theorem sessions_leak : ∃ s si,
    (machine openRelay).run Relay.start
      (untilMutex ++ [.pairDone 0, .fromPair 0, .mutex 0 true, .notified 0, .preFetched 0]) = some s ∧
        s.Quiet "s" ∧ s.sessions.get? "s" = some si ∧ s.Ended "s" si ∧
          ∀ sender, s.handleRequestPorts openRelay sender mutexParams = s := by
  refine ⟨_, _, rfl, ?_, rfl, ?_, ?_⟩
  · constructor
    · intro r hr _
      obtain rfl := List.mem_singleton.mp hr
      rfl
    · intro p hp _
      obtain rfl := List.mem_singleton.mp hp
      exact ⟨rfl, rfl⟩
    · intro _ hstart
      cases hstart
    · intro _ hm
      cases hm
    · intro hmem
      cases hmem
  · exact ⟨_, rfl, rfl⟩
  · exact fun sender => handleRequestPorts_recorded openRelay sender rfl

end Relay
end NoPorts.Srvd
