import NoPorts.Lib.Text
import NoPorts.SshnpdRequests

/-! The reverse ssh of a legacy request: what the request comes to, and the arguments that the ssh binary is given
for it. -/
namespace NoPorts.SshnpdRequests
open Lib

namespace SshnpdImpl
variable (rt : Runtime) (d : SshnpdImpl) (n : AtNotification) (a : Answers)

/-- `_handleLegacySshRequestNotification` up to `startReverseSsh`: the request that this is called with, if it is. -/
def legacyReverse (auth : Npp.NPAAuthCheckResponse) : Except Thrown (Option SshnpSessionRequest) := do
  let sshList := splitSpaces (← cast n.value)
  let remoteForwardPort ← elementAt sshList 0
  let port ← elementAt sshList 1
  let username ← elementAt sshList 2
  let host ← elementAt sshList 3
  let sessionId := if sshList.length = 5 then sshList[4]?.getD "" else a.uuid.val
  -- a legacy request is not signed
  if d.requireEnrollmentSignature then do
    a.notifyRefused
    return none
  else
    let req ← d.legacyRequest rt remoteForwardPort port username host sessionId
    let s : Session := ⟨req.sessionId, none, localSshdHost, d.localSshdPort⟩
    if !permittedToOpen d.permitOpen s then do
      a.notifyDenied
      return none
    else if !permittedToOpen auth.permitOpen s then do
      a.notifyDenied
      return none
    else return some req

/-- `pemFile`'s path. -/
def pemPath (uuid : Uuid) : String := "/tmp/." ++ uuid.val

/-- The arguments `reverseSshViaExec` gives to the ssh binary. -/
def reverseSshArgs (username host : String) (port remoteForwardPort : ℤ) (pemFile : String) : List String :=
  splitSpaces
    (username ++ "@" ++ host ++
      " -p " ++ toString port ++
      " -i " ++ pemFile ++
      " -R " ++ toString remoteForwardPort ++ ":localhost:" ++ toString d.localSshdPort ++
      " -o LogLevel=VERBOSE" ++
      " -t -t" ++
      " -o StrictHostKeyChecking=accept-new" ++
      " -o IdentitiesOnly=yes" ++
      " -o BatchMode=yes" ++
      " -o ExitOnForwardFailure=yes" ++
      " -f" ++
      " sleep 15")

/-- One destination, the options with their values, and the command. -/
def meantArgs (username host : String) (port remoteForwardPort : ℤ) (pemFile : String) : List String :=
  [username ++ "@" ++ host,
    "-p", toString port,
    "-i", pemFile,
    "-R", toString remoteForwardPort ++ ":localhost:" ++ toString d.localSshdPort,
    "-o", "LogLevel=VERBOSE",
    "-t", "-t",
    "-o", "StrictHostKeyChecking=accept-new",
    "-o", "IdentitiesOnly=yes",
    "-o", "BatchMode=yes",
    "-o", "ExitOnForwardFailure=yes",
    "-f",
    "sleep", "15"]

/-- How ssh tells an option. -/
def startsWithDash (s : String) : Bool := s.toList.head? == some '-'

/-- For this request ssh is run as the daemon means it to be. -/
structure RunsAsMeant (req : SshnpSessionRequest) (uuid : Uuid) : Prop where
  args : ∀ username remoteForwardPort, req.username = some username → req.remoteForwardPort = some remoteForwardPort →
    d.reverseSshArgs username req.host req.port remoteForwardPort (pemPath uuid) =
      d.meantArgs username req.host req.port remoteForwardPort (pemPath uuid)
  destination : ∀ username, req.username = some username → startsWithDash (username ++ "@" ++ req.host) = false

/-- The third field of a legacy request's value. -/
def usernameField : Option String := n.value.bind fun value => (splitSpaces value)[2]?

end SshnpdImpl

/-! ### Texts without a space -/

/-- Text that a split at the spaces leaves whole. -/
def Unbroken (s : String) : Prop := ' ' ∉ s.toList

theorem unbroken_append {s t : String} (hs : Unbroken s) (ht : Unbroken t) : Unbroken (s ++ t) := by
  intro h
  rw [String.toList_append, List.mem_append] at h
  exact h.elim hs ht

theorem unbroken_of_mem_splitSpaces {value field : String} (h : field ∈ splitSpaces value) : Unbroken field := by
  obtain ⟨piece, hpiece, rfl⟩ := List.mem_map.mp h
  obtain ⟨-, -, -, -, -, hfree⟩ := mem_splitOn_iff.mp hpiece
  rwa [Unbroken, String.toList_ofList]

theorem unbroken_toString_nat (n : ℕ) : Unbroken (toString n) := by
  intro h
  have hdigit := isDigit_of_mem_toString n ' ' h
  exact absurd hdigit (by decide)

theorem unbroken_toString (z : ℤ) : Unbroken (toString z) := by
  cases z with
  | ofNat n => exact unbroken_toString_nat n
  | negSucc n =>
    have hminus : toString (Int.negSucc n) = "-" ++ toString (n + 1) := rfl
    rw [hminus]
    apply unbroken_append _ (unbroken_toString_nat (n + 1))
    rw [Unbroken]
    decide

theorem unbroken_uuid {v : String} (hv : isUuid v = true) : Unbroken v := by
  intro hspace
  -- the five groups, joined again
  have hjoin : ['-'].intercalate (v.toList.splitOn '-') = v.toList := List.intercalate_splitOn '-'
  unfold isUuid at hv
  split at hv
  · rename_i p q r s t hgroups
    rw [hgroups] at hjoin
    rw [← hjoin] at hspace
    have hhex : ∀ group ∈ [p, q, r, s, t], ∀ c ∈ group, isHex c = true := by
      have hall := (Bool.and_eq_true_iff.mp hv).1
      intro group hgroup c hc
      exact List.all_eq_true.mp (List.all_eq_true.mp hall group hgroup) c hc
    rcases mem_intercalate hspace with hsep | ⟨group, hgroup, hc⟩
    · exact absurd hsep (by decide)
    · exact absurd (hhex group hgroup ' ' hc) (by decide)
  · cases hv

theorem unbroken_pemPath (uuid : Uuid) : Unbroken (SshnpdImpl.pemPath uuid) := by
  apply unbroken_append _ (unbroken_uuid uuid.property)
  rw [Unbroken]
  decide

/-- Joined by spaces and split again, such texts are as they were. -/
theorem splitSpaces_join {parts : List String} {text : String}
    (htext : text.toList = [' '].intercalate (parts.map String.toList))
    (hparts : ∀ part ∈ parts, Unbroken part) (hne : parts ≠ []) : splitSpaces text = parts := by
  rw [splitSpaces, htext, List.splitOn_intercalate]
  · simp
  · intro chars hchars
    obtain ⟨part, hpart, rfl⟩ := List.mem_map.mp hchars
    exact hparts part hpart
  · simpa using hne

/-! ### What a legacy request comes to -/

namespace SshnpdImpl
variable {rt : Runtime} {d : SshnpdImpl} {n : AtNotification} {a : Answers}

/-- The handler is its part up to `startReverseSsh`, and this. -/
theorem handleLegacy_eq (auth : Npp.NPAAuthCheckResponse) :
    d.handleLegacySshRequestNotification rt n a auth =
      d.legacyReverse rt n a auth >>= fun req => req.elim (.ok ()) fun _ => d.startReverseSsh a := by
  unfold handleLegacySshRequestNotification legacyReverse
  simp only [bind_assoc]
  apply bind_congr; intro value
  apply bind_congr; intro remoteForwardPort
  apply bind_congr; intro port
  apply bind_congr; intro username
  apply bind_congr; intro host
  -- a branch that only tells the client
  have htold (call : Except Thrown Unit) : call = (do
      call
      return (none : Option SshnpSessionRequest)) >>= fun req => req.elim (.ok ()) fun _ => d.startReverseSsh a := by
    cases call with
    | error e => rfl
    | ok told => rfl
  split
  · exact htold _
  · rw [bind_assoc]
    apply bind_congr
    intro req
    split
    · exact htold _
    · split
      · exact htold _
      · rfl

theorem legacyRequest_spec {remoteForwardPort port username host sessionId : String} {req : SshnpSessionRequest}
    (h : d.legacyRequest rt remoteForwardPort port username host sessionId = .ok req) :
    req.username = some username ∧ req.host = host ∧ req.privateKey = some d.privateKey ∧
      ∃ forward, rt.intParse remoteForwardPort = .ok forward ∧ req.remoteForwardPort = some forward := by
  obtain ⟨portNumber, -, h⟩ := bind_eq_ok.mp h
  obtain ⟨forward, hforward, h⟩ := bind_eq_ok.mp h
  obtain ⟨⟨⟩, -, h⟩ := bind_eq_ok.mp h
  -- the constructor keeps every field
  have hreq : req = _ := (Except.ok.inj h).symm
  exact ⟨by rw [hreq], by rw [hreq], by rw [hreq], forward, hforward, by rw [hreq]⟩

/-- What reverse ssh is started with. -/
structure StartedWith (d : SshnpdImpl) (n : AtNotification) (req : SshnpSessionRequest) (username : String) : Prop where
  field : usernameField n = some username
  user : req.username = some username
  userUnbroken : Unbroken username
  hostUnbroken : Unbroken req.host
  privateKey : req.privateKey = some d.privateKey

theorem elementAt_eq_ok {fields : List String} {i : ℕ} {field : String} (h : elementAt fields i = .ok field) :
    fields[i]? = some field := by
  unfold elementAt at h
  split at h
  · rename_i s hs
    rw [hs, Except.ok.inj h]
  · cases h

theorem legacyReverse_spec {auth : Npp.NPAAuthCheckResponse} {req : SshnpSessionRequest}
    (h : d.legacyReverse rt n a auth = .ok (some req)) : ∃ username, d.StartedWith n req username := by
  unfold legacyReverse at h
  obtain ⟨value, hvalue, h⟩ := bind_eq_ok.mp h
  obtain ⟨remoteForwardPort, -, h⟩ := bind_eq_ok.mp h
  obtain ⟨port, -, h⟩ := bind_eq_ok.mp h
  obtain ⟨username, husername, h⟩ := bind_eq_ok.mp h
  obtain ⟨host, hhost, h⟩ := bind_eq_ok.mp h
  have husername := elementAt_eq_ok husername
  have hhost := elementAt_eq_ok hhost
  have hn : n.value = some value := cast_eq_ok.mp hvalue
  dsimp only at h
  generalize (if (splitSpaces value).length = 5 then (splitSpaces value)[4]?.getD "" else a.uuid.val) = sessionId at h
  -- of the branches only the last gives a request
  have hread : d.legacyRequest rt remoteForwardPort port username host sessionId = .ok req := by
    split at h
    · obtain ⟨⟨⟩, -, h⟩ := bind_eq_ok.mp h
      cases h
    · obtain ⟨read, hread, h⟩ := bind_eq_ok.mp h
      split at h
      · obtain ⟨⟨⟩, -, h⟩ := bind_eq_ok.mp h
        cases h
      · split at h
        · obtain ⟨⟨⟩, -, h⟩ := bind_eq_ok.mp h
          cases h
        · have hsame : read = req := Option.some.inj (Except.ok.inj h)
          rwa [hsame] at hread
  obtain ⟨huser, hsame, hkey, -⟩ := legacyRequest_spec hread
  refine ⟨username, ?_, huser, unbroken_of_mem_splitSpaces (List.mem_of_getElem? husername), ?_, hkey⟩
  · rw [usernameField, hn]
    exact husername
  · rw [hsame]
    exact unbroken_of_mem_splitSpaces (List.mem_of_getElem? hhost)

/-! ### The arguments -/

theorem unbroken_meantArgs {username host pemFile : String} {port remoteForwardPort : ℤ}
    (husername : Unbroken username) (hhost : Unbroken host) (hpem : Unbroken pemFile) :
    ∀ arg ∈ d.meantArgs username host port remoteForwardPort pemFile, Unbroken arg := by
  have hdestination : Unbroken (username ++ "@" ++ host) :=
    unbroken_append (unbroken_append husername (by rw [Unbroken]; decide)) hhost
  have hforward : Unbroken (toString remoteForwardPort ++ ":localhost:" ++ toString d.localSshdPort) :=
    unbroken_append (unbroken_append (unbroken_toString _) (by rw [Unbroken]; decide)) (unbroken_toString _)
  simp only [meantArgs, List.forall_mem_cons]
  refine ⟨hdestination, ?_, unbroken_toString port, ?_, hpem, ?_, hforward, ?_⟩
  -- the others are the source's own texts
  all_goals simp [Unbroken]

/-- Where no part holds a space, the text is split just where it was joined. -/
theorem reverseSshArgs_eq {username host pemFile : String} {port remoteForwardPort : ℤ}
    (husername : Unbroken username) (hhost : Unbroken host) (hpem : Unbroken pemFile) :
    d.reverseSshArgs username host port remoteForwardPort pemFile =
      d.meantArgs username host port remoteForwardPort pemFile := by
  apply splitSpaces_join
  · simp [meantArgs, List.intercalate]
  · exact unbroken_meantArgs husername hhost hpem
  · simp [meantArgs]

theorem startsWithDash_destination (username host : String) :
    startsWithDash (username ++ "@" ++ host) = startsWithDash username := by
  rw [startsWithDash, startsWithDash, String.toList_append, String.toList_append]
  cases username.toList with
  | nil => rfl
  | cons c cs => rfl

theorem ok_of_bind {α β : Type} {x : Except Thrown α} {f : α → Except Thrown β} {P : β → Prop}
    (hf : ∀ value result, f value = .ok result → P result) : ∀ result, (x >>= f) = .ok result → P result := by
  intro result h
  obtain ⟨value, -, h⟩ := bind_eq_ok.mp h
  exact hf value result h

/-- The constructor throws for a request that is not direct and has no username. -/
theorem direct_of_make {req made : SshnpSessionRequest} (hnone : req.username = none)
    (h : SshnpSessionRequest.make req = .ok made) : made.direct = true := by
  obtain ⟨⟨⟩, -, h⟩ := bind_eq_ok.mp h
  cases hdirect : req.direct with
  | true =>
    rw [hdirect] at h
    rw [← Except.ok.inj h, hdirect]
  | false =>
    rw [hdirect, hnone] at h
    cases h

/-- A payload's username is not read, so that only a direct one is accepted. -/
theorem fromJson_direct (json : List (String × Json)) :
    ∀ req, SshnpSessionRequest.fromJson json = .ok req → req.direct = true := by
  unfold SshnpSessionRequest.fromJson
  -- the fourteen fields that are read
  iterate 14 refine ok_of_bind fun _ => ?_
  intro req h
  exact direct_of_make rfl h

/-- The username in a legacy request's value doesn't look like an option. -/
def UsernameIsNoOption (n : AtNotification) : Prop :=
  ∀ username, usernameField n = some username → startsWithDash username = false

/-- Ssh is run as meant just for a username that doesn't look like an option; it is run by the handler of legacy
requests alone, for what `legacyReverse` gives. -/
theorem reverse_runs_as_meant_iff (rt : Runtime) (d : SshnpdImpl) (n : AtNotification) (a : Answers)
    (auth : Npp.NPAAuthCheckResponse) (uuid : Uuid) :
    d.handleLegacySshRequestNotification rt n a auth =
        (d.legacyReverse rt n a auth >>= fun req => req.elim (.ok ()) fun _ => d.startReverseSsh a) ∧
      (∀ req, d.legacyReverse rt n a auth = .ok (some req) → (d.RunsAsMeant req uuid ↔ UsernameIsNoOption n)) ∧
      ∀ json req, SshnpSessionRequest.fromJson json = .ok req → req.direct = true := by
  refine ⟨handleLegacy_eq auth, ?_, fromJson_direct⟩
  intro req h
  obtain ⟨username, hstarted⟩ := legacyReverse_spec h
  constructor
  · intro hmeant username' hfield
    have hsame : username' = username := Option.some.inj (hfield.symm.trans hstarted.field)
    have hdash := hmeant.destination username hstarted.user
    rw [startsWithDash_destination] at hdash
    rw [hsame, hdash]
  · intro hno
    have hsame (u : String) (hu : req.username = some u) : u = username :=
      Option.some.inj (hu.symm.trans hstarted.user)
    constructor
    · intro u remoteForwardPort hu _
      rw [hsame u hu]
      exact reverseSshArgs_eq hstarted.userUnbroken hstarted.hostUnbroken (unbroken_pemPath uuid)
    · intro u hu
      rw [hsame u hu, startsWithDash_destination]
      exact hno username hstarted.field

/-- A legacy request with this username. -/
def legacyRequestOf (username : String) : AtNotification :=
  ⟨"1", "@daemon:sshd.dev.sshnp@client", "@client", "@daemon",
    some ("22 22 " ++ username ++ " host 01234567-89ab-cdef-0123-456789abcdef")⟩

/-- What a legacy request with this username comes to. -/
def reverseOf (username : String) : SshnpSessionRequest :=
  { direct := false, sessionId := "01234567-89ab-cdef-0123-456789abcdef", username := some username, host := "host"
    port := 22, privateKey := some "", remoteForwardPort := some 22, relayAuthMode := .payload
    relayAuthAesKey := none, twinKeys := false, relayAtsign := none, authenticateToRvd := none, clientNonce := none
    rvdNonce := none, encryptRvdTraffic := none, clientEphemeralPK := none, clientEphemeralPKType := none }

theorem reverse_as_meant_alice : managed.RunsAsMeant (reverseOf "alice") answering.uuid := by
  have h := reverse_runs_as_meant_iff lowercased managed (legacyRequestOf "alice") answering ⟨true, none, ["*:*"]⟩
    answering.uuid
  apply (h.2.1 (reverseOf "alice") (by decide +kernel)).mpr
  have hfield : usernameField (legacyRequestOf "alice") = some "alice" := by decide +kernel
  intro username hu
  rw [← Option.some.inj (hfield.symm.trans hu)]
  decide

/-- The request of a manager, admitted, whose destination ssh takes for an option. -/
theorem reverse_takes_option :
    managed.admitted lowercased (legacyRequestOf "-oProxyCommand=reboot") answering =
        .ok (some ("sshd", ⟨true, some "Approved without policy check; client atSign @client is a manager of this daemon",
          ["*:*"]⟩)) ∧
      managed.legacyReverse lowercased (legacyRequestOf "-oProxyCommand=reboot") answering
          ⟨true, some "Approved without policy check; client atSign @client is a manager of this daemon", ["*:*"]⟩ =
        .ok (some (reverseOf "-oProxyCommand=reboot")) ∧
      ¬managed.RunsAsMeant (reverseOf "-oProxyCommand=reboot") answering.uuid := by
  refine ⟨by decide +kernel, by decide +kernel, ?_⟩
  intro h
  have hdash := h.destination "-oProxyCommand=reboot" rfl
  revert hdash
  decide

end SshnpdImpl
end NoPorts.SshnpdRequests
