import NoPorts.CDaemonLoopSafe
import NoPorts.CSrvParams

/-! The srv worker runs with what the daemon called `run_srv_process` with. -/
namespace NoPorts.CSrvParams
open Lib CArgs CDaemon

variable {Key : Type*}

/-! ### The call -/

/-- `argv` of the process that is started. -/
def execArgv (exePath : List Char) (p : SrvProcess) : List (List Char) :=
  exePath :: srvWorkerFlag :: p.srvArgs.map String.toList

/-- What `getenv` returns there, over what the daemon itself was started with. -/
def processEnv (p : SrvProcess) (inherited : String → Option String) (name : String) :
    Option String :=
  (p.environment.lookup name).or (inherited name)

/-- What `run_srv_process` relies on. -/
structure Callable (p : SrvProcess) : Prop where
  host : p.srvdHost.isSome
  port : 1 ≤ p.srvdPort ∧ p.srvdPort ≤ 65535
  requestedPort : p.requestedPort ≤ 65535
  timeoutSeconds : p.timeoutSeconds < 2147483648
  auth : p.authenticateToRvd → p.escr = none → p.rvdAuthString.isSome
  keys : p.encryptRvdTraffic → p.c2d.isSome

/-- The names that `run_srv_process` leaves as they are and the worker reads all the same. -/
def inheritedNames : List String := ["RV_AES_D2C", "RV_IV_D2C", "SRV_READY_FD"]

/-- The parameters a call stands for, `key` being the parsed ESCR key. -/
def callParams (p : SrvProcess) (key : Option Key) : SrvParams Key where
  host := p.srvdHost
  port := p.srvdPort
  localHost := p.localHost
  localPort := p.localPort
  rvAuth := p.authenticateToRvd && p.escr.isNone
  rvE2ee := p.encryptRvdTraffic
  multi := p.multi
  timeout := p.timeout
  rvdAuthString := if p.authenticateToRvd && p.escr.isNone then p.rvdAuthString else none
  escrAuth := p.escr.isSome
  escrIsSideA := false
  escrSessionId := p.escr.map EscrContext.sessionId
  escrAesKeyBase64 := p.escr.map EscrContext.aesKeyBase64
  escrSigningKeyUri := p.escr.map EscrContext.signingKeyUri
  escrSigningKey := key
  sessionAesKeyC2d := if p.encryptRvdTraffic then p.c2d.map SessionKey.key else none
  sessionAesIvC2d := if p.encryptRvdTraffic then p.c2d.map SessionKey.iv else none
  sessionAesKeyD2c := if p.encryptRvdTraffic then p.d2c.map SessionKey.key else none
  sessionAesIvD2c := if p.encryptRvdTraffic then p.d2c.map SessionKey.iv else none
  readyFd := if p.readyFd then 3 else -1

/-! ### The command line -/

/-- What the options have stored once the command line is read. -/
def argsValues (p : SrvProcess) (v : Values Key) : Values Key where
  params := { v.params with
    host := p.srvdHost
    localHost := p.localHost
    timeout := p.timeout
    multi := p.multi || v.params.multi
    rvE2ee := p.encryptRvdTraffic || v.params.rvE2ee
    rvAuth := (p.authenticateToRvd && p.escr.isNone) || v.params.rvAuth }
  relayAuthMode := if p.escr.isSome then some "escr" else v.relayAuthMode
  port := p.srvdPort
  localPort := p.localPort

/-- Every argument is an option of its own or the value of the one before it, whatever the hosts
look like. -/
theorem reads_srvArgs {p : SrvProcess} (h : Callable p) :
    Reads (options Key) (p.srvArgs.map String.toList) (argsValues p) := by
  obtain ⟨host, hhost⟩ := Option.isSome_iff_exists.mp h.host
  have hlocal : p.localPort < 2147483648 := by
    have hport := h.requestedPort
    unfold SrvProcess.localPort
    split <;> omega
  have htimeout : p.timeout < 2147483648 := by
    have hsecs := h.timeoutSeconds
    unfold SrvProcess.timeout srvDefaultTimeoutSeconds
    split <;> omega
  have hh : Reads (options Key) [['-', 'h'], host.toList] _ :=
    Reads.shortString (by decide) rfl rfl _
  have hp : Reads (options Key) [['-', 'p'], (toString p.srvdPort).toList] _ :=
    Reads.shortInteger (by decide) rfl rfl (readsInt_toString (by have := h.port.2; omega))
  have hlp : Reads (options Key) [['-', '-', 'l', 'o', 'c', 'a', 'l', '-', 'p', 'o', 'r', 't'],
      (toString p.localPort).toList] _ :=
    Reads.integer ⟨by decide, rfl⟩ rfl (readsInt_toString hlocal)
  have hlh : Reads (options Key) [['-', '-', 'l', 'o', 'c', 'a', 'l', '-', 'h', 'o', 's', 't'],
      p.localHost.toList] _ :=
    Reads.string ⟨by decide, rfl⟩ rfl _
  have ht : Reads (options Key) [['-', '-', 't', 'i', 'm', 'e', 'o', 'u', 't'],
      (toString p.timeout).toList] _ :=
    Reads.integer ⟨by decide, rfl⟩ rfl (readsInt_toString htimeout)
  have hm : Reads (options Key) [['-', '-', 'm', 'u', 'l', 't', 'i']] _ :=
    Reads.boolean ⟨by decide, rfl⟩ rfl
  have he : Reads (options Key) [['-', '-', 'r', 'v', '-', 'e', '2', 'e', 'e']] _ :=
    Reads.boolean ⟨by decide, rfl⟩ rfl
  have hmode : Reads (options Key) [['-', '-', 'r', 'e', 'l', 'a', 'y', '-', 'a', 'u', 't', 'h', '-',
      'm', 'o', 'd', 'e'], "escr".toList] _ :=
    Reads.string ⟨by decide, rfl⟩ rfl _
  have ha : Reads (options Key) [['-', '-', 'r', 'v', '-', 'a', 'u', 't', 'h']] _ :=
    Reads.boolean ⟨by decide, rfl⟩ rfl
  have hnil := Reads.nil (options Key)
  have hall := ((((hh.append hp).append hlp).append hlh).append ht).append
    ((Reads.ite (p.multi = true) hm hnil).append ((Reads.ite (p.encryptRvdTraffic = true) he hnil).append
      (Reads.ite (p.escr.isSome = true) hmode (Reads.ite (p.authenticateToRvd = true) ha hnil))))
  refine hall.congr ?_ ?_
  · rw [SrvProcess.srvArgs, hhost, List.map_append, List.map_append, List.map_append,
      apply_ite (List.map String.toList), apply_ite (List.map String.toList),
      apply_ite (List.map String.toList), apply_ite (List.map String.toList)]
    simp only [List.map_cons, List.map_nil, List.append_assoc]
    rfl
  · funext v
    rw [argsValues, hhost]
    cases p.multi <;> cases p.encryptRvdTraffic <;> cases p.escr <;> cases p.authenticateToRvd <;>
      simp [String.ofList_toList]

/-! ### The environment -/

/-- What the auth of a call sets. -/
def authEnv (p : SrvProcess) : List (String × String) :=
  match p.escr, p.rvdAuthString with
  | some escr, _ => [("REMOTE_AUTH_ESCR_SESSION_ID", escr.sessionId),
      ("REMOTE_AUTH_ESCR_AES_KEY", escr.aesKeyBase64),
      ("REMOTE_AUTH_ESCR_PUB_KEY_URI", escr.signingKeyUri),
      ("REMOTE_AUTH_ESCR_SIGNING_PRIVKEY", escr.signingKeyBase64),
      ("REMOTE_AUTH_ESCR_IS_SIDE_A", "false")]
  | none, some auth => if p.authenticateToRvd then [("RV_AUTH", auth)] else []
  | none, none => []

/-- What a session key sets, under the names of its direction. -/
def keyEnv (keyName ivName : String) (key : Option SessionKey) : List (String × String) :=
  (key.map fun k => [(keyName, k.key), (ivName, k.iv)]).getD []

theorem processEnv_eq (p : SrvProcess) (inherited : String → Option String) (name : String) :
    processEnv p inherited name = ((authEnv p).lookup name).or
      (((if p.encryptRvdTraffic then keyEnv "RV_AES_C2D" "RV_IV_C2D" p.c2d ++
          keyEnv "RV_AES_D2C" "RV_IV_D2C" p.d2c else []).lookup name).or
        (((if p.readyFd then [("SRV_READY_FD", "3")] else []).lookup name).or (inherited name))) := by
  have henv : p.environment = authEnv p ++
      (if p.encryptRvdTraffic then keyEnv "RV_AES_C2D" "RV_IV_C2D" p.c2d ++
        keyEnv "RV_AES_D2C" "RV_IV_D2C" p.d2c else []) ++
        if p.readyFd then [("SRV_READY_FD", "3")] else [] := rfl
  rw [processEnv, henv, List.lookup_append, List.lookup_append, Option.or_assoc, Option.or_assoc]

/-- A name that the auth does not set is looked for behind it. -/
theorem lookup_authEnv {p : SrvProcess} {name : String}
    (h : name ∈ ["RV_AES_C2D", "RV_IV_C2D", "RV_AES_D2C", "RV_IV_D2C", "SRV_READY_FD"]) :
    (authEnv p).lookup name = none := by
  have hne : ∀ set ∈ ["REMOTE_AUTH_ESCR_SESSION_ID", "REMOTE_AUTH_ESCR_AES_KEY",
      "REMOTE_AUTH_ESCR_PUB_KEY_URI", "REMOTE_AUTH_ESCR_SIGNING_PRIVKEY",
      "REMOTE_AUTH_ESCR_IS_SIDE_A", "RV_AUTH"], (name == set) = false := by
    revert name
    decide
  simp only [List.forall_mem_cons] at hne
  obtain ⟨h1, h2, h3, h4, h5, h6, -⟩ := hne
  unfold authEnv
  split
  · simp only [List.lookup_cons, List.lookup_nil, h1, h2, h3, h4, h5]
  · split
    · simp only [List.lookup_cons, List.lookup_nil, h6]
    · rfl
  · rfl

/-- The escr part of the worker's parameters is the call's. -/
theorem escrParams_call {p : SrvProcess} {escr : EscrContext} (h : p.escr = some escr)
    (populatePrivateKey : String → Option Key) (inherited : String → Option String)
    {params : SrvParams Key} (hauth : params.rvAuth = false) :
    escrParams populatePrivateKey (processEnv p inherited) params =
      match populatePrivateKey escr.signingKeyBase64 with
      | none => .error (.refused "Failed to parse REMOTE_AUTH_ESCR_SIGNING_PRIVKEY")
      | some key => .ok { params with
          escrSessionId := some escr.sessionId
          escrAesKeyBase64 := some escr.aesKeyBase64
          escrSigningKeyUri := some escr.signingKeyUri
          escrIsSideA := false
          escrSigningKey := some key
          escrAuth := true } := by
  have hget : ∀ name value, (name, value) ∈ [("REMOTE_AUTH_ESCR_SESSION_ID", escr.sessionId),
      ("REMOTE_AUTH_ESCR_AES_KEY", escr.aesKeyBase64),
      ("REMOTE_AUTH_ESCR_PUB_KEY_URI", escr.signingKeyUri),
      ("REMOTE_AUTH_ESCR_SIGNING_PRIVKEY", escr.signingKeyBase64),
      ("REMOTE_AUTH_ESCR_IS_SIDE_A", "false")] →
      processEnv p inherited name = some value := by
    intro name value hmem
    have hset : (authEnv p).lookup name = some value := by
      rw [authEnv, h]
      simp only [List.mem_cons, Prod.mk.injEq, List.not_mem_nil, or_false] at hmem
      obtain ⟨rfl, rfl⟩ | ⟨rfl, rfl⟩ | ⟨rfl, rfl⟩ | ⟨rfl, rfl⟩ | ⟨rfl, rfl⟩ := hmem <;> rfl
    rw [processEnv_eq, hset, Option.some_or]
  have hsession := hget "REMOTE_AUTH_ESCR_SESSION_ID" escr.sessionId (by simp)
  have haes := hget "REMOTE_AUTH_ESCR_AES_KEY" escr.aesKeyBase64 (by simp)
  have huri := hget "REMOTE_AUTH_ESCR_PUB_KEY_URI" escr.signingKeyUri (by simp)
  have hpriv := hget "REMOTE_AUTH_ESCR_SIGNING_PRIVKEY" escr.signingKeyBase64 (by simp)
  have hside := hget "REMOTE_AUTH_ESCR_IS_SIDE_A" "false" (by simp)
  simp only [escrParams, hauth, hsession, haes, huri, hpriv, hside]
  rfl

/-- The keys of the traffic are the call's, in either direction. -/
theorem rvE2eeParams_call {p : SrvProcess} (h : Callable p) {inherited : String → Option String}
    (hinherited : ∀ name ∈ inheritedNames, inherited name = none) {params : SrvParams Key}
    (hparams : params.rvE2ee = p.encryptRvdTraffic) (hc2d : params.sessionAesKeyC2d = none)
    (hiv : params.sessionAesIvC2d = none) (hd2c : params.sessionAesKeyD2c = none)
    (hivD2c : params.sessionAesIvD2c = none) :
    rvE2eeParams none (processEnv p inherited) params = .ok { params with
      sessionAesKeyC2d := if p.encryptRvdTraffic then p.c2d.map SessionKey.key else none
      sessionAesIvC2d := if p.encryptRvdTraffic then p.c2d.map SessionKey.iv else none
      sessionAesKeyD2c := if p.encryptRvdTraffic then p.d2c.map SessionKey.key else none
      sessionAesIvD2c := if p.encryptRvdTraffic then p.d2c.map SessionKey.iv else none } := by
  cases henc : p.encryptRvdTraffic with
  | false =>
    rw [henc] at hparams
    cases params
    cases hparams
    cases hc2d
    cases hiv
    cases hd2c
    cases hivD2c
    rfl
  | true =>
    obtain ⟨k, hk⟩ := Option.isSome_iff_exists.mp (h.keys henc)
    have hget : ∀ name ∈ ["RV_AES_C2D", "RV_IV_C2D", "RV_AES_D2C", "RV_IV_D2C"],
        processEnv p inherited name = ((keyEnv "RV_AES_C2D" "RV_IV_C2D" p.c2d ++
          keyEnv "RV_AES_D2C" "RV_IV_D2C" p.d2c).lookup name).or
            (((if p.readyFd then [("SRV_READY_FD", "3")] else []).lookup name).or
              (inherited name)) := by
      intro name hname
      have hauth : (authEnv p).lookup name = none := by
        apply lookup_authEnv
        revert name
        decide
      rw [processEnv_eq, hauth, Option.none_or, henc, if_pos rfl]
    -- the second pair of names holds the call's own key, or nothing at all
    have hd2cGet : processEnv p inherited "RV_AES_D2C" = p.d2c.map SessionKey.key ∧
        processEnv p inherited "RV_IV_D2C" = p.d2c.map SessionKey.iv := by
      have h1 := hinherited "RV_AES_D2C" (by decide)
      have h2 := hinherited "RV_IV_D2C" (by decide)
      rw [hget _ (by decide), hget _ (by decide), h1, h2, hk]
      cases p.d2c <;> cases p.readyFd <;> exact ⟨rfl, rfl⟩
    have hc2dGet : processEnv p inherited "RV_AES_C2D" = some k.key ∧
        processEnv p inherited "RV_IV_C2D" = some k.iv := by
      rw [hget _ (by decide), hget _ (by decide), hk]
      exact ⟨rfl, rfl⟩
    rw [rvE2eeParams, hparams, henc, hc2dGet.1, hc2dGet.2, hd2cGet.1, hd2cGet.2, hk]
    cases p.d2c <;> simp

theorem rvAuthParams_call {p : SrvProcess} (h : Callable p) (inherited : String → Option String)
    {params : SrvParams Key} (hparams : params.rvAuth = (p.authenticateToRvd && p.escr.isNone))
    (hnone : params.rvdAuthString = none) :
    rvAuthParams none (processEnv p inherited) params = .ok { params with
      rvdAuthString := if p.authenticateToRvd && p.escr.isNone then p.rvdAuthString else none } := by
  cases hauth : p.authenticateToRvd && p.escr.isNone with
  | false =>
    rw [hauth] at hparams
    cases params
    cases hparams
    cases hnone
    rfl
  | true =>
    rw [Bool.and_eq_true, Option.isNone_iff_eq_none] at hauth
    obtain ⟨auth, hstring⟩ := Option.isSome_iff_exists.mp (h.auth hauth.1 hauth.2)
    have hget : processEnv p inherited "RV_AUTH" = some auth := by
      have hset : (authEnv p).lookup "RV_AUTH" = some auth := by
        rw [authEnv, hauth.2, hstring, hauth.1]
        rfl
      rw [processEnv_eq, hset, Option.some_or]
    rw [rvAuthParams, hparams, hauth.1, hauth.2, hget, hstring]
    simp

theorem readyFd_call {p : SrvProcess} {inherited : String → Option String}
    (hinherited : ∀ name ∈ inheritedNames, inherited name = none) :
    processEnv p inherited "SRV_READY_FD" = if p.readyFd then some "3" else none := by
  have hauth : (authEnv p).lookup "SRV_READY_FD" = none := lookup_authEnv (by decide)
  have hkeys : (if p.encryptRvdTraffic then keyEnv "RV_AES_C2D" "RV_IV_C2D" p.c2d ++
      keyEnv "RV_AES_D2C" "RV_IV_D2C" p.d2c else []).lookup "SRV_READY_FD" = none := by
    cases p.encryptRvdTraffic <;> cases p.c2d <;> cases p.d2c <;> rfl
  rw [processEnv_eq, hauth, hkeys, hinherited _ (by decide)]
  cases p.readyFd <;> rfl

/-! ### The worker -/

/-- What the worker is to make of a call: its parameters, unless the signing key is none. -/
def callResult (populatePrivateKey : String → Option Key) (p : SrvProcess) :
    Except Stop (SrvParams Key) :=
  match p.escr with
  | none => .ok (callParams p none)
  | some escr =>
    match populatePrivateKey escr.signingKeyBase64 with
    | none => .error (.refused "Failed to parse REMOTE_AUTH_ESCR_SIGNING_PRIVKEY")
    | some key => .ok (callParams p (some key))

theorem parseSrvParams_call {p : SrvProcess} (h : Callable p) {inherited : String → Option String}
    (hinherited : ∀ name ∈ inheritedNames, inherited name = none)
    (populatePrivateKey : String → Option Key) :
    parseSrvParams populatePrivateKey defaultValues (p.srvArgs.map String.toList) none
        (processEnv p inherited) =
      (fun params => { params with readyFd := -1 }) <$> callResult populatePrivateKey p := by
  have hports : ¬((p.srvdPort : ℤ) < 0 ∨ 65535 < (p.srvdPort : ℤ) ∨ (p.localPort : ℤ) < 1 ∨
      65535 < (p.localPort : ℤ)) := by
    have hport := h.port
    have hrequested := h.requestedPort
    have hlocal : 1 ≤ p.localPort ∧ p.localPort ≤ 65535 := by
      unfold SrvProcess.localPort
      split <;> omega
    omega
  have hhost : p.srvdHost ≠ none := Option.isSome_iff_ne_none.mp h.host
  have hport : p.srvdPort ≠ 0 := by
    have hport := h.port
    omega
  have hdefault : ∀ b : Bool, (b || false) = b := Bool.or_false
  have hreads : Reads (options Key) (p.srvArgs.map String.toList) (argsValues p) := reads_srvArgs h
  simp only [parseSrvParams, hreads.argparseParse, argsValues, defaultValues,
    hports, if_false, Int.toNat_natCast, hhost, hport, hdefault]
  cases hescr : p.escr with
  | none =>
    simp only [Option.isSome_none, Bool.false_eq_true, if_false, ok_bind]
    rw [rvAuthParams_call h inherited (by rw [hescr]) rfl, ok_bind,
      rvE2eeParams_call h hinherited rfl rfl rfl rfl rfl, callResult, hescr]
    simp only [callParams, hescr]
    rfl
  | some escr =>
    simp only [Option.isSome_some, if_true]
    rw [escrParams_call hescr populatePrivateKey inherited (by simp), callResult, hescr]
    dsimp only
    cases populatePrivateKey escr.signingKeyBase64 with
    | none => rfl
    | some key =>
      simp only [ok_bind]
      rw [rvAuthParams_call h inherited (by rw [hescr]) rfl, ok_bind,
        rvE2eeParams_call h hinherited rfl rfl rfl rfl rfl]
      simp only [callParams, hescr]
      rfl

/-- The worker runs with the parameters of the call, whatever the strings in them look like. -/
theorem workerMain_call {p : SrvProcess} (h : Callable p) {inherited : String → Option String}
    (hinherited : ∀ name ∈ inheritedNames, inherited name = none)
    (populatePrivateKey : String → Option Key) (exePath : List Char) :
    workerMain populatePrivateKey (execArgv exePath p) (processEnv p inherited) =
      some (callResult populatePrivateKey p) := by
  have hready := readyFd_call (p := p) hinherited
  have hparse := parseSrvParams_call h hinherited populatePrivateKey
  have hatoi : atoi "3".toList = 3 := by decide
  change (if srvWorkerFlag = srvWorkerFlag then some _ else none) = _
  rw [if_pos rfl, hparse, hready]
  cases hresult : callResult populatePrivateKey p with
  | error stop => rfl
  | ok params =>
    have hfd : params.readyFd = if p.readyFd then 3 else -1 := by
      unfold callResult at hresult
      split at hresult
      · cases hresult
        rfl
      · split at hresult
        · cases hresult
        · cases hresult
          rfl
    cases hpipe : p.readyFd with
    | false =>
      rw [hpipe, if_neg (by decide)] at hfd
      simp only [Functor.map, Except.map, ok_bind, ← hfd]
      rfl
    | true =>
      rw [hpipe, if_pos rfl] at hfd
      simp only [Functor.map, Except.map, ok_bind, if_true, hatoi, ← hfd]
      rfl

/-! ### The worker of a request -/

theorem portValue_le (port : Option Json) : portValue port ≤ 65535 := by
  unfold portValue
  split <;> omega

theorem portValue_of_valid {port : Option Json} (h : isValidPort port = true) :
    1 ≤ portValue port ∧ portValue port ≤ 65535 := by
  refine ⟨?_, portValue_le port⟩
  unfold isValidPort at h
  split at h
  · simp only [Bool.and_eq_true, decide_eq_true_eq, beq_iff_eq] at h
    obtain ⟨⟨hone, -⟩, hvalue⟩ := h
    rw [hvalue] at hone
    exact_mod_cast hone
  · cases h

theorem nptTimeoutSeconds_bounds (payload : Option Json) :
    1 ≤ nptTimeoutSeconds payload ∧ nptTimeoutSeconds payload ≤ srvMaxTimeoutSeconds := by
  have hdefault : 1 ≤ srvDefaultTimeoutSeconds ∧ srvDefaultTimeoutSeconds ≤ srvMaxTimeoutSeconds := by
    decide
  unfold nptTimeoutSeconds
  split
  · rename_i ms hms
    split
    · refine ⟨le_max_left _ _, max_le (by decide) ?_⟩
      -- the cap is a whole number of seconds, so rounding up does not pass it
      have hle : (min ms (srvMaxTimeoutSeconds * 1000) + 999) / 1000 < (srvMaxTimeoutSeconds : ℚ) + 1 := by
        have hmin : min ms ((srvMaxTimeoutSeconds : ℚ) * 1000) ≤ srvMaxTimeoutSeconds * 1000 :=
          min_le_right _ _
        linarith
      have hfloor : ((min ms (srvMaxTimeoutSeconds * 1000) + 999) / 1000).floor <
          (srvMaxTimeoutSeconds : ℤ) + 1 := by
        apply Rat.floor_lt_iff.mpr
        exact_mod_cast hle
      omega
    · exact hdefault
  · exact hdefault

/-- What every kind of request that the daemon handles keeps to. -/
structure Handled (kind : RequestKind) (params : SshnpdParams) : Prop where
  requested : ∀ payload, verifyPayloadContents payload kind.payloadType = true →
    1 ≤ (kind.requested params payload).2 ∧ (kind.requested params payload).2 ≤ 65535
  relay : ∀ payload, verifyPayloadContents payload kind.payloadType = true →
    (getStringValue (getObjectItem payload kind.rvdHost)).isSome ∧
      1 ≤ portValue (getObjectItem payload kind.rvdPort)
  timeout : ∀ payload, 1 ≤ kind.timeoutSeconds payload ∧
    kind.timeoutSeconds payload ≤ srvMaxTimeoutSeconds

theorem handled_npt (params : SshnpdParams) : Handled nptRequest params where
  requested payload h := by
    simp only [verifyPayloadContents, nptRequest, Bool.and_eq_true] at h
    exact portValue_of_valid h.2
  relay payload h := by
    simp only [verifyPayloadContents, nptRequest, Bool.and_eq_true] at h
    exact ⟨h.1.1.1.2, (portValue_of_valid h.1.1.2).1⟩
  timeout := nptTimeoutSeconds_bounds

theorem handled_ssh {params : SshnpdParams}
    (hsshd : 1 ≤ params.localSshdPort ∧ params.localSshdPort ≤ 65535) :
    Handled sshRequest params where
  requested _ _ := hsshd
  relay payload h := by
    simp only [verifyPayloadContents, sshRequest, Bool.and_eq_true] at h
    exact ⟨h.1.2, (portValue_of_valid h.2).1⟩
  timeout _ := (by decide : 1 ≤ srvDefaultTimeoutSeconds ∧ srvDefaultTimeoutSeconds ≤ srvMaxTimeoutSeconds)

/-- The AES key and the session of the ESCR exchange that a request asks for. -/
def escrAsked (payload : Option Json) : Option (String × String) :=
  if getStringValue (getObjectItem payload "relayAuthMode") = some "escr" then do
    let aesKey ← getStringValue (getObjectItem payload "relayAuthAesKey")
    let sessionId ← getStringValue (getObjectItem payload "sessionId")
    return (aesKey, sessionId)
  else none

/-- How a worker is to authenticate to the relay, `key` being the daemon's own, parsed. -/
structure Authenticates (lib : DaemonLibraries) (params : SshnpdParams) (payload : Option Json)
    (key : Key) (srv : SrvParams Key) : Prop where
  asked : (srv.rvAuth || srv.escrAuth) = isTrue (getObjectItem payload "authenticateToRvd")
  /-- With the string over the request's nonces, unless the request asks for ESCR. -/
  string : isTrue (getObjectItem payload "authenticateToRvd") = true → escrAsked payload = none →
    srv.rvAuth = true ∧ srv.escrAuth = false ∧
      ∃ auth, lib.createRvdAuthString payload = some auth ∧ srv.rvdAuthString = some auth
  /-- As side B of the request's session, with the request's AES key and the daemon's own record
  and key. -/
  escr : isTrue (getObjectItem payload "authenticateToRvd") = true →
    ∀ aesKey sessionId, escrAsked payload = some (aesKey, sessionId) →
      srv.rvAuth = false ∧ srv.escrAuth = true ∧ srv.escrIsSideA = false ∧
        srv.escrSessionId = some sessionId ∧ srv.escrAesKeyBase64 = some aesKey ∧
        srv.escrSigningKeyUri = some (lib.publicSigningKeyUri params) ∧
        srv.escrSigningKey = some key

/-- What a worker is to do for a request: connect the request's relay to the request's target, as both
permit-open lists allow, authenticating and encrypting as the request says. -/
structure Serves (lib : DaemonLibraries) (kind : RequestKind) (params : SshnpdParams)
    (payload : Option Json) (policy : Option PolicyDecision) (start : SrvStart) (key : Key)
    (srv : SrvParams Key) : Prop where
  relay : srv.host = getStringValue (getObjectItem payload kind.rvdHost) ∧
    srv.port = portValue (getObjectItem payload kind.rvdPort)
  target : (srv.localHost, srv.localPort) = kind.requested params payload
  permitopen : shouldPermitopen params.permitopen srv.localHost srv.localPort = true
  policy : policy.all (policyPermitsOpen · srv.localHost srv.localPort) = true
  auth : Authenticates lib params payload key srv
  e2ee : srv.rvE2ee = isTrue (getObjectItem payload "encryptRvdTraffic")
  /-- The keys are the ones the client is sent. -/
  keys : srv.sessionAesKeyC2d = start.process.c2d.map SessionKey.key ∧
    srv.sessionAesIvC2d = start.process.c2d.map SessionKey.iv ∧
    srv.sessionAesKeyD2c = start.process.d2c.map SessionKey.key ∧
    srv.sessionAesIvD2c = start.process.d2c.map SessionKey.iv
  multi : srv.multi = kind.multi
  timeout : srv.timeout = kind.timeoutSeconds payload

section
variable {lib : DaemonLibraries} {kind : RequestKind} {params : SshnpdParams}
  {sessions : ClientSessions} {answers : Answers} {pipe : Bool} {n : AtNotification}
  {policy : Option PolicyDecision} {start : SrvStart}

/-- The daemon's decision about the relay is the request's: no auth, ESCR, or a string. -/
theorem relayAuth_cases {payload : Option Json} {auth : Option EscrContext × Option String}
    (h : lib.relayAuth params payload = .ok auth) :
    (isTrue (getObjectItem payload "authenticateToRvd") = false ∧ auth = (none, none)) ∨
      isTrue (getObjectItem payload "authenticateToRvd") = true ∧
        ((∃ aesKey sessionId, escrAsked payload = some (aesKey, sessionId) ∧ auth = (some
            ⟨sessionId, aesKey, lib.publicSigningKeyUri params, lib.pkamPrivateKeyBase64⟩, none)) ∨
          escrAsked payload = none ∧
            ∃ string, lib.createRvdAuthString payload = some string ∧ auth = (none, some string)) := by
  unfold DaemonLibraries.relayAuth at h
  split at h
  · rename_i htrue
    refine .inr ⟨htrue, ?_⟩
    split at h
    · rename_i aesKey sessionId hmode haes hid
      obtain rfl := Except.ok.inj h
      refine .inl ⟨aesKey, sessionId, ?_, rfl⟩
      rw [escrAsked, if_pos hmode, haes, hid]
      rfl
    · rename_i hother
      have hnone : escrAsked payload = none := by
        unfold escrAsked
        split
        · rename_i hmode
          cases haes : getStringValue (getObjectItem payload "relayAuthAesKey") with
          | none => rfl
          | some aesKey =>
            cases hid : getStringValue (getObjectItem payload "sessionId") with
            | none => rfl
            | some sessionId => exact absurd hid (hother aesKey sessionId hmode haes)
        · rfl
      split at h
      · rename_i string hstring
        obtain rfl := Except.ok.inj h
        exact .inr ⟨hnone, string, hstring, rfl⟩
      · cases h
  · rename_i hfalse
    exact .inl ⟨Bool.eq_false_iff.mpr hfalse, (Except.ok.inj h).symm⟩

theorem sessionKeys_some {payload : Option Json} {keys : Option SessionKey × Option SessionKey}
    (h : lib.sessionKeys answers payload = .ok keys) :
    (isTrue (getObjectItem payload "encryptRvdTraffic") = true → keys.1.isSome) ∧
      (isTrue (getObjectItem payload "encryptRvdTraffic") = false → keys = (none, none)) := by
  unfold DaemonLibraries.sessionKeys at h
  cases henc : isTrue (getObjectItem payload "encryptRvdTraffic") with
  | false =>
    rw [henc, if_neg Bool.false_ne_true] at h
    cases h
    exact ⟨fun htrue => absurd htrue Bool.false_ne_true, fun _ => rfl⟩
  | true =>
    refine ⟨fun _ => ?_, fun hfalse => absurd hfalse.symm Bool.false_ne_true⟩
    rw [henc, if_pos rfl] at h
    split at h
    · cases h
    · split at h
      · split at h
        · cases h
        · cases h
          rfl
      · cases h
        rfl

/-- What a request that is not refused has passed, and the process that it leads to. -/
theorem handleRequest_process (h : lib.handleRequest kind params sessions answers pipe n policy = .ok start) :
    ∃ requestingAtsign envelope auth keys,
      lib.extractEnvelopeFromNotification n = some (requestingAtsign, envelope) ∧
      verifyEnvelopeContents envelope kind.payloadType = true ∧
      shouldPermitopen params.permitopen (kind.requested params (getObjectItem envelope "payload")).1
        (kind.requested params (getObjectItem envelope "payload")).2 = true ∧
      policy.all (policyPermitsOpen · (kind.requested params (getObjectItem envelope "payload")).1
        (kind.requested params (getObjectItem envelope "payload")).2) = true ∧
      lib.relayAuth params (getObjectItem envelope "payload") = .ok auth ∧
      lib.sessionKeys answers (getObjectItem envelope "payload") = .ok keys ∧
      start.sessionId =
        (getStringValue (getObjectItem (getObjectItem envelope "payload") "sessionId")).getD "" ∧
      start.process = {
        srvdHost := getStringValue (getObjectItem (getObjectItem envelope "payload") kind.rvdHost)
        srvdPort := portValue (getObjectItem (getObjectItem envelope "payload") kind.rvdPort)
        requestedHost := some (kind.requested params (getObjectItem envelope "payload")).1
        requestedPort := (kind.requested params (getObjectItem envelope "payload")).2
        authenticateToRvd :=
          isTrue (getObjectItem (getObjectItem envelope "payload") "authenticateToRvd")
        rvdAuthString := auth.2
        escr := auth.1
        encryptRvdTraffic :=
          isTrue (getObjectItem (getObjectItem envelope "payload") "encryptRvdTraffic")
        multi := kind.multi
        timeoutSeconds := kind.timeoutSeconds (getObjectItem envelope "payload")
        c2d := keys.1
        d2c := keys.2
        readyFd := pipe } := by
  unfold DaemonLibraries.handleRequest at h
  split at h
  · cases h
  · rename_i requestingAtsign envelope hextract
    split at h
    · cases h
    · split at h
      · cases h
      · rename_i hcontents
        obtain ⟨clientSigningKey, -, h⟩ := bind_eq_ok.mp h
        unfold DaemonLibraries.startSession at h
        dsimp only at h
        split at h
        · cases h
        · rename_i hpermit
          split at h
          · cases h
          · rename_i hpolicy
            obtain ⟨auth, hauth, h⟩ := bind_eq_ok.mp h
            obtain ⟨keys, hkeys, h⟩ := bind_eq_ok.mp h
            cases h
            exact ⟨requestingAtsign, envelope, auth, keys, hextract, not_not.mp hcontents,
              not_not.mp hpermit, not_not.mp hpolicy, hauth, hkeys, rfl, rfl⟩

/-- The worker of a request that is not refused runs with the parameters of the daemon's call. -/
theorem worker_of_request (hkind : kind = nptRequest ∨ kind = sshRequest)
    (hsshd : 1 ≤ params.localSshdPort ∧ params.localSshdPort ≤ 65535)
    (h : lib.handleRequest kind params sessions answers pipe n policy = .ok start)
    {populatePrivateKey : String → Option Key} {key : Key}
    (hkey : populatePrivateKey lib.pkamPrivateKeyBase64 = some key)
    {inherited : String → Option String} (hinherited : ∀ name ∈ inheritedNames, inherited name = none)
    (exePath : List Char) :
    1 ≤ start.process.requestedPort ∧ 1 ≤ start.process.timeoutSeconds ∧
      workerMain populatePrivateKey (execArgv exePath start.process) (processEnv start.process inherited) =
        some (.ok (callParams start.process (start.process.escr.map fun _ => key))) := by
  have hhandled : Handled kind params := by
    rcases hkind with rfl | rfl
    · exact handled_npt params
    · exact handled_ssh hsshd
  obtain ⟨requestingAtsign, envelope, auth, keys, -, hcontents, -, -, hauth, hkeys, -, hprocess⟩ :=
    handleRequest_process h
  have hpayload : verifyPayloadContents (getObjectItem envelope "payload") kind.payloadType = true := by
    simp only [verifyEnvelopeContents, Bool.and_eq_true] at hcontents
    exact hcontents.2
  obtain ⟨hrequested, hrequestedLe⟩ := hhandled.requested _ hpayload
  obtain ⟨hhost, hport⟩ := hhandled.relay _ hpayload
  obtain ⟨htimeout, htimeoutLe⟩ := hhandled.timeout (getObjectItem envelope "payload")
  have hmax : srvMaxTimeoutSeconds < 2147483648 := by decide
  have hstring : isTrue (getObjectItem (getObjectItem envelope "payload") "authenticateToRvd") = true →
      auth.1 = none → auth.2.isSome := by
    intro htrue hnone
    rcases relayAuth_cases hauth with ⟨hfalse, -⟩ | ⟨-, ⟨_, _, -, rfl⟩ | ⟨-, string, -, rfl⟩⟩
    · rw [hfalse] at htrue
      cases htrue
    · cases hnone
    · rfl
  have hcall : Callable start.process := by
    rw [hprocess]
    exact ⟨hhost, ⟨hport, portValue_le _⟩, hrequestedLe, htimeoutLe.trans_lt hmax, hstring,
      (sessionKeys_some hkeys).1⟩
  -- the key is the daemon's own, so it is the one that parses
  have hresult : callResult populatePrivateKey start.process =
      .ok (callParams start.process (start.process.escr.map fun _ => key)) := by
    have hescr : start.process.escr = auth.1 := by rw [hprocess]
    unfold callResult
    rw [hescr]
    rcases relayAuth_cases hauth with ⟨-, rfl⟩ | ⟨-, ⟨_, _, -, rfl⟩ | ⟨-, string, -, rfl⟩⟩
    · rfl
    · dsimp only
      rw [hkey]
      rfl
    · rfl
  refine ⟨by rw [hprocess]; exact hrequested, by rw [hprocess]; exact htimeout, ?_⟩
  rw [workerMain_call hcall hinherited, hresult]

/-- Without encryption there are no keys, so the worker has the session's whether they are used or not. -/
theorem callParams_keys (h : lib.handleRequest kind params sessions answers pipe n policy = .ok start)
    (key : Option Key) :
    (callParams start.process key).sessionAesKeyC2d = start.process.c2d.map SessionKey.key ∧
      (callParams start.process key).sessionAesIvC2d = start.process.c2d.map SessionKey.iv ∧
      (callParams start.process key).sessionAesKeyD2c = start.process.d2c.map SessionKey.key ∧
      (callParams start.process key).sessionAesIvD2c = start.process.d2c.map SessionKey.iv := by
  obtain ⟨_, envelope, _, keys, -, -, -, -, -, hkeys, -, hprocess⟩ := handleRequest_process h
  cases henc : start.process.encryptRvdTraffic with
  | true => simp only [callParams, henc, if_true, and_self]
  | false =>
    have hnone : keys = (none, none) := by
      rw [hprocess] at henc
      exact (sessionKeys_some hkeys).2 henc
    simp only [callParams, hprocess, hnone, Option.map_none, ite_self, and_self]

/-- The worker authenticates as the request says. -/
theorem callParams_authenticates {envelope : Json} {auth : Option EscrContext × Option String}
    (hauth : lib.relayAuth params (getObjectItem envelope "payload") = .ok auth) {p : SrvProcess} (key : Key)
    (hasked : p.authenticateToRvd =
      isTrue (getObjectItem (getObjectItem envelope "payload") "authenticateToRvd"))
    (hescr : p.escr = auth.1) (hstring : p.rvdAuthString = auth.2) :
    Authenticates lib params (getObjectItem envelope "payload") key
      (callParams p (p.escr.map fun _ => key)) := by
  rcases relayAuth_cases hauth with ⟨hfalse, rfl⟩ | ⟨htrue, ⟨aesKey, sessionId, hescrAsked, rfl⟩ |
    ⟨hescrAsked, string, hcreate, rfl⟩⟩
  · refine ⟨?_, fun htrue => ?_, fun htrue => ?_⟩
    · rw [callParams, hasked, hescr, hfalse]
      rfl
    · rw [hfalse] at htrue
      cases htrue
    · rw [hfalse] at htrue
      cases htrue
  · refine ⟨?_, fun _ hnone => ?_, fun _ aesKey' sessionId' hsome => ?_⟩
    · rw [callParams, hasked, hescr, htrue]
      rfl
    · rw [hescrAsked] at hnone
      cases hnone
    · rw [hescrAsked] at hsome
      obtain ⟨rfl, rfl⟩ := Prod.mk.inj (Option.some.inj hsome)
      rw [callParams, hasked, hescr, htrue]
      exact ⟨rfl, rfl, rfl, rfl, rfl, rfl, rfl⟩
  · refine ⟨?_, fun _ _ => ?_, fun _ aesKey' sessionId' hsome => ?_⟩
    · rw [callParams, hasked, hescr, htrue]
      rfl
    · rw [callParams, hasked, hescr, hstring, htrue]
      exact ⟨rfl, rfl, string, hcreate, rfl⟩
    · rw [hescrAsked] at hsome
      cases hsome

/-- Every request the daemon does not refuse starts a worker that serves it, whatever strings the
request is made of. -/
theorem worker_serves_request (hkind : kind = nptRequest ∨ kind = sshRequest)
    (hsshd : 1 ≤ params.localSshdPort ∧ params.localSshdPort ≤ 65535)
    (h : lib.handleRequest kind params sessions answers pipe n policy = .ok start)
    {populatePrivateKey : String → Option Key} {key : Key}
    (hkey : populatePrivateKey lib.pkamPrivateKeyBase64 = some key)
    {inherited : String → Option String} (hinherited : ∀ name ∈ inheritedNames, inherited name = none)
    (exePath : List Char) :
    ∃ requestingAtsign envelope srv,
      lib.extractEnvelopeFromNotification n = some (requestingAtsign, envelope) ∧
      workerMain populatePrivateKey (execArgv exePath start.process)
        (processEnv start.process inherited) = some (.ok srv) ∧
      Serves lib kind params (getObjectItem envelope "payload") policy start key srv := by
  obtain ⟨hrequested, htimeout, hworker⟩ := worker_of_request hkind hsshd h hkey hinherited exePath
  obtain ⟨requestingAtsign, envelope, auth, keys, hextract, -, hpermit, hpolicy, hauth, -, -, hprocess⟩ :=
    handleRequest_process h
  refine ⟨requestingAtsign, envelope, _, hextract, hworker, ?_⟩
  generalize hparams : start.process.escr.map (fun _ => key) = parsed
  have hlocal : (callParams start.process parsed).localPort =
      (kind.requested params (getObjectItem envelope "payload")).2 := by
    change start.process.localPort = _
    rw [SrvProcess.localPort, if_pos (Nat.one_le_iff_ne_zero.mp hrequested), hprocess]
  have hlocalHost : (callParams start.process parsed).localHost =
      (kind.requested params (getObjectItem envelope "payload")).1 := by
    change start.process.localHost = _
    rw [SrvProcess.localHost, hprocess]
    rfl
  refine ⟨?_, ?_, ?_, ?_, ?_, ?_, callParams_keys h parsed, ?_, ?_⟩
  · rw [callParams, hprocess]
    exact ⟨rfl, rfl⟩
  · rw [hlocal, hlocalHost]
  · rw [hlocal, hlocalHost, hpermit]
  · rw [hlocal, hlocalHost, hpolicy]
  · rw [← hparams]
    exact callParams_authenticates hauth key (by rw [hprocess]) (by rw [hprocess]) (by rw [hprocess])
  · rw [callParams, hprocess]
  · rw [callParams, hprocess]
  · have hpos : 0 < start.process.timeoutSeconds := htimeout
    change (start.process.timeout : ℤ) = _
    rw [SrvProcess.timeout, if_pos hpos, hprocess]

end

/-- A relay whose name looks like an option. -/
def optionPayload : Json := .obj [("sessionId", .str "00000000-0000-0000-0000-000000000001"),
  ("rvdHost", .str "--rv-auth"), ("rvdPort", .int 443), ("requestedHost", .str "localhost"),
  ("requestedPort", .int 22), ("authenticateToRvd", .bool true), ("relayAuthMode", .str "escr"),
  ("relayAuthAesKey", .str "key"), ("timeout", .int 1500)]

def optionEnvelope : Json := .obj [("payload", optionPayload), ("signature", .str "c2ln"),
  ("hashingAlgo", .str "sha256"), ("signingAlgo", .str "rsa2048")]

def optionLibraries : DaemonLibraries :=
  { sampleLibraries with
    parse := fun text => if text = "request" then some optionEnvelope else none
    pkamPrivateKeyBase64 := "private" }

def optionStart : SrvStart where
  requestingAtsign := "@alice"
  sessionId := "00000000-0000-0000-0000-000000000001"
  clientSigningKey := none
  process := {
    srvdHost := some "--rv-auth"
    srvdPort := 443
    requestedHost := some "localhost"
    requestedPort := 22
    authenticateToRvd := true
    rvdAuthString := none
    escr := some ⟨"00000000-0000-0000-0000-000000000001", "key", "public:_apsk.primary.a.__e@daemon",
      "private"⟩
    encryptRvdTraffic := false
    multi := true
    timeoutSeconds := 2
    c2d := none
    d2c := none
    readyFd := true }

theorem worker_serves_request_sample : ∃ requestingAtsign envelope srv,
    optionLibraries.extractEnvelopeFromNotification ⟨some "1", some "@alice", some "@daemon",
      some "@daemon:npt_request.device.sshnp@alice", some "request"⟩ =
        some (requestingAtsign, envelope) ∧
    workerMain (fun text => if text = "private" then some () else none)
      (execArgv "/usr/bin/sshnpd".toList optionStart.process)
      (processEnv optionStart.process fun _ => none) = some (.ok srv) ∧
    Serves optionLibraries nptRequest sampleParams (getObjectItem envelope "payload")
      (some ⟨true, ["localhost:*"]⟩) optionStart () srv := by
  have h : optionLibraries.handleRequest nptRequest sampleParams (.init 0) sampleOutcomes.answers true
      ⟨some "1", some "@alice", some "@daemon", some "@daemon:npt_request.device.sshnp@alice",
        some "request"⟩ (some ⟨true, ["localhost:*"]⟩) = .ok optionStart := by
    decide +kernel
  have hkey : (fun text => if text = "private" then some () else none)
      optionLibraries.pkamPrivateKeyBase64 = some () := rfl
  exact worker_serves_request (.inl rfl) (by decide) h hkey (fun _ _ => rfl) _

end NoPorts.CSrvParams
