import NoPorts.SshnpdAnswers

/-! The keys of a session: what a daemon answers a request with, and what its srv and its client then have. -/
namespace NoPorts.SessionKeys
open Lib SshnpdChannel SshnpdAnswers CSrvParams
open CDaemon hiding text

/-! ### send_success_payload -/

/-- `cJSON_AddStringToObject`, which adds nothing for a null pointer. -/
def addString (name : String) (s : Option String) : List (String × Json) :=
  (s.map fun s => (name, Json.str s)).toList

def finalResPayload (sessionId : String) (c2d d2c : Option SessionKey) : List (String × Json) :=
  [("status", .str "connected"), ("sessionId", .str sessionId)] ++
    if d2c.isSome then
      addString "aesKeyC2D" (c2d.map SessionKey.keyEncrypted) ++
        addString "ivC2D" (c2d.map SessionKey.ivEncrypted) ++
        addString "aesKeyD2C" (d2c.map SessionKey.keyEncrypted) ++
        addString "ivD2C" (d2c.map SessionKey.ivEncrypted)
    else
      addString "sessionAESKey" (c2d.map SessionKey.keyEncrypted) ++
        addString "sessionIV" (c2d.map SessionKey.ivEncrypted)

/-- The name of the record the client is notified with, and its value. -/
def sendSuccessPayload (lib : DaemonLibraries) (params : SshnpdParams) (payload : Option Json)
    (c2d d2c : Option SessionKey) : Option (String × String) := do
  let identifier ← getStringValue (getObjectItem payload "sessionId")
  let finalRes := finalResPayload identifier c2d d2c
  let signature ← lib.rsaSign (lib.printUnformatted (.obj finalRes))
  return (identifier ++ "." ++ params.device,
    lib.printUnformatted (envelopeOf finalRes (lib.base64Encode signature)))

/-! ### startNpt and startDirectSsh -/

structure AesKeyBundle where
  aesKey : String
  aesKeyEncrypted : String
  iv : String
  ivEncrypted : String
  deriving DecidableEq, Repr

/-- `signAndWrapAndJsonEncode` and `rsaEncryptString` as the daemon calls them; none is a throw. -/
structure SshnpdRuntime where
  rsaSignString : String → Option String
  rsaEncryptString : (plaintext publicKey : String) → Option String

/-- The key and the iv are fresh. -/
def genBundle (sshnpd : SshnpdRuntime) (encKeyType encPubKey aesKey iv : String) :
    Option AesKeyBundle :=
  if encKeyType = "rsa2048" then do
    let aesKeyEncrypted ← sshnpd.rsaEncryptString aesKey encPubKey
    let ivEncrypted ← sshnpd.rsaEncryptString iv encPubKey
    return ⟨aesKey, aesKeyEncrypted, iv, ivEncrypted⟩
  else none

/-- What a request says about the encryption of the traffic. -/
structure EncryptionRequest where
  sessionId : String
  encryptRvdTraffic : Bool
  twinKeys : Bool
  clientEphemeralPK : String
  clientEphemeralPKType : String

/-- The bundles of both directions, from the random values of each. -/
def sessionBundles (sshnpd : SshnpdRuntime) (req : EncryptionRequest) (c2d d2c : String × String) :
    Option (Option AesKeyBundle × Option AesKeyBundle) :=
  if req.encryptRvdTraffic then do
    let c2dBundle ← genBundle sshnpd req.clientEphemeralPKType req.clientEphemeralPK c2d.1 c2d.2
    if req.twinKeys then
      let d2cBundle ← genBundle sshnpd req.clientEphemeralPKType req.clientEphemeralPK d2c.1 d2c.2
      return (some c2dBundle, some d2cBundle)
    else return (some c2dBundle, none)
  else some (none, none)

/-- The payload of the response; only a direct ssh session has an ephemeral key. -/
def responsePayload (req : EncryptionRequest) (ephemeralPrivateKey : Option String)
    (c2d d2c : Option AesKeyBundle) (elc : Json) : List (String × Json) :=
  let aesKeyC2DName := if req.twinKeys then "aesKeyC2D" else "sessionAESKey"
  let ivC2DName := if req.twinKeys then "ivC2D" else "sessionIV"
  [("status", .str "connected"), ("sessionId", .str req.sessionId)] ++
    (ephemeralPrivateKey.map fun pem => ("ephemeralPrivateKey", Json.str pem)).toList ++
    [(aesKeyC2DName, .ofStr? (c2d.map AesKeyBundle.aesKeyEncrypted)),
      (ivC2DName, .ofStr? (c2d.map AesKeyBundle.ivEncrypted)),
      ("aesKeyD2C", .ofStr? (d2c.map AesKeyBundle.aesKeyEncrypted)),
      ("ivD2C", .ofStr? (d2c.map AesKeyBundle.ivEncrypted)), ("eventLoggingConfig", elc)]

/-! ### What the client reads -/

/-- A key and its iv, each encrypted, or neither. -/
structure Encrypted (rt : Runtime) (key iv : Option String) (keyEncrypted ivEncrypted : Json) : Prop where
  readable : Channel.readablePair rt keyEncrypted ivEncrypted = true
  pair : Channel.pairOf rt keyEncrypted ivEncrypted = (key, iv)

theorem Encrypted.none (rt : Runtime) : Encrypted rt none none .null .null := ⟨rfl, rfl⟩

theorem Encrypted.some {rt : Runtime} {key iv keyEncrypted ivEncrypted : String}
    (hkey : rt.rsaDecryptString keyEncrypted = some key)
    (hiv : rt.rsaDecryptString ivEncrypted = some iv) :
    Encrypted rt (some key) (some iv) (.str keyEncrypted) (.str ivEncrypted) where
  readable := by
    simp only [Channel.readablePair, text, hkey, hiv, Option.isSome_some, Bool.and_self]
  pair := by
    simp only [Channel.pairOf, text, hkey, hiv]

/-- The pairs a payload holds are the keys that the channel is left with. -/
theorem keysOf_eq {rt : Runtime} {payload : List (String × Json)} (ephemeral : Option String)
    (c2d d2c : Option String × Option String)
    (hephemeral : Json.field payload "ephemeralPrivateKey" = .ofStr? ephemeral)
    (hc2d : Encrypted rt c2d.1 c2d.2 (either payload "sessionAESKey" "aesKeyC2D")
      (either payload "sessionIV" "ivC2D"))
    (hd2c : Encrypted rt d2c.1 d2c.2 (Json.field payload "aesKeyD2C") (Json.field payload "ivD2C"))
    (hconfig : (Json.field payload "eventLoggingConfig").isNull = true ∨
      (rt.eventConfig (Json.field payload "eventLoggingConfig")).isSome = true) :
    Channel.readable rt payload = true ∧
      Channel.keysOf rt payload = ⟨ephemeral, c2d.1, c2d.2, d2c.1, d2c.2⟩ := by
  have htext : text (Json.field payload "ephemeralPrivateKey") = some ephemeral := by
    rw [hephemeral]
    cases ephemeral <;> rfl
  constructor
  · simp only [Channel.readable, htext, hc2d.readable, hd2c.readable, Option.isSome_some,
      Bool.and_self, Bool.true_and, Bool.or_eq_true]
    exact hconfig
  · simp only [Channel.keysOf, hc2d.pair, hd2c.pair, Channel.text_str? htext]

/-! ### The C daemon -/

theorem finalResPayload_keysOf {rt : Runtime} (sessionId : String) {c2d d2c : Option SessionKey}
    (htwin : d2c.isSome → c2d.isSome)
    (hdecrypt : ∀ k, c2d = some k ∨ d2c = some k → rt.rsaDecryptString k.keyEncrypted = some k.key ∧
      rt.rsaDecryptString k.ivEncrypted = some k.iv) :
    Channel.readable rt (finalResPayload sessionId c2d d2c) = true ∧
      Channel.keysOf rt (finalResPayload sessionId c2d d2c) =
        ⟨none, c2d.map SessionKey.key, c2d.map SessionKey.iv, d2c.map SessionKey.key,
          d2c.map SessionKey.iv⟩ := by
  have hsome : ∀ k, c2d = some k ∨ d2c = some k →
      Encrypted rt (some k.key) (some k.iv) (.str k.keyEncrypted) (.str k.ivEncrypted) :=
    fun k hk => .some (hdecrypt k hk).1 (hdecrypt k hk).2
  cases hc : c2d with
  | none =>
    cases hd : d2c with
    | none =>
      exact keysOf_eq none (none, none) (none, none) rfl (.none rt)
        (.none rt) (.inl rfl)
    | some d =>
      rw [hc, hd] at htwin
      exact absurd (htwin rfl) Bool.false_ne_true
  | some c =>
    have hcKeys := hsome c (.inl hc)
    cases hd : d2c with
    | none =>
      exact keysOf_eq none (some c.key, some c.iv) (none, none) rfl hcKeys
        (.none rt) (.inl rfl)
    | some d =>
      exact keysOf_eq none (some c.key, some c.iv) (some d.key, some d.iv) rfl hcKeys (hsome d (.inr hd)) (.inl rfl)

/-- What the C daemon and the client know of each other's keys: what the daemon signs verifies under `pk`,
what it encrypts for the client's ephemeral key is decrypted with it. -/
structure Paired (lib : DaemonLibraries) (rt : Runtime) (pk : String) (ephemeralPK : Option String) :
    Prop where
  verify : ∀ text signature, lib.rsaSign text = some signature →
    rt.rsaVerifyString text (lib.base64Encode signature) pk .sha256 = some true
  decrypt : ∀ publicKey text cipher, ephemeralPK.bind lib.populatePublicKey = some publicKey →
    lib.rsaEncrypt publicKey text = some cipher →
      rt.rsaDecryptString (lib.base64Encode cipher) = some text

/-- The client's JSON library reads the response as it was printed, and prints its payload the same. -/
structure SameJson (lib : DaemonLibraries) (rt : Runtime) (payload : List (String × Json)) : Prop where
  brace : ∀ signature, lib.rsaSign (lib.printUnformatted (.obj payload)) = some signature →
    (lib.printUnformatted (envelopeOf payload (lib.base64Encode signature))).toList.head? = some '\x7b'
  decode : ∀ signature, lib.rsaSign (lib.printUnformatted (.obj payload)) = some signature →
    rt.jsonDecode (lib.printUnformatted (envelopeOf payload (lib.base64Encode signature))) =
      some (envelopeOf payload (lib.base64Encode signature))
  encode : rt.jsonEncode (.obj payload) = lib.printUnformatted (.obj payload)

section
variable {lib : DaemonLibraries} {rt : Runtime} {pk : String} {payload : Option Json}

theorem setup_decrypts (hp : Paired lib rt pk (getStringValue (getObjectItem payload "clientEphemeralPK")))
    {random : Option (List UInt8) × Option (List UInt8)} {k : SessionKey}
    (h : lib.setupRvdSessionEncryption payload random = some k) :
    rt.rsaDecryptString k.keyEncrypted = some k.key ∧ rt.rsaDecryptString k.ivEncrypted = some k.iv := by
  obtain ⟨ephemeral, hephemeral, h⟩ := Option.bind_eq_some_iff.mp h
  obtain ⟨pkType, -, h⟩ := Option.bind_eq_some_iff.mp h
  obtain ⟨key, -, h⟩ := Option.bind_eq_some_iff.mp h
  obtain ⟨iv, -, h⟩ := Option.bind_eq_some_iff.mp h
  split at h
  · cases h
  · obtain ⟨publicKey, hpublic, h⟩ := Option.bind_eq_some_iff.mp h
    split at h
    · cases h
    · obtain ⟨keyEncrypted, hkey, h⟩ := Option.bind_eq_some_iff.mp h
      obtain ⟨ivEncrypted, hiv, h⟩ := Option.bind_eq_some_iff.mp h
      obtain rfl := Option.some.inj h
      have hfound : (getStringValue (getObjectItem payload "clientEphemeralPK")).bind
          lib.populatePublicKey = some publicKey := by
        rw [hephemeral, Option.bind_some, hpublic]
      exact ⟨hp.decrypt _ _ _ hfound hkey, hp.decrypt _ _ _ hfound hiv⟩

theorem sessionKeys_decrypt
    (hp : Paired lib rt pk (getStringValue (getObjectItem payload "clientEphemeralPK")))
    {answers : CDaemon.Answers} {keys : Option SessionKey × Option SessionKey}
    (h : lib.sessionKeys answers payload = .ok keys) :
    (keys.2.isSome → keys.1.isSome) ∧
      ∀ k, keys.1 = some k ∨ keys.2 = some k → rt.rsaDecryptString k.keyEncrypted = some k.key ∧
        rt.rsaDecryptString k.ivEncrypted = some k.iv := by
  unfold DaemonLibraries.sessionKeys at h
  split at h
  · split at h
    · cases h
    · rename_i c2d hc2d
      split at h
      · split at h
        · cases h
        · rename_i d2c hd2c
          cases h
          refine ⟨fun _ => rfl, ?_⟩
          intro k hk
          rcases hk with hk | hk
          · cases hk
            exact setup_decrypts hp hc2d
          · cases hk
            exact setup_decrypts hp hd2c
      · cases h
        refine ⟨fun _ => rfl, ?_⟩
        intro k hk
        rcases hk with hk | hk
        · cases hk
          exact setup_decrypts hp hc2d
        · cases hk
  · cases h
    refine ⟨fun hsome => absurd hsome Bool.false_ne_true, ?_⟩
    intro k hk
    rcases hk with hk | hk <;> cases hk

/-- The keys of a worker, as a client names them. -/
def workerKeys {Key : Type*} (srv : SrvParams Key) : Keys :=
  ⟨none, srv.sessionAesKeyC2d, srv.sessionAesIvC2d, srv.sessionAesKeyD2c, srv.sessionAesIvD2c⟩

/-- A client that is sent the answer of the C daemon ends up with the keys that the daemon's worker has,
whatever else it hears meanwhile. -/
theorem client_has_worker_keys {Key : Type*} {kind : RequestKind} {dparams : SshnpdParams}
    {sessions : ClientSessions} {answers : CDaemon.Answers} {pipe : Bool} {n : CDaemon.AtNotification}
    {policy : Option PolicyDecision} {start : SrvStart} {requestingAtsign name value : String}
    {envelope : Json} {params : Params} {populatePrivateKey : String → Option Key} {key : Key}
    {inherited : String → Option String} {exePath : List Char} {srv : SrvParams Key}
    (hkind : kind = nptRequest ∨ kind = sshRequest)
    (hsshd : 1 ≤ dparams.localSshdPort ∧ dparams.localSshdPort ≤ 65535)
    (h : lib.handleRequest kind dparams sessions answers pipe n policy = .ok start)
    (hextract : lib.extractEnvelopeFromNotification n = some (requestingAtsign, envelope))
    (hsent : sendSuccessPayload lib dparams (getObjectItem envelope "payload") start.process.c2d
      start.process.d2c = some (name, value))
    (hkey : populatePrivateKey lib.pkamPrivateKeyBase64 = some key)
    (hinherited : ∀ name ∈ inheritedNames, inherited name = none)
    (hsrv : workerMain populatePrivateKey (execArgv exePath start.process)
      (processEnv start.process inherited) = some (.ok srv))
    (hpaired : Paired lib rt pk
      (getStringValue (getObjectItem (getObjectItem envelope "payload") "clientEphemeralPK")))
    (hjson : SameJson lib rt (finalResPayload start.sessionId start.process.c2d start.process.d2c))
    (hsession : params.sessionId = start.sessionId) {es : List Event} {t : Channel}
    (hu : (Channel.machine rt params).Meets
      (fun _ e => Undisturbed rt params ⟨some value⟩ pk e) Channel.start es)
    (hr : (Channel.machine rt params).run Channel.start es = some t) :
    Heard rt params (workerKeys srv) t := by
  -- the worker's keys are the call's
  obtain ⟨-, -, hsrv'⟩ := worker_of_request hkind hsshd h hkey hinherited exePath
  obtain ⟨_, envelope'', auth, keys, hextract'', -, -, -, -, hkeys, hid, hprocess⟩ := handleRequest_process h
  obtain rfl := Except.ok.inj (Option.some.inj (hsrv'.symm.trans hsrv))
  obtain ⟨rfl, rfl⟩ := Prod.mk.inj (Option.some.inj (hextract''.symm.trans hextract))
  obtain ⟨htwin, hdecrypt⟩ := sessionKeys_decrypt hpaired hkeys
  have hc2d : start.process.c2d = keys.1 := by rw [hprocess]
  have hd2c : start.process.d2c = keys.2 := by rw [hprocess]
  obtain ⟨hkeyC2d, hivC2d, hkeyD2c, hivD2c⟩ :=
    callParams_keys h (start.process.escr.map fun _ => key)
  -- the answer is read as it was written
  obtain ⟨identifier, hidentifier, hsent⟩ := Option.bind_eq_some_iff.mp hsent
  obtain ⟨signature, hsign, hsent⟩ := Option.bind_eq_some_iff.mp hsent
  obtain ⟨-, rfl⟩ := Prod.mk.inj (Option.some.inj hsent)
  rw [hidentifier, Option.getD_some] at hid
  subst hid
  rw [← hc2d, ← hd2c] at htwin hdecrypt
  obtain ⟨hread, hkeysOf⟩ := finalResPayload_keysOf start.sessionId htwin hdecrypt
  have hid' : Json.field (finalResPayload start.sessionId start.process.c2d start.process.d2c)
      "sessionId" = .str params.sessionId := by
    rw [hsession]
    rfl
  have hverify : rt.rsaVerifyString (rt.jsonEncode (.obj (finalResPayload start.sessionId
      start.process.c2d start.process.d2c))) (lib.base64Encode signature) pk .sha256 = some true := by
    rw [hjson.encode]
    exact hpaired.verify _ _ hsign
  have hanswers := answers_of_readable (hjson.brace _ hsign) (hjson.decode _ hsign) hid' hverify hread
  rw [workerKeys, hkeyC2d, hivC2d, hkeyD2c, hivD2c, ← hkeysOf]
  exact (hearing_run hanswers hu hr).heard hanswers

end

def encryptedPayload : Json := .obj [("sessionId", .str "00000000-0000-0000-0000-000000000001"),
  ("rvdHost", .str "relay"), ("rvdPort", .int 443), ("requestedHost", .str "localhost"),
  ("requestedPort", .int 22), ("encryptRvdTraffic", .bool true),
  ("clientEphemeralPK", .str "client"), ("clientEphemeralPKType", .str "rsa2048")]

def encryptedEnvelope : Json := .obj [("payload", encryptedPayload), ("signature", .str "c2ln"),
  ("hashingAlgo", .str "sha256"), ("signingAlgo", .str "rsa2048")]

/-- base64, as text. -/
def base64Text (bytes : List UInt8) : String :=
  String.ofList ((Base64.encode bytes).map fun b => Char.ofNat b.toNat)

def encryptingLibraries : DaemonLibraries where
  parse text := if text = "request" then some encryptedEnvelope else none
  printUnformatted := Json.compactEncode
  base64Decode text := Base64.decode (text.toList.map fun c => UInt8.ofNat c.toNat)
  sha256 _ := none
  populatePublicKey _ := some ⟨List.replicate 256 1, [1, 0, 1]⟩
  rsaVerify _ _ text _ := text == Json.compactEncode encryptedPayload
  base64Encode := base64Text
  rsaSign _ := some [9]
  rsaEncrypt _ text := if text = "AQ==" then some [11] else if text = "Ag==" then some [12] else none
  enrollmentId := none
  pkamPrivateKeyBase64 := "private"

def encryptedSession : SessionKey := ⟨"AQ==", "Ag==", "Cw==", "DA=="⟩

def encryptedStart : SrvStart where
  requestingAtsign := "@alice"
  sessionId := "00000000-0000-0000-0000-000000000001"
  clientSigningKey := none
  process := {
    srvdHost := some "relay"
    srvdPort := 443
    requestedHost := some "localhost"
    requestedPort := 22
    authenticateToRvd := false
    rvdAuthString := none
    escr := none
    encryptRvdTraffic := true
    multi := true
    timeoutSeconds := 30
    c2d := some encryptedSession
    d2c := none
    readyFd := true }

def clientRuntime : Runtime where
  jsonDecode := Json.read
  jsonEncode := Json.compactEncode
  rsaVerifyString _ signature _ _ := some (signature == "CQ==")
  rsaDecryptString text := if text = "Cw==" then some "AQ==" else if text = "DA==" then some "Ag==" else none
  eventConfig _ := none
  fixAtSign atSign := atSign

def clientParams : Params := ⟨"@daemon", "00000000-0000-0000-0000-000000000001", true, false⟩

def encryptedResponse : List (String × Json) :=
  finalResPayload encryptedStart.sessionId (some encryptedSession) none

def encryptedResponseText : String := Json.compactEncode (envelopeOf encryptedResponse "CQ==")

theorem client_has_worker_keys_sample : ∃ t,
    (Channel.machine clientRuntime clientParams).run Channel.start
      [.deliver ⟨some encryptedResponseText⟩, .fetched 0 fun _ => some "pk", .verified 0, .resumed 0] = some t ∧
    Heard clientRuntime clientParams ⟨none, some "AQ==", some "Ag==", none, none⟩ t := by
  have h : encryptingLibraries.handleRequest nptRequest sampleParams (.init 0)
      { sampleOutcomes.answers with c2d := (some [1], some [2]) } true
      ⟨some "1", some "@alice", some "@daemon", some "@daemon:npt_request.device.sshnp@alice",
        some "request"⟩ none = .ok encryptedStart := by
    decide +kernel
  have hbase64 : encryptingLibraries.base64Encode [9] = "CQ==" := by decide +kernel
  have hpaired : Paired encryptingLibraries clientRuntime "pk" (some "client") := by
    refine ⟨?_, ?_⟩
    · intro text signature hsign
      cases hsign
      rw [hbase64]
      rfl
    · intro publicKey text cipher _ hcipher
      simp only [encryptingLibraries] at hcipher
      split at hcipher
      · rename_i htext
        cases hcipher
        rw [htext]
        decide +kernel
      · split at hcipher
        · rename_i htext
          cases hcipher
          rw [htext]
          decide +kernel
        · cases hcipher
  have hprint : encryptingLibraries.printUnformatted = Json.compactEncode := rfl
  have hdecode : clientRuntime.jsonDecode = Json.read := rfl
  have hjson : SameJson encryptingLibraries clientRuntime encryptedResponse := by
    refine ⟨fun signature hsign => ?_, fun signature hsign => ?_, rfl⟩
    · cases hsign
      rw [hbase64]
      decide +kernel
    · cases hsign
      rw [hbase64, hprint, hdecode]
      exact Json.read_compactEncode (by decide +kernel)
  have hsrv : workerMain (fun text => if text = "private" then some () else none)
      (execArgv "/usr/bin/sshnpd".toList encryptedStart.process)
      (processEnv encryptedStart.process fun _ => none) =
        some (.ok (callParams encryptedStart.process none)) := by
    have hcall : Callable encryptedStart.process := by
      constructor <;> decide
    exact workerMain_call hcall (fun _ _ => rfl) _ _
  have hkey : (fun text => if text = "private" then some () else none)
      encryptingLibraries.pkamPrivateKeyBase64 = some () := rfl
  have hsent : sendSuccessPayload encryptingLibraries sampleParams (getObjectItem encryptedEnvelope "payload")
      encryptedStart.process.c2d encryptedStart.process.d2c =
        some (encryptedStart.sessionId ++ ".device", encryptedResponseText) := by
    decide +kernel
  have hu : (Channel.machine clientRuntime clientParams).Meets
      (fun _ e => Undisturbed clientRuntime clientParams ⟨some encryptedResponseText⟩ "pk" e) Channel.start
      [.deliver ⟨some encryptedResponseText⟩, .fetched 0 fun _ => some "pk", .verified 0, .resumed 0] :=
    ⟨.inl rfl, fun _ _ => ⟨rfl, fun _ _ => ⟨trivial, fun _ _ => ⟨trivial, fun _ _ => trivial⟩⟩⟩⟩
  have hsome : ((Channel.machine clientRuntime clientParams).run Channel.start [.deliver
      ⟨some encryptedResponseText⟩, .fetched 0 fun _ => some "pk", .verified 0, .resumed 0]).isSome = true := by
    decide +kernel
  obtain ⟨t, hr⟩ := Option.isSome_iff_exists.mp hsome
  exact ⟨t, hr, client_has_worker_keys (.inl rfl) (by decide) h rfl hsent hkey (fun _ _ => rfl) hsrv hpaired
    hjson rfl hu hr⟩

/-! ### The Dart daemon -/

/-- What the Dart daemon and the client know of each other's keys. -/
structure SshnpdPaired (sshnpd : SshnpdRuntime) (rt : Runtime) (pk ephemeralPK : String) : Prop where
  verify : ∀ text signature, sshnpd.rsaSignString text = some signature →
    rt.rsaVerifyString text signature pk .sha256 = some true
  decrypt : ∀ text cipher, sshnpd.rsaEncryptString text ephemeralPK = some cipher →
    rt.rsaDecryptString cipher = some text

section
variable {sshnpd : SshnpdRuntime} {rt : Runtime} {pk : String} {req : EncryptionRequest}
  {c2d d2c : Option AesKeyBundle}

theorem genBundle_decrypts (hp : SshnpdPaired sshnpd rt pk req.clientEphemeralPK) {type aesKey iv : String}
    {bundle : AesKeyBundle} (h : genBundle sshnpd type req.clientEphemeralPK aesKey iv = some bundle) :
    rt.rsaDecryptString bundle.aesKeyEncrypted = some bundle.aesKey ∧
      rt.rsaDecryptString bundle.ivEncrypted = some bundle.iv := by
  unfold genBundle at h
  split at h
  · obtain ⟨keyEncrypted, hkey, h⟩ := Option.bind_eq_some_iff.mp h
    obtain ⟨ivEncrypted, hiv, h⟩ := Option.bind_eq_some_iff.mp h
    obtain rfl := Option.some.inj h
    exact ⟨hp.decrypt _ _ hkey, hp.decrypt _ _ hiv⟩
  · cases h

/-- The bundles of a request: none without encryption, the second only for twins. -/
theorem sessionBundles_cases {random random' : String × String}
    (h : sessionBundles sshnpd req random random' = some (c2d, d2c)) :
    (c2d = none ∧ d2c = none) ∨
      ∃ bundle, c2d = some bundle ∧ genBundle sshnpd req.clientEphemeralPKType req.clientEphemeralPK
        random.1 random.2 = some bundle ∧
        (d2c = none ∨ ∃ twin, d2c = some twin ∧ genBundle sshnpd req.clientEphemeralPKType
          req.clientEphemeralPK random'.1 random'.2 = some twin) := by
  unfold sessionBundles at h
  split at h
  · obtain ⟨bundle, hbundle, h⟩ := Option.bind_eq_some_iff.mp h
    refine .inr ⟨bundle, ?_⟩
    split at h
    · obtain ⟨twin, htwin, h⟩ := Option.bind_eq_some_iff.mp h
      obtain ⟨rfl, rfl⟩ := Prod.mk.inj (Option.some.inj h)
      exact ⟨rfl, hbundle, .inr ⟨twin, rfl, htwin⟩⟩
    · obtain ⟨rfl, rfl⟩ := Prod.mk.inj (Option.some.inj h)
      exact ⟨rfl, hbundle, .inl rfl⟩
  · obtain ⟨rfl, rfl⟩ := Prod.mk.inj (Option.some.inj h)
    exact .inl ⟨rfl, rfl⟩

theorem responsePayload_fields (req : EncryptionRequest) (ephemeralPrivateKey : Option String)
    (c2d d2c : Option AesKeyBundle) (elc : Json) :
    let payload := responsePayload req ephemeralPrivateKey c2d d2c elc
    Json.field payload "sessionId" = .str req.sessionId ∧
      Json.field payload "ephemeralPrivateKey" = .ofStr? ephemeralPrivateKey ∧
      either payload "sessionAESKey" "aesKeyC2D" = .ofStr? (c2d.map AesKeyBundle.aesKeyEncrypted) ∧
      either payload "sessionIV" "ivC2D" = .ofStr? (c2d.map AesKeyBundle.ivEncrypted) ∧
      Json.field payload "aesKeyD2C" = .ofStr? (d2c.map AesKeyBundle.aesKeyEncrypted) ∧
      Json.field payload "ivD2C" = .ofStr? (d2c.map AesKeyBundle.ivEncrypted) ∧
      Json.field payload "eventLoggingConfig" = elc := by
  obtain ⟨sessionId, encrypt, twinKeys, ephemeralPK, ephemeralPKType⟩ := req
  cases twinKeys <;> cases ephemeralPrivateKey <;> cases c2d <;>
    exact ⟨rfl, rfl, rfl, rfl, rfl, rfl, rfl⟩

/-- A client that is sent the response of the Dart daemon ends up with the keys that the daemon gave its srv. -/
theorem client_has_sshnpd_keys {params : Params} {random random' : String × String}
    {ephemeralPrivateKey : Option String} {elc : Json} {signature : String}
    (hp : SshnpdPaired sshnpd rt pk req.clientEphemeralPK)
    (hbundles : sessionBundles sshnpd req random random' = some (c2d, d2c))
    (hsign : sshnpd.rsaSignString (rt.jsonEncode
      (.obj (responsePayload req ephemeralPrivateKey c2d d2c elc))) = some signature)
    (hbrace : (rt.jsonEncode (envelopeOf (responsePayload req ephemeralPrivateKey c2d d2c elc)
      signature)).toList.head? = some '\x7b')
    (hdecode : rt.jsonDecode (rt.jsonEncode (envelopeOf
      (responsePayload req ephemeralPrivateKey c2d d2c elc) signature)) =
        some (envelopeOf (responsePayload req ephemeralPrivateKey c2d d2c elc) signature))
    (helc : elc.isNull = true ∨ (rt.eventConfig elc).isSome = true)
    (hsession : params.sessionId = req.sessionId) {es : List Event} {t : Channel}
    (hu : (Channel.machine rt params).Meets (fun _ e => Undisturbed rt params ⟨some (rt.jsonEncode
      (envelopeOf (responsePayload req ephemeralPrivateKey c2d d2c elc) signature))⟩ pk e) Channel.start es)
    (hr : (Channel.machine rt params).run Channel.start es = some t) :
    Heard rt params ⟨ephemeralPrivateKey, c2d.map AesKeyBundle.aesKey, c2d.map AesKeyBundle.iv,
      d2c.map AesKeyBundle.aesKey, d2c.map AesKeyBundle.iv⟩ t := by
  obtain ⟨hid, hephemeral, hkey, hiv, hkey', hiv', hconfig⟩ :=
    responsePayload_fields req ephemeralPrivateKey c2d d2c elc
  -- each direction has its key and iv under the names the client looks for
  have hpair : ∀ bundle : Option AesKeyBundle, (∀ b, bundle = some b →
      rt.rsaDecryptString b.aesKeyEncrypted = some b.aesKey ∧
        rt.rsaDecryptString b.ivEncrypted = some b.iv) →
      Encrypted rt (bundle.map AesKeyBundle.aesKey) (bundle.map AesKeyBundle.iv)
        (.ofStr? (bundle.map AesKeyBundle.aesKeyEncrypted))
        (.ofStr? (bundle.map AesKeyBundle.ivEncrypted)) := by
    intro bundle hb
    cases bundle with
    | none => exact .none rt
    | some b => exact .some (hb b rfl).1 (hb b rfl).2
  have hboth : (∀ b, c2d = some b → rt.rsaDecryptString b.aesKeyEncrypted = some b.aesKey ∧
      rt.rsaDecryptString b.ivEncrypted = some b.iv) ∧
      ∀ b, d2c = some b → rt.rsaDecryptString b.aesKeyEncrypted = some b.aesKey ∧
        rt.rsaDecryptString b.ivEncrypted = some b.iv := by
    rcases sessionBundles_cases hbundles with ⟨rfl, rfl⟩ | ⟨bundle, rfl, hbundle, hrest⟩
    · constructor <;> intro b hb <;> cases hb
    · refine ⟨fun b hb => ?_, fun b hb => ?_⟩
      · obtain rfl := Option.some.inj hb
        exact genBundle_decrypts hp hbundle
      · rcases hrest with rfl | ⟨twin, rfl, htwin⟩
        · cases hb
        · obtain rfl := Option.some.inj hb
          exact genBundle_decrypts hp htwin
  have hc2d := hpair c2d hboth.1
  have hd2c := hpair d2c hboth.2
  rw [← hkey, ← hiv] at hc2d
  rw [← hkey', ← hiv'] at hd2c
  rw [← hconfig] at helc
  obtain ⟨hread, hkeys⟩ := keysOf_eq ephemeralPrivateKey
    (c2d.map AesKeyBundle.aesKey, c2d.map AesKeyBundle.iv)
    (d2c.map AesKeyBundle.aesKey, d2c.map AesKeyBundle.iv) hephemeral hc2d hd2c helc
  have hanswers := answers_of_readable hbrace hdecode (hid.trans (by rw [hsession]))
    (hp.verify _ _ hsign) hread
  dsimp only at hkeys
  rw [← hkeys]
  exact (hearing_run hanswers hu hr).heard hanswers

end

def twinRequest : EncryptionRequest := ⟨"1", true, true, "client", "rsa2048"⟩

def twinRuntime : SshnpdRuntime := ⟨fun _ => some "c2ln", fun plaintext _ => some ("!" ++ plaintext)⟩

def twinPayload : List (String × Json) := responsePayload twinRequest (some "pem")
  (some ⟨"k1", "!k1", "i1", "!i1"⟩) (some ⟨"k2", "!k2", "i2", "!i2"⟩) .null

def twinClient : Runtime where
  jsonDecode := Json.read
  jsonEncode := Json.compactEncode
  rsaVerifyString _ signature _ _ := some (signature == "c2ln")
  rsaDecryptString text :=
    match text.toList with
    | '!' :: plaintext => some (String.ofList plaintext)
    | _ => none
  eventConfig _ := none
  fixAtSign atSign := atSign

def twinResponseText : String := Json.compactEncode (envelopeOf twinPayload "c2ln")

theorem client_has_sshnpd_keys_sample : ∃ t,
    (Channel.machine twinClient ⟨"@daemon", "1", true, true⟩).run Channel.start
      [.deliver ⟨some twinResponseText⟩, .fetched 0 fun _ => some "pk", .verified 0, .resumed 0] = some t ∧
    Heard twinClient ⟨"@daemon", "1", true, true⟩
      ⟨some "pem", some "k1", some "i1", some "k2", some "i2"⟩ t := by
  have hp : SshnpdPaired twinRuntime twinClient "pk" "client" := by
    refine ⟨?_, ?_⟩
    · intro text signature hsign
      cases hsign
      rfl
    · intro text cipher hcipher
      cases hcipher
      have htext : ("!" ++ text).toList = '!' :: text.toList := by
        rw [String.toList_append]
        rfl
      simp only [twinClient, htext, String.ofList_toList]
  have hbundles : sessionBundles twinRuntime twinRequest ("k1", "i1") ("k2", "i2") =
      some (some ⟨"k1", "!k1", "i1", "!i1"⟩, some ⟨"k2", "!k2", "i2", "!i2"⟩) := rfl
  have hu : (Channel.machine twinClient ⟨"@daemon", "1", true, true⟩).Meets
      (fun _ e => Undisturbed twinClient ⟨"@daemon", "1", true, true⟩ ⟨some twinResponseText⟩ "pk" e)
      Channel.start
      [.deliver ⟨some twinResponseText⟩, .fetched 0 fun _ => some "pk", .verified 0, .resumed 0] :=
    ⟨.inl rfl, fun _ _ => ⟨rfl, fun _ _ => ⟨trivial, fun _ _ => ⟨trivial, fun _ _ => trivial⟩⟩⟩⟩
  have hencode : twinClient.jsonEncode = Json.compactEncode := rfl
  have hdecode : twinClient.jsonDecode = Json.read := rfl
  have hbrace : (twinClient.jsonEncode (envelopeOf twinPayload "c2ln")).toList.head? = some '\x7b' := by
    decide +kernel
  have hread : twinClient.jsonDecode (twinClient.jsonEncode (envelopeOf twinPayload "c2ln")) =
      some (envelopeOf twinPayload "c2ln") := by
    rw [hencode, hdecode]
    exact Json.read_compactEncode (by decide +kernel)
  have hsome : ((Channel.machine twinClient ⟨"@daemon", "1", true, true⟩).run Channel.start [.deliver
      ⟨some twinResponseText⟩, .fetched 0 fun _ => some "pk", .verified 0, .resumed 0]).isSome = true := by
    decide +kernel
  obtain ⟨t, hr⟩ := Option.isSome_iff_exists.mp hsome
  exact ⟨t, hr, client_has_sshnpd_keys hp hbundles rfl hbrace hread (.inl rfl) rfl hu hr⟩

end NoPorts.SessionKeys
