import NoPorts.Lib.Calls
import NoPorts.SshnpdRequests

/-! The start of a direct ssh session: what its steps have acquired when one of them throws. -/
namespace NoPorts.SshnpdRequests.DirectSsh
open Lib

/-- What a step does that outlasts the call. -/
inductive Effect where
  | srvStarted
  | srvKilled
  | privateKeyWritten
  | privateKeyDeleted
  /-- A line for the ephemeral public key, under the id of its session. -/
  | keyAuthorized (sessionId : String)
  | removalScheduled (sessionId : String)
  deriving DecidableEq, Repr

/-- How `SrvImplExec.run` ends. -/
inductive SrvRun where
  | notStarted (e : Thrown)
  /-- The started process's stdin can't be closed. -/
  | stdinFailed (e : Thrown)
  /-- The process doesn't report in time, or reports a failure. -/
  | notBound (e : Thrown)
  | bound
  deriving DecidableEq, Repr

/-- How `generateKeyPair` ends. -/
inductive Generated where
  | keyPair
  | failed (e : Thrown) (privateKeyWritten : Bool)
  deriving DecidableEq, Repr

/-- How `authorizePublicKey` ends. -/
inductive Authorized where
  | authorized
  | failed (e : Thrown) (written : Bool)
  deriving DecidableEq, Repr

/-- How `deleteKeyPair` ends. -/
inductive Deleted where
  | deleted
  | failed (e : Thrown) (privateKeyDeleted : Bool)
  deriving DecidableEq, Repr

def Deleted.privateKeyGone : Deleted → Bool
  | .deleted => true
  | .failed _ privateKeyDeleted => privateKeyDeleted

/-- What the steps give, and what the rest of the daemon does meanwhile. -/
structure Outcomes where
  signPayload : Except Thrown Unit
  escrSigningKeyPair : Except Thrown Unit
  /-- The names of `EncryptionKeyType.values`. -/
  encryptionKeyTypes : List String
  genC2D : Except Thrown Unit
  genD2C : Except Thrown Unit
  srvRun : SrvRun
  localSshKeyUtil : Except Thrown Unit
  generateKeyPair : Generated
  authorizePublicKey : Authorized
  deleteKeyPair : Deleted
  signResponse : Except Thrown Unit
  notify : Except Thrown Unit
  logEvent : Except Thrown Unit
  /-- The client's signing key is found withdrawn before the call ends. -/
  keyWithdrawn : Bool
  /-- Another call's removal under the session's id is made once the key is authorized, or waits at the end. -/
  removedByAnother : Bool

section
variable (impl : SshnpdImpl) (req : SshnpSessionRequest) (clientSigningKey : Option String) (o : Outcomes)

def relayAuthenticator : Except Thrown Unit :=
  if req.authenticateToRvd.getD false then
    match req.relayAuthMode with
    | .payload => o.signPayload
    | .escr => do
      o.escrSigningKeyPair
      -- `req.relayAuthAesKey!`
      let _ ← cast req.relayAuthAesKey
      return ()
  else return ()

def aesKeyBundles : Except Thrown Unit :=
  if req.encryptRvdTraffic.getD false then
    match req.clientEphemeralPK, req.clientEphemeralPKType with
    | some _, some clientEphemeralPKType =>
      if o.encryptionKeyTypes.contains clientEphemeralPKType then do
        o.genC2D
        if req.twinKeys then o.genD2C
      else throw (.other ("Unknown ephemeralPKType: " ++ clientEphemeralPKType))
    | _, _ => throw (.other ("encryptRvdTraffic was requested, but no client ephemeral public key / " ++
        "key type was provided"))
  else return ()

/-- The steps before the srv process. -/
def prepare : Except Thrown Unit := do
  relayAuthenticator req o
  aesKeyBundles req o

def srvRun : Calling Effect Thrown Unit :=
  match o.srvRun with
  | .notStarted e => throw e
  | .stdinFailed e => Calling.call .srvStarted (.error e)
  | .notBound e => do
    Calling.call .srvStarted (.ok ())
    Calling.call .srvKilled (.error e)
  | .bound => Calling.call .srvStarted (.ok ())

/-- What ends the srv process of a tracked session: that its id is watched already, or its key's withdrawal. -/
def srvEnded : Bool := clientSigningKey.isSome && (impl.clientSessions.contains req.sessionId || o.keyWithdrawn)

def trackSrvProcess : Calling Effect Thrown Unit :=
  if srvEnded impl req clientSigningKey o then Calling.call .srvKilled (.ok ()) else return ()

def generateKeyPair : Calling Effect Thrown Unit :=
  match o.generateKeyPair with
  | .keyPair => Calling.call .privateKeyWritten (.ok ())
  | .failed e true => Calling.call .privateKeyWritten (.error e)
  | .failed e false => throw e

def authorizePublicKey : Calling Effect Thrown Unit :=
  match o.authorizePublicKey with
  | .authorized => Calling.call (.keyAuthorized req.sessionId) (.ok ())
  | .failed e true => Calling.call (.keyAuthorized req.sessionId) (.error e)
  | .failed e false => throw e

def deleteKeyPair : Calling Effect Thrown Unit :=
  match o.deleteKeyPair with
  | .deleted => Calling.call .privateKeyDeleted (.ok ())
  | .failed e true => Calling.call .privateKeyDeleted (.error e)
  | .failed e false => throw e

def removeKeyPair : Calling Effect Thrown Unit := tryCatch (deleteKeyPair o) fun _ => pure ()

/-- The notification of the client, with its value, and the event. -/
def respond : Except Thrown Unit := do
  o.signResponse
  o.notify
  if impl.elc then o.logEvent

def deauthorizeAfter : Calling Effect Thrown Unit := Calling.call (.removalScheduled req.sessionId) (.ok ())

/-- The steps once the srv process has been started. -/
def ephemeralSession : Calling Effect Thrown Unit := do
  Calling.ofExcept o.localSshKeyUtil
  generateKeyPair o
  authorizePublicKey req o
  removeKeyPair o
  Calling.ofExcept (respond impl o)
  deauthorizeAfter req

def startDirectSsh : Calling Effect Thrown Unit := do
  Calling.ofExcept (prepare req o)
  srvRun o
  trackSrvProcess impl req clientSigningKey o
  ephemeralSession impl req o

end

/-- What a call that ended so has done is undone, or will be. -/
structure LeavesNothing (o : Outcomes) (r : Except Thrown Unit × List Effect) : Prop where
  removal : ∀ sessionId, .keyAuthorized sessionId ∈ r.2 → .removalScheduled sessionId ∈ r.2 ∨ o.removedByAnother = true
  srv : ∀ e, r.1 = .error e → .srvStarted ∈ r.2 → .srvKilled ∈ r.2
  privateKey : ∀ e, r.1 = .error e → .privateKeyWritten ∈ r.2 → .privateKeyDeleted ∈ r.2

/-- No step after the srv process throws. -/
structure Completes (impl : SshnpdImpl) (o : Outcomes) : Prop where
  localSshKeyUtil : o.localSshKeyUtil = .ok ()
  generateKeyPair : o.generateKeyPair = .keyPair
  authorizePublicKey : o.authorizePublicKey = .authorized
  respond : respond impl o = .ok ()

/-- The key pair is authorized and deleted, and another call removes it. -/
structure RemovedByAnother (o : Outcomes) : Prop where
  generateKeyPair : o.generateKeyPair = .keyPair
  authorizePublicKey : o.authorizePublicKey = .authorized
  deleteKeyPair : o.deleteKeyPair.privateKeyGone = true
  removed : o.removedByAnother = true

/-- With the srv process gone too, nothing is held: there is no key pair yet, or it is removed by another call. -/
def KeyPairGone (o : Outcomes) : Prop :=
  (∃ e, o.localSshKeyUtil = .error e) ∨ (∃ e, o.generateKeyPair = .failed e false) ∨ RemovedByAnother o

section
variable {impl : SshnpdImpl} {req : SshnpSessionRequest} {clientSigningKey : Option String} {o : Outcomes}

/-- What has been done by the time the srv process is tracked. -/
def acquired (killed : Bool) : List Effect := .srvStarted :: if killed then [.srvKilled] else []

@[simp] theorem mem_acquired {killed : Bool} {effect : Effect} :
    effect ∈ acquired killed ↔ effect = .srvStarted ∨ killed = true ∧ effect = .srvKilled := by
  cases killed with
  | false => simp [acquired]
  | true => simp [acquired]

/-- The files of the key pair, authorized and then deleted or not. -/
def authorized (sessionId : String) (privateKeyGone : Bool) : List Effect :=
  .privateKeyWritten :: .keyAuthorized sessionId :: if privateKeyGone then [.privateKeyDeleted] else []

@[simp] theorem mem_authorized {sessionId : String} {privateKeyGone : Bool} {effect : Effect} :
    effect ∈ authorized sessionId privateKeyGone ↔ effect = .privateKeyWritten ∨ effect = .keyAuthorized sessionId ∨
      privateKeyGone = true ∧ effect = .privateKeyDeleted := by
  cases privateKeyGone with
  | false => simp [authorized]
  | true => simp [authorized]

theorem killed_of_leavesNothing {killed : Bool} {e : Thrown} {more : List Effect} (hmore : .srvKilled ∉ more)
    (h : LeavesNothing o (.error e, acquired killed ++ more)) : killed = true := by
  rcases List.mem_append.mp (h.srv e rfl (List.mem_append_left _ List.mem_cons_self)) with hstarted | hlater
  · simpa using hstarted
  · exact absurd hlater hmore

/-- A private key file that is left is left. -/
theorem not_leavesNothing {killed : Bool} {e : Thrown} {more : List Effect} (hwritten : .privateKeyWritten ∈ more)
    (hleft : .privateKeyDeleted ∉ more) : ¬LeavesNothing o (.error e, acquired killed ++ more) := by
  intro h
  rcases List.mem_append.mp (h.privateKey e rfl (List.mem_append_right _ hwritten)) with hdeleted | hdeleted
  · simp at hdeleted
  · exact hleft hdeleted

/-- A deletion that fails is no more than logged. -/
theorem removeKeyPair_run (made : List Effect) : removeKeyPair o made =
    (.ok (), made ++ if o.deleteKeyPair.privateKeyGone then [.privateKeyDeleted] else []) := by
  rw [removeKeyPair]
  cases hdelete : o.deleteKeyPair with
  | deleted =>
    apply Calling.tryCatch_ok
    rw [deleteKeyPair, hdelete]
    rfl
  | failed e gone =>
    have hrun : deleteKeyPair o made = (.error e, made ++ if gone then [.privateKeyDeleted] else []) := by
      rw [deleteKeyPair, hdelete]
      cases gone with
      | true => rfl
      | false =>
        rw [if_neg Bool.false_ne_true, List.append_nil]
        rfl
    rw [Calling.tryCatch_error hrun]
    rfl

/-- What is left where the key pair has been authorized, and its private key deleted or not. -/
theorem respond_leavesNothing (killed : Bool) :
    LeavesNothing o ((Calling.ofExcept (respond impl o) >>= fun _ => deauthorizeAfter req)
      (acquired killed ++ authorized req.sessionId o.deleteKeyPair.privateKeyGone)) ↔
        respond impl o = .ok () ∨ killed = true ∧ o.deleteKeyPair.privateKeyGone = true ∧ o.removedByAnother = true := by
  cases hrespond : respond impl o with
  | ok =>
    rw [Calling.ofExcept_bind rfl]
    refine ⟨fun _ => Or.inl rfl, fun _ => ⟨fun sessionId hmem => Or.inl ?_, nofun, nofun⟩⟩
    have hsession : sessionId = req.sessionId := by simpa [deauthorizeAfter, Calling.call] using hmem
    rw [hsession]
    exact List.mem_append_right _ List.mem_cons_self
  | error e =>
    rw [Calling.ofExcept_bind_error rfl]
    constructor
    · intro h
      refine Or.inr ⟨killed_of_leavesNothing (by simp) h, ?_, ?_⟩
      · have hdeleted := h.privateKey e rfl (by simp)
        simpa using hdeleted
      · have hremoved := h.removal req.sessionId (by simp)
        simpa using hremoved
    · rintro (h | ⟨rfl, hgone, hremoved⟩)
      · cases h
      · rw [hgone]
        refine ⟨fun _ _ => Or.inr hremoved, fun _ _ _ => ?_, fun _ _ _ => ?_⟩
        · simp
        · simp

/-- What is left where the key pair has been written. -/
theorem authorize_leavesNothing (killed : Bool) :
    LeavesNothing o ((authorizePublicKey req o >>= fun _ => removeKeyPair o >>= fun _ =>
      Calling.ofExcept (respond impl o) >>= fun _ => deauthorizeAfter req) (acquired killed ++ [.privateKeyWritten])) ↔
        o.authorizePublicKey = .authorized ∧ (respond impl o = .ok () ∨
          killed = true ∧ o.deleteKeyPair.privateKeyGone = true ∧ o.removedByAnother = true) := by
  cases hauthorize : o.authorizePublicKey with
  | failed e written =>
    refine iff_of_false ?_ fun h => by cases h.1
    cases written with
    | false =>
      have hrun : authorizePublicKey req o (acquired killed ++ [.privateKeyWritten]) =
          (.error e, acquired killed ++ [.privateKeyWritten]) := by
        rw [authorizePublicKey, hauthorize]
        rfl
      rw [Calling.bind_error hrun]
      exact not_leavesNothing (by simp) (by simp)
    | true =>
      have hrun : authorizePublicKey req o (acquired killed ++ [.privateKeyWritten]) =
          (.error e, acquired killed ++ [.privateKeyWritten] ++ [.keyAuthorized req.sessionId]) := by
        rw [authorizePublicKey, hauthorize]
        rfl
      rw [Calling.bind_error hrun, List.append_assoc]
      exact not_leavesNothing (by simp) (by simp)
  | authorized =>
    have hrun : authorizePublicKey req o (acquired killed ++ [.privateKeyWritten]) =
        (.ok (), acquired killed ++ [.privateKeyWritten] ++ [.keyAuthorized req.sessionId]) := by
      rw [authorizePublicKey, hauthorize]
      rfl
    rw [Calling.bind_ok hrun, Calling.bind_ok (removeKeyPair_run _), List.append_assoc, List.append_assoc]
    exact (respond_leavesNothing killed).trans (and_iff_right rfl).symm

/-- The steps after the srv process: what each leaves where it throws. -/
theorem ephemeralSession_leavesNothing (killed : Bool) :
    LeavesNothing o (ephemeralSession impl req o (acquired killed)) ↔ Completes impl o ∨ killed = true ∧ KeyPairGone o := by
  -- a throw that holds nothing but the srv process
  have hbare (e : Thrown) : LeavesNothing o (.error e, acquired killed) ↔ killed = true := by
    constructor
    · intro h
      have hbefore : LeavesNothing o (.error e, acquired killed ++ []) := by rwa [List.append_nil]
      exact killed_of_leavesNothing List.not_mem_nil hbefore
    · rintro rfl
      refine ⟨fun sessionId h => ?_, fun _ _ _ => ?_, fun _ _ h => ?_⟩
      · simp at h
      · simp
      · simp at h
  rw [ephemeralSession]
  cases hutil : o.localSshKeyUtil with
  | error e =>
    rw [Calling.ofExcept_bind_error rfl, hbare]
    constructor
    · intro h
      exact Or.inr ⟨h, Or.inl ⟨e, hutil⟩⟩
    · rintro (h | ⟨h, -⟩)
      · cases hutil.symm.trans h.localSshKeyUtil
      · exact h
  | ok =>
    rw [Calling.ofExcept_bind rfl]
    cases hgenerate : o.generateKeyPair with
    | failed e written =>
      cases written with
      | false =>
        have hrun : generateKeyPair o (acquired killed) = (.error e, acquired killed) := by
          rw [generateKeyPair, hgenerate]
          rfl
        rw [Calling.bind_error hrun, hbare]
        constructor
        · intro h
          exact Or.inr ⟨h, Or.inr (Or.inl ⟨e, hgenerate⟩)⟩
        · rintro (h | ⟨h, -⟩)
          · cases hgenerate.symm.trans h.generateKeyPair
          · exact h
      | true =>
        have hrun : generateKeyPair o (acquired killed) = (.error e, acquired killed ++ [.privateKeyWritten]) := by
          rw [generateKeyPair, hgenerate]
          rfl
        rw [Calling.bind_error hrun]
        -- the private key is on the disk, and the removal comes only behind its generation
        refine iff_of_false (not_leavesNothing (by simp) (by simp)) ?_
        rintro (h | ⟨-, ⟨e', h⟩ | ⟨e', h⟩ | h⟩)
        · cases hgenerate.symm.trans h.generateKeyPair
        · cases hutil.symm.trans h
        · cases hgenerate.symm.trans h
        · cases hgenerate.symm.trans h.generateKeyPair
    | keyPair =>
      have hrun : generateKeyPair o (acquired killed) = (.ok (), acquired killed ++ [.privateKeyWritten]) := by
        rw [generateKeyPair, hgenerate]
        rfl
      rw [Calling.bind_ok hrun]
      refine (authorize_leavesNothing killed).trans ⟨?_, ?_⟩
      · rintro ⟨hauthorize, h | ⟨hkilled, hgone, hremoved⟩⟩
        · exact Or.inl ⟨hutil, hgenerate, hauthorize, h⟩
        · exact Or.inr ⟨hkilled, Or.inr (Or.inr ⟨hgenerate, hauthorize, hgone, hremoved⟩)⟩
      · rintro (h | ⟨hkilled, ⟨e, h⟩ | ⟨e, h⟩ | h⟩)
        · exact ⟨h.authorizePublicKey, Or.inl h.respond⟩
        · cases hutil.symm.trans h
        · cases hgenerate.symm.trans h
        · exact ⟨h.authorizePublicKey, Or.inr ⟨hkilled, h.deleteKeyPair, h.removed⟩⟩

/-- Nothing is left exactly where no step throws, or what throws comes before the srv process is there, is `run`
itself once it has killed it, or finds the process and the key pair gone by other means. -/
theorem startDirectSsh_leavesNothing_iff (impl : SshnpdImpl) (req : SshnpSessionRequest)
    (clientSigningKey : Option String) (o : Outcomes) :
    LeavesNothing o (startDirectSsh impl req clientSigningKey o []) ↔
      (∃ e, prepare req o = .error e) ∨ (∃ e, o.srvRun = .notStarted e ∨ o.srvRun = .notBound e) ∨
        o.srvRun = .bound ∧ (Completes impl o ∨ srvEnded impl req clientSigningKey o = true ∧ KeyPairGone o) := by
  rw [startDirectSsh]
  cases hprepare : prepare req o with
  | error e =>
    rw [Calling.ofExcept_bind_error rfl]
    refine iff_of_true ⟨?_, ?_, ?_⟩ (Or.inl ⟨e, rfl⟩)
    · exact fun _ h => absurd h List.not_mem_nil
    · exact fun _ _ h => absurd h List.not_mem_nil
    · exact fun _ _ h => absurd h List.not_mem_nil
  | ok =>
    rw [Calling.ofExcept_bind rfl]
    cases hsrv : o.srvRun with
    | notStarted e =>
      have hrun : srvRun o [] = (.error e, []) := by
        rw [srvRun, hsrv]
        rfl
      rw [Calling.bind_error hrun]
      refine iff_of_true ⟨?_, ?_, ?_⟩ (Or.inr (Or.inl ⟨e, Or.inl rfl⟩))
      · exact fun _ h => absurd h List.not_mem_nil
      · exact fun _ _ h => absurd h List.not_mem_nil
      · exact fun _ _ h => absurd h List.not_mem_nil
    | stdinFailed e =>
      have hrun : srvRun o [] = (.error e, [.srvStarted]) := by
        rw [srvRun, hsrv]
        rfl
      rw [Calling.bind_error hrun]
      -- the process runs, and nothing kills it
      refine iff_of_false (fun h => ?_) ?_
      · cases List.mem_singleton.mp (h.srv e rfl List.mem_cons_self)
      · rintro (⟨e, h⟩ | ⟨e, h | h⟩ | ⟨h, -⟩)
        · cases h
        · cases h
        · cases h
        · cases h
    | notBound e =>
      have hrun : srvRun o [] = (.error e, [.srvStarted, .srvKilled]) := by
        rw [srvRun, hsrv]
        rfl
      rw [Calling.bind_error hrun]
      refine iff_of_true ⟨?_, ?_, ?_⟩ (Or.inr (Or.inl ⟨e, Or.inr rfl⟩))
      · simp
      · simp
      · simp
    | bound =>
      have hrun : srvRun o [] = (.ok (), [.srvStarted]) := by
        rw [srvRun, hsrv]
        rfl
      have htrack : trackSrvProcess impl req clientSigningKey o [.srvStarted] =
          (.ok (), acquired (srvEnded impl req clientSigningKey o)) := by
        rw [trackSrvProcess]
        cases srvEnded impl req clientSigningKey o with
        | false => rfl
        | true => rfl
      rw [Calling.bind_ok hrun, Calling.bind_ok htrack, ephemeralSession_leavesNothing]
      constructor
      · exact fun h => Or.inr (Or.inr ⟨rfl, h⟩)
      · rintro (⟨e, h⟩ | ⟨e, h | h⟩ | ⟨-, h⟩)
        · cases h
        · cases h
        · cases h
        · exact h

end

/-- A direct session that asks for no relay authentication and no encryption. -/
def plainRequest : SshnpSessionRequest where
  direct := true
  sessionId := "6a3b1d1e-6f0c-4f0e-9d55-0d6f0a1b2c3d"
  host := "relay"
  port := 4000
  authenticateToRvd := none
  relayAuthMode := .payload
  relayAuthAesKey := none
  clientNonce := none
  rvdNonce := none
  encryptRvdTraffic := none
  clientEphemeralPK := none
  clientEphemeralPKType := none
  username := none
  remoteForwardPort := none
  privateKey := none
  twinKeys := false
  relayAtsign := none

def unsent : Thrown := .other "the notification can't be sent"

/-- Every step succeeds but the notification. -/
def notifyThrows : Outcomes where
  signPayload := .ok ()
  escrSigningKeyPair := .ok ()
  encryptionKeyTypes := ["rsa2048"]
  genC2D := .ok ()
  genD2C := .ok ()
  srvRun := .bound
  localSshKeyUtil := .ok ()
  generateKeyPair := .keyPair
  authorizePublicKey := .authorized
  deleteKeyPair := .deleted
  signResponse := .ok ()
  notify := .error unsent
  logEvent := .ok ()
  keyWithdrawn := false
  removedByAnother := false

/-- The key stays authorized, and the srv process runs on. -/
theorem notifyThrows_leaves : startDirectSsh .managed plainRequest none notifyThrows [] =
      (.error unsent, [.srvStarted, .privateKeyWritten, .keyAuthorized plainRequest.sessionId, .privateKeyDeleted]) ∧
    ¬LeavesNothing notifyThrows (startDirectSsh .managed plainRequest none notifyThrows []) := by
  have hrun : startDirectSsh .managed plainRequest none notifyThrows [] =
      (.error unsent, [.srvStarted, .privateKeyWritten, .keyAuthorized plainRequest.sessionId, .privateKeyDeleted]) := rfl
  refine ⟨hrun, fun h => ?_⟩
  rw [hrun] at h
  rcases h.removal plainRequest.sessionId (by simp) with hscheduled | hremoved
  · simp at hscheduled
  · cases hremoved

end NoPorts.SshnpdRequests.DirectSsh
