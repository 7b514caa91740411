import NoPorts.ConnectMessage

/-! The sockets of `_handleMultiConnectRequest`, the daemon's handling of a connect message: those it opens to the
relay, one for each attempt, the local one, and what has become of each when it returns or throws. -/
namespace NoPorts.ConnectSockets
open Lib Connect

inductive Fate where
  /-- Neither handed over nor destroyed. -/
  | opened
  | handed
  | destroyed
  deriving DecidableEq, Repr

inductive Authentication where
  | authenticated
  | notAuthenticated
  /-- Authenticated, but with a null stream. -/
  | noStream
  | threw
  deriving DecidableEq, Repr

/-- What one attempt to connect to the relay meets with. -/
structure RelayAttempt where
  /-- `Socket.connect` gives a socket. -/
  connect : Bool
  authenticate : Authentication
  deriving DecidableEq, Repr

structure Outcomes where
  resolveRequestedLocalHost : Bool
  relay : ℕ → RelayAttempt
  localConnect : Bool

/-- How an attempt ends, or the loop over them. -/
inductive AttemptEnd where
  /-- Not connected; there may be another attempt. -/
  | again
  /-- `candidateConnected`, with whether `sideB` has been assigned. -/
  | connected (sideB : Bool)
  | threw
  deriving DecidableEq, Repr

/-- How the handling ends. -/
structure Ended where
  threw : Bool
  /-- The sockets to the relay, the oldest first. -/
  relay : List Fate
  localSocket : Option Fate
  /-- `sc.close()` has been called. -/
  connectorClosed : Bool
  deriving DecidableEq, Repr

def attempts : ℕ := 4

section
variable {σ : Type} (host : DartHost σ) (request : ConnectRequest)

/-- The candidate's transformer can be set, or none is. -/
def sideBCipher : Bool :=
  match request.aesC2D, request.ivC2D with
  | some aesC2D, some ivC2D => (host.setAesCtrTransformer aesC2D ivC2D).isSome
  | _, _ => true

/-- The same for the local side; `ivD2C!` throws when there is none. -/
def sideACipher : Bool :=
  match request.aesC2D, request.ivC2D with
  | some aesC2D, some ivC2D =>
    match request.aesD2C with
    | none => (host.setAesCtrTransformer aesC2D ivC2D).isSome
    | some aesD2C => request.ivD2C.any fun ivD2C => (host.setAesCtrTransformer aesD2C ivD2C).isSome
  | _, _ => true

end

/-- One attempt, and what has become of its socket, if there is one. -/
def attempt (authenticator cipher : Bool) (a : RelayAttempt) : Option Fate × AttemptEnd :=
  if !a.connect then (none, .threw)
  else if !cipher then (some .opened, .threw)
  -- without an authenticator the candidate is connected, but `sideB` is not assigned
  else if !authenticator then (some .opened, .connected false)
  else
    match a.authenticate with
    | .authenticated => (some .opened, .connected true)
    | _ => (some .destroyed, .again)

/-- The loop, from attempt `i` on. -/
def connectRelay (authenticator cipher : Bool) (relay : ℕ → RelayAttempt) : ℕ → ℕ → List Fate × AttemptEnd
  | 0, _ => ([], .again)
  | remaining + 1, i =>
    let made := attempt authenticator cipher (relay i)
    match made.2 with
    | .again =>
      let more := connectRelay authenticator cipher relay remaining (i + 1)
      (made.1.toList ++ more.1, more.2)
    | ended => (made.1.toList, ended)

/-- The last socket to the relay is `sideB`'s. -/
def setSideB (relay : List Fate) (fate : Fate) : List Fate := relay.dropLast ++ [fate]

/-- `_handleMultiConnectRequest`. To read `sideB` where it was never assigned throws. -/
def handleMultiConnectRequest {σ : Type} (host : DartHost σ) (request : ConnectRequest) (authenticator : Bool)
    (o : Outcomes) : Ended :=
  if !o.resolveRequestedLocalHost then ⟨true, [], none, false⟩
  else
    let connected := connectRelay authenticator (sideBCipher host request) o.relay attempts 1
    match connected.2 with
    | .threw | .again => ⟨false, connected.1, none, true⟩
    | .connected sideB =>
      if !o.localConnect then
        if sideB then ⟨false, setSideB connected.1 .destroyed, none, false⟩
        else ⟨true, connected.1, none, false⟩
      else if !sideACipher host request then
        if sideB then ⟨false, setSideB connected.1 .destroyed, some .opened, false⟩
        else ⟨true, connected.1, some .opened, false⟩
      else if sideB then ⟨false, setSideB connected.1 .handed, some .handed, false⟩
      else ⟨true, connected.1, some .opened, false⟩

/-- A socket to the relay comes to be connected, and authenticated where that is asked for, with those tried
before it connected too. -/
def relayConnects (authenticator : Bool) (relay : ℕ → RelayAttempt) : ℕ → ℕ → Bool
  | 0, _ => false
  | remaining + 1, i =>
    (relay i).connect && (!authenticator || (relay i).authenticate == .authenticated ||
      relayConnects authenticator relay remaining (i + 1))

/-- No socket is left behind. -/
structure Accounted (authenticator : Bool) (o : Outcomes) (e : Ended) : Prop where
  returns : e.threw = false
  sockets : ∀ fate ∈ e.relay ++ e.localSocket.toList, fate ≠ .opened
  joined : relayConnects authenticator o.relay attempts 1 = true → o.localConnect = true →
    e.relay.getLast? = some .handed ∧ e.localSocket = some .handed

/-- The local host resolves; and the first connection to the relay fails, or there is an authenticator, the relay
side's cipher can be set, and so can the local side's once both sides are connected. -/
def Clean {σ : Type} (host : DartHost σ) (request : ConnectRequest) (authenticator : Bool) (o : Outcomes) : Prop :=
  o.resolveRequestedLocalHost = true ∧ ((o.relay 1).connect = false ∨
    authenticator = true ∧ sideBCipher host request = true ∧
      (relayConnects authenticator o.relay attempts 1 = true → o.localConnect = true →
        sideACipher host request = true))

/-! ### The attempts -/

section Attempts
variable {relay : ℕ → RelayAttempt}

/-- An attempt that ends the loop. -/
theorem connectRelay_ended {authenticator cipher : Bool} {i n : ℕ}
    (h : (attempt authenticator cipher (relay i)).2 ≠ .again) :
    connectRelay authenticator cipher relay (n + 1) i =
      ((attempt authenticator cipher (relay i)).1.toList, (attempt authenticator cipher (relay i)).2) := by
  rw [connectRelay]
  generalize attempt authenticator cipher (relay i) = made at h ⊢
  obtain ⟨fate, ended⟩ := made
  cases ended with
  | again => exact absurd rfl h
  | connected sideB => rfl
  | threw => rfl

/-- What the loop comes to with an authenticator: it ends in a connected socket, or in none at all, and every
other socket it made is destroyed. -/
theorem connectRelay_spec (relay : ℕ → RelayAttempt) (n i : ℕ) :
    (relayConnects true relay n i = true ∧ ∃ before, connectRelay true true relay n i =
      (before ++ [.opened], .connected true) ∧ ∀ fate ∈ before, fate = .destroyed) ∨
    (relayConnects true relay n i = false ∧ ∃ ended, (ended = .again ∨ ended = .threw) ∧ ∃ before,
      connectRelay true true relay n i = (before, ended) ∧ ∀ fate ∈ before, fate = .destroyed) := by
  induction n generalizing i with
  | zero => exact Or.inr ⟨rfl, .again, Or.inl rfl, [], rfl, by simp⟩
  | succ n ih =>
    cases hconnect : (relay i).connect with
    | false =>
      refine Or.inr ⟨by simp [relayConnects, hconnect], .threw, Or.inr rfl, [], ?_, by simp⟩
      rw [connectRelay_ended] <;> simp [attempt, hconnect]
    | true =>
      by_cases hauth : (relay i).authenticate = .authenticated
      · refine Or.inl ⟨by simp [relayConnects, hconnect, hauth], [], ?_, by simp⟩
        rw [connectRelay_ended] <;> simp [attempt, hconnect, hauth]
      · -- the candidate is destroyed and the loop goes on
        have hmade : attempt true true (relay i) = (some .destroyed, .again) := by
          unfold attempt
          rw [hconnect]
          cases hcase : (relay i).authenticate with
          | authenticated => exact absurd hcase hauth
          | notAuthenticated => rfl
          | noStream => rfl
          | threw => rfl
        have hnext : relayConnects true relay (n + 1) i = relayConnects true relay n (i + 1) := by
          simp [relayConnects, hconnect, hauth]
        have hloop : connectRelay true true relay (n + 1) i =
            (.destroyed :: (connectRelay true true relay n (i + 1)).1,
              (connectRelay true true relay n (i + 1)).2) := by
          simp only [connectRelay, hmade, Option.toList_some, List.singleton_append]
        rw [hnext, hloop]
        rcases ih (i + 1) with ⟨hyes, before, heq, hbefore⟩ | ⟨hno, ended, hended, before, heq, hbefore⟩
        · refine Or.inl ⟨hyes, .destroyed :: before, by rw [heq]; rfl, ?_⟩
          simpa using hbefore
        · refine Or.inr ⟨hno, ended, hended, .destroyed :: before, by rw [heq], ?_⟩
          simpa using hbefore

end Attempts

/-! ### When no socket is left behind -/

section Accounting
variable {σ : Type} {host : DartHost σ} {request : ConnectRequest} {o : Outcomes}

theorem setSideB_concat (before : List Fate) (last fate : Fate) :
    setSideB (before ++ [last]) fate = before ++ [fate] := by
  rw [setSideB, List.dropLast_concat]

/-- All sockets are destroyed when the relay is not connected to. -/
theorem accounted_of_destroyed {authenticator closed : Bool} {relay : List Fate}
    (hrelay : ∀ fate ∈ relay, fate = .destroyed)
    (hnot : relayConnects authenticator o.relay attempts 1 = false) :
    Accounted authenticator o ⟨false, relay, none, closed⟩ := by
  refine ⟨rfl, fun fate hfate => ?_, fun h => ?_⟩
  · rw [Option.toList_none, List.append_nil] at hfate
    rw [hrelay fate hfate]
    decide
  · rw [hnot] at h
    cases h

theorem not_accounted_of_threw {authenticator closed : Bool} {relay : List Fate} {localSocket : Option Fate} :
    ¬Accounted authenticator o ⟨true, relay, localSocket, closed⟩ := fun h => Bool.noConfusion h.returns

/-- Once both sides are connected with an authenticator. -/
theorem accounted_connected_iff {before : List Fate} (hbefore : ∀ fate ∈ before, fate = .destroyed) :
    Accounted true o
        (if !sideACipher host request then ⟨false, before ++ [.destroyed], some .opened, false⟩
          else ⟨false, before ++ [.handed], some .handed, false⟩) ↔ sideACipher host request = true := by
  cases hcipher : sideACipher host request with
  | false =>
    refine iff_of_false (fun h => ?_) (by simp)
    exact h.sockets .opened (by simp) rfl
  | true =>
    refine iff_of_true ?_ rfl
    refine ⟨rfl, fun fate hfate => ?_, fun _ _ => by simp⟩
    simp only [Bool.not_true, Bool.false_eq_true, if_false, Option.toList_some, List.mem_append,
      List.mem_singleton] at hfate
    rcases hfate with (hfate | rfl) | rfl
    · rw [hbefore fate hfate]
      decide
    · decide
    · decide

end Accounting

/-- No socket is left behind exactly when the local host resolves and either the first connection to the relay
fails, or there is an authenticator and every cipher that comes to be needed can be set. -/
theorem connect_request_accounted_iff {σ : Type} (host : DartHost σ) (request : ConnectRequest)
    (authenticator : Bool) (o : Outcomes) :
    Accounted authenticator o (handleMultiConnectRequest host request authenticator o) ↔
      Clean host request authenticator o := by
  unfold handleMultiConnectRequest Clean
  cases hresolve : o.resolveRequestedLocalHost with
  | false =>
    apply iff_of_false
    · exact not_accounted_of_threw
    · exact fun h => Bool.noConfusion h.1
  | true =>
    simp only [Bool.not_true, Bool.false_eq_true, if_false, true_and]
    cases hconnect : (o.relay 1).connect with
    | false =>
      have hended : attempt authenticator (sideBCipher host request) (o.relay 1) = (none, .threw) := by
        simp only [attempt, hconnect, Bool.not_false, if_true]
      have hloop : connectRelay authenticator (sideBCipher host request) o.relay attempts 1 = ([], .threw) := by
        rw [attempts, connectRelay_ended (by rw [hended]; decide), hended]
        rfl
      rw [hloop]
      apply iff_of_true
      · exact accounted_of_destroyed (by simp) (by simp [relayConnects, attempts, hconnect])
      · exact Or.inl rfl
    | true =>
      simp only [Bool.true_eq_false, false_or]
      cases hcipher : sideBCipher host request with
      | false =>
        have hended : attempt authenticator false (o.relay 1) = (some .opened, .threw) := by
          simp [attempt, hconnect]
        have hloop : connectRelay authenticator false o.relay attempts 1 = ([.opened], .threw) := by
          rw [attempts, connectRelay_ended (by rw [hended]; decide), hended]
          rfl
        rw [hloop]
        refine iff_of_false (fun h => ?_) (by simp)
        exact h.sockets .opened (by simp) rfl
      | true =>
        cases hauth : authenticator with
        | false =>
          have hended : attempt false true (o.relay 1) = (some .opened, .connected false) := by
            simp [attempt, hconnect]
          have hloop : connectRelay false true o.relay attempts 1 = ([.opened], .connected false) := by
            rw [attempts, connectRelay_ended (by rw [hended]; decide), hended]
            rfl
          rw [hloop]
          refine iff_of_false ?_ (by simp)
          -- `sideB` is read, and was never assigned
          dsimp only
          split
          · exact not_accounted_of_threw
          · split <;> exact not_accounted_of_threw
        | true =>
          simp only [true_and]
          rcases connectRelay_spec o.relay attempts 1 with
            ⟨hyes, before, hloop, hbefore⟩ | ⟨hno, ended, hended, before, hloop, hbefore⟩
          · rw [hloop]
            simp only [hyes, true_imp_iff, setSideB_concat, if_true]
            cases hlocal : o.localConnect with
            | false =>
              refine iff_of_true ?_ (by simp)
              refine ⟨rfl, fun fate hfate => ?_, fun _ h => ?_⟩
              · simp only [Bool.not_false, if_true, Option.toList_none, List.append_nil, List.mem_append,
                  List.mem_singleton] at hfate
                rcases hfate with hfate | rfl
                · rw [hbefore fate hfate]
                  decide
                · decide
              · rw [hlocal] at h
                cases h
            | true =>
              simp only [Bool.not_true, Bool.false_eq_true, if_false, true_imp_iff]
              exact accounted_connected_iff hbefore
          · rw [hloop]
            refine iff_of_true ?_ (by simp [hno])
            rcases hended with rfl | rfl <;> exact accounted_of_destroyed hbefore hno

/-- A Dart host that can read no key. -/
def keylessHost : DartHost Unit where
  base64Decode _ := none
  aesCtrStreamCipher _ _ := none
  dartAesCtr _ _ := ()
  update s bytes := (bytes, s)

def plainRequest : ConnectRequest := ⟨none, none, none, none⟩

def allWell : Outcomes := ⟨true, fun _ => ⟨true, .authenticated⟩, true⟩

/-- Without an authenticator a plain connect message whose connections both succeed ends in a throw, with both
sockets left behind. -/
theorem plain_connect_leaks : handleControlMessage "connect:no:encrypt" = .connect plainRequest ∧
    handleMultiConnectRequest keylessHost plainRequest false allWell = ⟨true, [.opened], some .opened, false⟩ ∧
    ¬Accounted false allWell (handleMultiConnectRequest keylessHost plainRequest false allWell) := by
  refine ⟨by decide, rfl, fun h => ?_⟩
  cases h.returns

end NoPorts.ConnectSockets
