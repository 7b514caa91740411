import Mathlib.Data.Nat.Notation

/-! What the relay keeps about one session. -/
namespace NoPorts.Srvd

inductive RelayAuthMode where
  | payload
  | escr
  deriving DecidableEq, Repr

structure SrvdSessionParams where
  sessionId : String
  atSignA : String
  atSignB : String
  authenticateSocketA : Bool
  authenticateSocketB : Bool
  relayAuthMode : RelayAuthMode
  relayAuthAesKey : Option String
  only443 : Bool
  multipleAcksOk : Bool
  deriving DecidableEq, Repr

/-- `ref` tells one object from another. -/
structure SessionInfo where
  ref : ℕ
  params : SrvdSessionParams
  /-- The session's port-pair worker. -/
  toWorker : Option ℕ
  signingKeys : List String
  ending : Bool
  deriving DecidableEq, Repr

end NoPorts.Srvd
