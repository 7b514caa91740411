import NoPorts.EnrollmentSignatureC

/-! The sessions the C daemon watches, each under the enrollment key its client
signed the request with, and the checks of those keys. -/
namespace NoPorts.CDaemon
open Lib

def clientSessionsMaxKeyChecks : ℕ := 4
def clientSessionsMaxKeyChecksPerAtsign : ℕ := 2
def keyCheckOverrunSecs : ℤ := 120

structure ClientSession where
  sessionId : String
  signingKey : String
  srvPid : ℤ
  ending : Bool
  due : Bool
  deriving DecidableEq, Repr

structure KeyCheck where
  signingKey : String
  pid : ℤ
  started : ℤ
  deriving DecidableEq, Repr

/-- How a child ended: what it exited with, or that a signal ended it. -/
inductive ExitStatus where
  | exited (code : ℕ)
  | signaled
  deriving DecidableEq, Repr

def publicLookupKeyCheckRevoked : ℕ := 10
def publicLookupKeyCheckDeleted : ℕ := 11

structure ClientSessions where
  intervalSecs : ℕ
  nextDue : ℤ
  sessions : List ClientSession
  checks : List KeyCheck
  deriving DecidableEq, Repr

/-- The signals the sessions have sent: which process, and whether it is told to
end or killed. -/
inductive Signal where
  | sigterm (pid : ℤ)
  | sigkill (pid : ℤ)
  deriving DecidableEq, Repr

namespace ClientSessions

def init (checkIntervalSecs : ℕ) : ClientSessions := ⟨checkIntervalSecs, 0, [], []⟩

def findSession (cs : ClientSessions) (sessionId : String) : Option ClientSession :=
  cs.sessions.find? (·.sessionId == sessionId)

def isWatched (cs : ClientSessions) (sessionId : String) : Bool :=
  (cs.findSession sessionId).isSome

/-- A session whose id is watched already is ended at once, and not watched. -/
def track (cs : ClientSessions) (sessionId signingKey : String) (srvPid : ℤ) :
    ClientSessions × List Signal :=
  if cs.isWatched sessionId then (cs, [.sigterm srvPid])
  else ({ cs with sessions := cs.sessions ++ [⟨sessionId, signingKey, srvPid, false, false⟩] }, [])

def isBeingChecked (cs : ClientSessions) (signingKey : String) : Bool :=
  cs.checks.any (·.signingKey == signingKey)

/-- `strrchr(signingKey, '@')`, `none` for NULL. -/
def atsignOf (signingKey : String) : Option (List Char) :=
  if '@' ∈ signingKey.toList then some (fromLast '@' signingKey.toList) else none

/-- One turn of `checks_of_atsign`. `strcmp` reads both atSigns, and crashes the daemon,
which is `none`, when either is NULL. -/
def countCheck (atsign : Option (List Char)) (n : ℕ) (check : KeyCheck) : Option ℕ := do
  let checked ← atsignOf check.signingKey
  let atsign ← atsign
  return if checked = atsign then n + 1 else n

def checksOfAtsign (cs : ClientSessions) (signingKey : String) : Option ℕ :=
  cs.checks.foldlM (countCheck (atsignOf signingKey)) 0

def clearDue (cs : ClientSessions) (signingKey : String) : ClientSessions :=
  { cs with sessions := cs.sessions.map fun s =>
      if s.signingKey == signingKey then { s with due := false } else s }

/-- The loop that starts the checks due, from the `i`th session on; `start` is the
process each `start_key_check` answers with. -/
def startChecks (now : ℤ) (start : String → ℤ) (cs : ClientSessions) (i : ℕ) :
    ℕ → Option ClientSessions
  | 0 => some cs
  | left + 1 =>
    if clientSessionsMaxKeyChecks ≤ cs.checks.length then some cs
    else
      match cs.sessions[i]? with
      | none => some cs
      | some session =>
        if !session.due || session.ending then startChecks now start cs (i + 1) left
        else if cs.isBeingChecked session.signingKey then
          startChecks now start (cs.clearDue session.signingKey) (i + 1) left
        else
          match cs.checksOfAtsign session.signingKey with
          | none => none
          | some n =>
            if clientSessionsMaxKeyChecksPerAtsign ≤ n then startChecks now start cs (i + 1) left
            else
              let cleared := cs.clearDue session.signingKey
              if start session.signingKey ≤ 0 then startChecks now start cleared (i + 1) left
              else
                startChecks now start { cleared with
                  checks := cleared.checks ++
                    [⟨session.signingKey, start session.signingKey, now⟩] } (i + 1) left

/-- The checks that have overrun, each of which is killed. -/
def overrun (cs : ClientSessions) (now : ℤ) : List Signal :=
  (cs.checks.filter fun c => keyCheckOverrunSecs < now - c.started).map (.sigkill ·.pid)

/-- The sessions all due again once the interval has passed. -/
def markDue (cs : ClientSessions) (now : ℤ) : ClientSessions :=
  let nextDue := if cs.nextDue = 0 then now + cs.intervalSecs else cs.nextDue
  if nextDue ≤ now then
    { cs with nextDue := now + cs.intervalSecs,
              sessions := cs.sessions.map fun s => { s with due := true } }
  else { cs with nextDue := nextDue }

/-- `none` when it crashes. -/
def tick (cs : ClientSessions) (now : ℤ) (start : String → ℤ) :
    Option (ClientSessions × List Signal) :=
  if cs.intervalSecs = 0 then some (cs, [])
  else (startChecks now start (cs.markDue now) 0 cs.sessions.length).map (·, cs.overrun now)

/-- `xs[i] = xs[--count]` -/
def removeSwap {α : Type*} (xs : List α) (i : ℕ) : List α :=
  match xs.getLast? with
  | none => xs
  | some last => (xs.set i last).dropLast

/-- Ends the sessions whose key the check found withdrawn. -/
def keyCheckFinished (cs : ClientSessions) (signingKey : String) (status : ExitStatus) :
    ClientSessions × List Signal :=
  let ends (s : ClientSession) : Bool := !s.ending && s.signingKey == signingKey
  if status = .exited publicLookupKeyCheckRevoked ∨ status = .exited publicLookupKeyCheckDeleted then
    ({ cs with sessions := cs.sessions.map fun s => if ends s then { s with ending := true } else s },
      (cs.sessions.filter ends).map (.sigterm ·.srvPid))
  else (cs, [])

def reaped (cs : ClientSessions) (pid : ℤ) (status : ExitStatus) : ClientSessions × List Signal :=
  match cs.sessions.findIdx? (·.srvPid == pid) with
  | some i => ({ cs with sessions := removeSwap cs.sessions i }, [])
  | none =>
    match cs.checks.findIdx? (·.pid == pid), cs.checks.find? (·.pid == pid) with
    | some i, some check =>
      { cs with checks := removeSwap cs.checks i }.keyCheckFinished check.signingKey status
    | _, _ => (cs, [])

end ClientSessions
end NoPorts.CDaemon
