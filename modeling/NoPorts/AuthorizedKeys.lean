import NoPorts.EnrollmentSignature
import NoPorts.Lib.Lines
import NoPorts.Lib.Locked

/-! The edits the Dart daemon makes of one `authorized_keys` file. -/
namespace NoPorts.AuthorizedKeys
open Lib

/-- The daemon's arguments for keys it is sent. -/
structure Config where
  addSshPublicKeys : Bool
  sshPublicKeyPermissions : String
  deriving DecidableEq, Repr

/-- The file, with the texts appended to it as keys. -/
structure KeysFile where
  content : List Char
  added : List (List Char)
  deriving DecidableEq, Repr

/-- Where a call of `_handlePublicKeyNotification` is suspended. -/
inductive NotifyPc where
  | called
  | reading
  /-- The read has taken effect. -/
  | read (authKeysContent : List Char)
  | done
  deriving DecidableEq, Repr

/-- Where a call of `authorizePublicKey` is suspended. -/
inductive AuthorizePc where
  | called
  | waiting
  | reading
  | read (authKeysContent : List Char)
  /-- At the writing of "\n". -/
  | endingLine (authKeysContent : List Char)
  | endedLine (authKeysContent : List Char)
  /-- At the writing of the key. -/
  | appending
  | appended
  | done
  deriving DecidableEq, Repr

/-- Where a call of `deauthorizePublicKey` is suspended. -/
inductive DeauthorizePc where
  | called
  | waiting
  | reading
  | read (content : List Char)
  | rewriting (lines : List (List Char))
  | rewritten
  /-- At the writing of the last "\n". -/
  | closing
  | closed
  | done
  deriving DecidableEq, Repr

inductive Task where
  | notify (value : Option String) (pc : NotifyPc)
  | authorize (sshPublicKey : String) (localSshdPort : ℤ) (sessionId permissions : String)
      (pc : AuthorizePc)
  | deauthorize (sessionId : String) (pc : DeauthorizePc)
  deriving DecidableEq, Repr

def looksLikeKey (sshPublicKey : String) : Bool :=
  ["ecdsa-sha2-nistp", "rsa-sha2-", "ssh-rsa", "ssh-ed25519"].any fun kind =>
    kind.toList.isPrefixOf sshPublicKey.toList

def contains (content : List Char) (sshPublicKey : String) : Bool :=
  (indexOf? sshPublicKey.toList content).isSome

/-- What `_handlePublicKeyNotification` appends. -/
def Config.keyText (d : Config) (sshPublicKey : String) : List Char :=
  (d.sshPublicKeyPermissions ++ (if d.sshPublicKeyPermissions = "" then "" else " ") ++
    sshPublicKey).toList

/-- How a line ends that `authorizePublicKey` has written for a session. -/
def ephemeral (sessionId : String) : List Char := (" sshnp_ephemeral_" ++ sessionId).toList

/-- What `authorizePublicKey` appends. -/
def authorizedText (sshPublicKey : String) (localSshdPort : ℤ) (sessionId permissions : String) :
    List Char :=
  let permissions :=
    if permissions ≠ "" ∧ permissions.toList.head? ≠ some ',' then "," ++ permissions else permissions
  ("command=\"echo \\\"ssh session complete\\\";sleep 20\",PermitOpen=\"localhost:" ++
    toString localSshdPort ++ "\"" ++ permissions ++ " " ++ Signing.trim sshPublicKey).toList ++
    ephemeral sessionId ++ ['\n']

/-- `endsWith('\n')` -/
def endsWithNewline (content : List Char) : Bool := content.getLast? == some '\n'

namespace Config
variable (d : Config)

/-- `_handlePublicKeyNotification`, which takes no lock. -/
def notify (value : Option String) (file : KeysFile) : NotifyPc → Option (KeysFile × NotifyPc)
  | .called =>
    match value with
    | some sshPublicKey =>
      some (file, if d.addSshPublicKeys && looksLikeKey sshPublicKey then .reading else .done)
    | none => some (file, .done)
  | .reading => some (file, .read file.content)
  | .read authKeysContent =>
    match value with
    | some sshPublicKey =>
      -- a synchronous write: nothing comes between the check and the append
      if contains authKeysContent sshPublicKey then some (file, .done)
      else some (⟨file.content ++ d.keyText sshPublicKey, file.added ++ [d.keyText sshPublicKey]⟩, .done)
    | none => none
  | .done => none

end Config

/-- From the check for the key on; without it the lock is given back at once. -/
def appendUnlessContained (sshPublicKey : String) (authKeysContent : List Char) : AuthorizePc :=
  if contains authKeysContent sshPublicKey then .done else .appending

def authorizePublicKey (sshPublicKey : String) (localSshdPort : ℤ) (sessionId permissions : String)
    (file : KeysFile) : AuthorizePc → Option (KeysFile × AuthorizePc)
  | .called => some (file, if looksLikeKey sshPublicKey then .waiting else .done)
  | .waiting => some (file, .reading)
  | .reading => some (file, .read file.content)
  | .read authKeysContent =>
    some (file, if endsWithNewline authKeysContent then
      appendUnlessContained sshPublicKey authKeysContent else .endingLine authKeysContent)
  | .endingLine authKeysContent =>
    some ({ file with content := file.content ++ ['\n'] }, .endedLine authKeysContent)
  | .endedLine authKeysContent => some (file, appendUnlessContained sshPublicKey authKeysContent)
  | .appending =>
    let text := authorizedText sshPublicKey localSshdPort sessionId permissions
    some (⟨file.content ++ text, file.added ++ [text]⟩, .appended)
  | .appended => some (file, .done)
  | .done => none

def deauthorizePublicKey (sessionId : String) (file : KeysFile) :
    DeauthorizePc → Option (KeysFile × DeauthorizePc)
  | .called => some (file, .waiting)
  | .waiting => some (file, .reading)
  | .reading => some (file, .read file.content)
  | .read content =>
    some (file, .rewriting ((lines content).filter fun line => !(ephemeral sessionId).isSuffixOf line))
  | .rewriting lines => some ({ file with content := joinLines lines }, .rewritten)
  | .rewritten => some (file, .closing)
  | .closing => some ({ file with content := file.content ++ ['\n'] }, .closed)
  | .closed => some (file, .done)
  | .done => none

namespace Task

def waits : Task → Bool
  | authorize _ _ _ _ pc => pc == .waiting
  | deauthorize _ pc => pc == .waiting
  | notify _ _ => false

/-- Within `_editAuthorizedKeys`. -/
def holds : Task → Bool
  | authorize _ _ _ _ pc => !(pc == .called || pc == .waiting || pc == .done)
  | deauthorize _ pc => !(pc == .called || pc == .waiting || pc == .done)
  | notify _ _ => false

def isDone : Task → Bool
  | notify _ pc => pc == .done
  | authorize _ _ _ _ pc => pc == .done
  | deauthorize _ pc => pc == .done

/-- The call, with nothing done yet. -/
def call : Task → Task
  | notify value _ => notify value .called
  | authorize sshPublicKey localSshdPort sessionId permissions _ =>
    authorize sshPublicKey localSshdPort sessionId permissions .called
  | deauthorize sessionId _ => deauthorize sessionId .called

end Task

def Config.resume (d : Config) (file : KeysFile) : Task → Unit → Option (KeysFile × Task)
  | .notify value pc, _ => (d.notify value file pc).map fun r => (r.1, .notify value r.2)
  | .authorize sshPublicKey localSshdPort sessionId permissions pc, _ =>
    (authorizePublicKey sshPublicKey localSshdPort sessionId permissions file pc).map fun r =>
      (r.1, .authorize sshPublicKey localSshdPort sessionId permissions r.2)
  | .deauthorize sessionId pc, _ =>
    (deauthorizePublicKey sessionId file pc).map fun r => (r.1, .deauthorize sessionId r.2)

/-- Calls interleaved at their awaits; an asynchronous read or write takes effect in a step of
its own before the call that awaits it goes on. -/
def Config.edits (d : Config) : Locked KeysFile Task Unit := ⟨Task.waits, Task.holds, d.resume⟩

abbrev State := Locked.State KeysFile Task

/-- A file with the calls still to be made. -/
def start (content : List Char) (calls : List Task) : State := ⟨⟨content, []⟩, calls.map Task.call⟩

end NoPorts.AuthorizedKeys
