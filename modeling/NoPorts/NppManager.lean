import NoPorts.NppDecision
import NoPorts.Lib.Locked

/-! The manager's requests to the policy service: `handleRequest` and
`stopChanges` calls as tasks over one cache, each suspended at its awaits. -/
namespace NoPorts.Npp
open Lib

inductive AtRpcRespType where
  | success | error
  deriving DecidableEq, Repr

structure AtRpcReq where
  reqId : ℤ
  payload : List (String × Json)

structure AtRpcResp where
  reqId : ℤ
  respType : AtRpcRespType
  message : Option String
  payload : List (String × Json)

/-- The events of a manager's request, without the policy service's own atSign
and the time. A `target` that is not a text stands as the payload has it. -/
inductive PolicyEvent where
  | managerRequestRefused (fromAtsign : String) (reqId : ℤ)
  | ruleChanged (fromAtsign : String) (reqId : ℤ) (operation : String) (target : Json)
      (rule : List (String × Json))
  | ruleChangeFailed (fromAtsign : String) (reqId : ℤ) (operation : String) (target : Json)
      (rule : List (String × Json)) (error : String)

/-- `packageVersion` -/
def coreVersion : String := "7.0.0"

/-- What one `ManagerRpcCallbacks` is made with. Its hooks are kept as whether
each is there; what they do is an input of the run. -/
structure ManagerRpcCallbacks where
  currentAtSign : String
  binariesVersion : String
  toAtsign : String → Option String
  doAuthCheck : NppCache → NPAAuthCheckRequest → Except Thrown NPAAuthCheckResponse
  prePut : Kind → Bool
  postPut : Kind → Bool
  preDelete : Kind → Bool

/-- The data all calls share. `events` are those handed to `onEvent`, in order. -/
structure Shared where
  cache : NppCache
  stopping : Bool
  events : List PolicyEvent

/-- What a suspended task is resumed with: how the call it awaited ended, the
next id given out, and the time. -/
structure Wake where
  outcome : Except String Unit
  newId : String
  now : String

/-- A put or delete let through to the lock. -/
structure Change where
  reqId : ℤ
  fromAtSign : String
  operation : String
  payload : List (String × Json)

/-- A delete on its way: the rule asked for, its id, the rules naming it that
are still to go, and the response's `removed` so far. -/
structure Deletion where
  entry : PolicyEntry
  id : String
  links : List PolicyEntry
  removed : List Json

inductive Task where
  | call (req : AtRpcReq) (fromAtSign : String)
  /-- At `onEvent` for a sender refused. -/
  | refusing (reqId : ℤ)
  /-- At `doAuthCheck`, which has its result. -/
  | checking (reqId : ℤ) (result : Except Thrown NPAAuthCheckResponse)
  | acquiring (c : Change)
  /-- At the pre-put hook. -/
  | putting (c : Change) (e : PolicyEntry)
  /-- At the post-put hook. -/
  | stored (c : Change) (e : PolicyEntry)
  /-- At the pre-delete hook of the next link, or of the rule itself. -/
  | deleting (c : Change) (d : Deletion)
  /-- At `logRemoved`. -/
  | logging (c : Change) (d : Deletion)
  /-- At `logChange`. -/
  | reporting (result : Except Thrown AtRpcResp)
  | finished (result : Except Thrown AtRpcResp)
  | stopChanges
  | stopped

/-- The key of an answer to a put, and of a delete's `value`, that holds the id. -/
def Kind.idKey : Kind → String
  | client => "clientId"
  | clientGroup => "clientGroupId"
  | clientGroupMember => "clientGroupMemberId"
  | daemon => "daemonId"
  | service => "serviceId"
  | serviceACL => "serviceACLId"

/-- What the answer to a put calls the kind. -/
def Kind.described : Kind → String
  | client => "Client"
  | clientGroup => "Client group"
  | clientGroupMember => "Client group member"
  | daemon => "Daemon"
  | service => "Service"
  | serviceACL => "Service ACL"

def answer (reqId : ℤ) (success : Bool) (message : String) (payload : List (String × Json)) :
    AtRpcResp :=
  ⟨reqId, if success then .success else .error, some message, payload⟩

/-! Reads. -/

/-- The rules a `get` lists, and the word its message uses for them. -/
def listed (c : NppCache) (target : String) : Option (String × List (List (String × Json))) :=
  if target = "allClients" then some ("Clients", c.clients.map (·.toJson))
  else if target = "allClientGroups" then some ("ClientGroups", c.clientGroups.map (·.toJson))
  else if target = "allClientGroupMembers" then
    some ("ClientGroupMembers", c.clientGroupMembers.map (·.toJson))
  else if target = "allDaemons" then some ("daemons", c.daemons.map (·.toJson))
  else if target = "allServices" then some ("services", c.services.map (·.toJson))
  else if target = "allServiceACLs" then some ("ServiceACLs", c.serviceACLs.map (·.toJson))
  else none

def get (c : NppCache) (reqId : ℤ) (target : Option String) : AtRpcResp :=
  match target with
  | none => answer reqId false "target JSON key was not found in the payload." []
  | some target =>
    match listed c target with
    | none => answer reqId false ("Unknown target for get operation: " ++ target) []
    | some (word, items) =>
      answer reqId true (toString items.length ++ " " ++ word ++ " found.")
        [("amount", .int items.length), ("list", .arr (items.map .obj))]

def checked (reqId : ℤ) (result : Except Thrown NPAAuthCheckResponse) : AtRpcResp :=
  match result with
  | .ok response => answer reqId true "Auth check completed." response.toJson
  | .error e => answer reqId false ("Failed to check auth: " ++ e.text) []

namespace ManagerRpcCallbacks
variable (m : ManagerRpcCallbacks)

/-- `_handleRequest` for anything but a put or a delete, to its end or to its
await of `doAuthCheck`. -/
def handleRead (cache : NppCache) (req : AtRpcReq) (now : String) : Task :=
  if (req.payload.lookup "operation").isNone then
    .finished (.ok (answer req.reqId false "operation JSON key was not found in the payload." []))
  else
    match (do
      let operation ← asString (Json.field req.payload "operation")
      let target ← asString? (Json.field req.payload "target")
      return (operation, target)) with
    | .error e => .finished (.error e)
    | .ok (operation, target) =>
      if operation = "ping" then
        .finished (.ok (answer req.reqId true "pong"
          [("status", .str "alive"), ("coreVersion", .str coreVersion),
            ("binariesVersion", .str m.binariesVersion), ("timestamp", .str now)]))
      else if operation = "simulate" then
        match NPAAuthCheckRequest.fromJson req.payload with
        | .error e => .finished (.ok (checked req.reqId (.error e)))
        | .ok r => .checking req.reqId (m.doAuthCheck cache r)
      else if operation = "get" then .finished (.ok (get cache req.reqId target))
      else .finished (.ok (answer req.reqId false ("Unknown operation: " ++ operation) []))

/-! Events. -/

/-- `_sendEvent`: an event that cannot be built is not sent. -/
def sendEvent (s : Shared) (fromAtSign : String) (build : String → PolicyEvent) : Shared :=
  match m.toAtsign fromAtSign with
  | some fromAtsign => { s with events := s.events ++ [build fromAtsign] }
  | none => s

def logRemoved (s : Shared) (c : Change) (e : PolicyEntry) : Shared :=
  m.sendEvent s c.fromAtSign fun sender =>
    .ruleChanged sender c.reqId "delete" (.str e.kind.target) e.toJson

def logChange (s : Shared) (c : Change) (rule : List (String × Json)) (error : Option String) :
    Shared :=
  m.sendEvent s c.fromAtSign fun sender =>
    match error with
    | none => .ruleChanged sender c.reqId c.operation (Json.field c.payload "target") rule
    | some error =>
      .ruleChangeFailed sender c.reqId c.operation (Json.field c.payload "target") rule error

/-- A change ends: its event is sent, and its response or error kept for after. -/
def conclude (s : Shared) (c : Change) (rule : List (String × Json))
    (result : Except Thrown AtRpcResp) : Shared × Task :=
  let error := match result with
    | .error e => some e.text
    | .ok response =>
      if response.respType = .error then some (response.message.getD "no message") else none
  (m.logChange s c rule error, .reporting result)

/-! Puts. -/

/-- A put refused before it changed anything. -/
def refusePut (s : Shared) (c : Change) (rule : List (String × Json)) (message : String) :
    Shared × Task :=
  m.conclude s c rule (.ok (answer c.reqId false message []))

def failedToStore : PolicyEntry → String
  | .client x => "Failed to store client with atSign: " ++ x.atSign
  | .clientGroup g => "Failed to store client group with name: " ++ g.name
  | .clientGroupMember x => "Failed to store client group member: clientId=" ++ x.clientId ++
      " clientGroupId=" ++ x.clientGroupId
  | .daemon d => "Failed to store daemon with atSign: " ++ d.atSign
  | .service s => "Failed to store service: deviceName=" ++ s.deviceName ++
      " daemonId=" ++ s.daemonId
  | .serviceACL a => "Failed to store service ACL: serviceId=" ++ a.serviceId ++
      " clientGroupId=" ++ a.clientGroupId ++ " permitOpen=" ++ a.permitOpen

def concludePut (s : Shared) (c : Change) (e : PolicyEntry) : Shared × Task :=
  m.conclude s c e.toJson (.ok (answer c.reqId true (e.kind.described ++ " stored successfully.")
    [("success", .bool true), (e.kind.idKey, .ofStr? e.id)]))

/-- From the pre-put hook to the post-put hook. -/
def store (s : Shared) (c : Change) (e : PolicyEntry) (newId : String) : Shared × Task :=
  match s.cache.put newId e with
  | .error t => m.conclude s c e.toJson (.error t)
  | .ok (false, cache) => m.refusePut { s with cache := cache } c e.toJson (failedToStore e)
  | .ok (true, cache) =>
    if m.postPut e.kind then ({ s with cache := cache }, .stored c e)
    else m.concludePut { s with cache := cache } c e

/-- A rule read from the request, checked and given its id, on to the hook. -/
def putEntry (s : Shared) (c : Change) (e : PolicyEntry) (newId : String) : Shared × Task :=
  let missing := s.cache.missingReferences e
  if missing ≠ [] then
    m.refusePut s c e.toJson ("No " ++ " or ".intercalate missing ++ ", so nothing is put.")
  else
    let e := e.setId newId
    match s.cache.checkPut e with
    | .error t => m.conclude s c e.toJson (.error t)
    | .ok () => if m.prePut e.kind then (s, .putting c e) else m.store s c e newId

/-- The `put` case, from the request to its first await. -/
def put (s : Shared) (c : Change) (newId : String) : Shared × Task :=
  match asString? (Json.field c.payload "target") with
  | .error t => m.conclude s c [] (.error t)
  | .ok target =>
    match target, c.payload.lookup "value" with
    | some target, some value =>
      match asMap value with
      | .error t => m.conclude s c [] (.error t)
      | .ok valueAsMap =>
        if ¬(Json.field valueAsMap "id").isNull then
          m.refusePut s c [] "A put must not name an id: npp gives each new rule one."
        else
          match Kind.ofTarget? target with
          | none => m.refusePut s c [] ("Unknown target for put operation: " ++ target)
          | some kind =>
            match PolicyEntry.fromJson kind valueAsMap with
            | .error t => m.conclude s c [] (.error t)
            | .ok e => m.putEntry s c e newId
    | _, _ => m.refusePut s c [] "target or value JSON keys was not found in the payload."

/-! Deletes. -/

/-- The response to a delete that got as far as its `removed` list. -/
def concludeDelete (s : Shared) (c : Change) (rule : List (String × Json)) (removed : List Json)
    (error : Option String) (done : String) : Shared × Task :=
  m.conclude s c rule (.ok (answer c.reqId error.isNone (error.getD done)
    [("removed", .arr removed), ("success", .bool error.isNone)]))

/-- The rules naming the rule of `kind` under `id` that are deleted with it. -/
def links (cache : NppCache) (kind : Kind) (id : String) : List PolicyEntry :=
  match kind with
  | .client => (cache.getClientGroupMembersByClientId id).map .clientGroupMember
  | .clientGroup =>
    (cache.getClientGroupMembersByClientGroupId id).map .clientGroupMember ++
      (cache.getServiceACLsByClientGroupId id).map .serviceACL
  | .service => (cache.getServiceACLsByServiceID id).map .serviceACL
  | _ => []

/-- Why a delete is refused before anything goes: only a daemon's can be. -/
def heldBack (cache : NppCache) (kind : Kind) (id : String) : Option String :=
  let services := (cache.getServicesByDaemonId id).length
  if kind = .daemon ∧ services > 0 then
    some ("Daemon with id " ++ id ++ " is named by " ++ toString services ++ " " ++
      (if services = 1 then "service" else "services") ++ ", so it is not deleted. Delete " ++
      (if services = 1 then "it" else "them") ++ " first.")
  else none

/-- The `delete` case, from the request to its first await. -/
def delete (s : Shared) (c : Change) : Shared × Task :=
  match asString? (Json.field c.payload "target") with
  | .error t => m.conclude s c [] (.error t)
  | .ok target =>
    match target, c.payload.lookup "value" with
    | some target, some value =>
      match asMap value with
      | .error t => m.conclude s c [] (.error t)
      | .ok valueAsMap =>
        match Kind.ofTarget? target with
        | none =>
          m.concludeDelete s c [] [] (some ("Unknown target for delete operation: " ++ target)) ""
        | some kind =>
          match (do
            let id ← asString (Json.field valueAsMap kind.idKey)
            return (id, ← s.cache.getById kind id)) with
          | .error t => m.conclude s c [] (.error t)
          | .ok (id, entry) =>
            match heldBack s.cache kind id with
            | some error => m.concludeDelete s c entry.toJson [] (some error) ""
            | none => (s, .deleting c ⟨entry, id, links s.cache kind id, []⟩)
    | _, _ => m.refusePut s c [] "target or value JSON keys was not found in the payload."

/-- From a pre-delete hook that let the rule go to `logRemoved`, or to the end. -/
def removeNext (s : Shared) (c : Change) (d : Deletion) : Shared × Task :=
  match d.links with
  | link :: rest =>
    match link.id with
    | none => m.conclude s c d.entry.toJson (.error .typeError)
    | some id =>
      match s.cache.delete link.kind id with
      | .error t => m.conclude s c d.entry.toJson (.error t)
      | .ok (_, cache) =>
        (m.logRemoved { s with cache := cache } c link,
          .logging c { d with
            links := rest
            removed := d.removed ++ [.obj [("target", .str link.kind.target), ("id", .str id)]] })
  | [] =>
    match s.cache.delete d.entry.kind d.id with
    | .error t => m.conclude s c d.entry.toJson (.error t)
    | .ok (_, cache) =>
      m.concludeDelete { s with cache := cache } c d.entry.toJson d.removed none
        (d.entry.kind.target ++ " with id " ++ d.id ++ " deleted successfully.")

/-- The kind whose pre-delete hook a delete is at. -/
def Deletion.next (d : Deletion) : Kind :=
  match d.links with
  | link :: _ => link.kind
  | [] => d.entry.kind

def deleteNext (s : Shared) (c : Change) (d : Deletion) (outcome : Except String Unit) :
    Shared × Task :=
  match (if m.preDelete (Deletion.next d) then outcome else .ok ()) with
  | .error e =>
    m.concludeDelete s c d.entry.toJson d.removed (some ("Pre-operation hook failed: " ++ e)) ""
  | .ok () => m.removeNext s c d

/-! The machine. -/

/-- The body of `_changes.protect`, to its first await. -/
def change (s : Shared) (c : Change) (newId : String) : Shared × Task :=
  if s.stopping then
    m.conclude s c [] (.ok (answer c.reqId false "npp is stopping" [("success", .bool false)]))
  else if c.operation = "put" then m.put s c newId
  else m.delete s c

def handleRequest (s : Shared) (req : AtRpcReq) (fromAtSign : String) (w : Wake) :
    Shared × Task :=
  if fromAtSign ≠ m.currentAtSign then
    (m.sendEvent s fromAtSign fun sender => .managerRequestRefused sender req.reqId,
      .refusing req.reqId)
  else
    match (Json.field req.payload "operation").str? with
    | some operation =>
      if operation = "put" ∨ operation = "delete" then
        (s, .acquiring ⟨req.reqId, fromAtSign, operation, req.payload⟩)
      else (s, m.handleRead s.cache req w.now)
    | none => (s, m.handleRead s.cache req w.now)

def resume (s : Shared) (t : Task) (w : Wake) : Option (Shared × Task) :=
  match t with
  | .call req fromAtSign => some (m.handleRequest s req fromAtSign w)
  | .refusing reqId =>
    some (s, .finished (.ok (answer reqId false "Unauthorized atSign" [("success", .bool false)])))
  | .checking reqId result => some (s, .finished (.ok (checked reqId result)))
  | .acquiring c => some (m.change s c w.newId)
  | .putting c e =>
    match w.outcome with
    | .error e' => some (m.refusePut s c e.toJson ("Pre-operation hook failed: " ++ e'))
    | .ok () => some (m.store s c e w.newId)
  | .stored c e => some (m.concludePut s c e)
  | .deleting c d => some (m.deleteNext s c d w.outcome)
  | .logging c d => some (s, .deleting c d)
  | .reporting result => some (s, .finished result)
  | .stopChanges => some ({ s with stopping := true }, .stopped)
  | .finished _ => none
  | .stopped => none

def waits : Task → Bool
  | .acquiring _ | .stopChanges => true
  | _ => false

/-- The lock is held from its acquisition until the change's event is sent. -/
def holds : Task → Bool
  | .putting _ _ | .stored _ _ | .deleting _ _ | .logging _ _ | .reporting _ => true
  | _ => false

def tasks : Locked Shared Task Wake := ⟨waits, holds, m.resume⟩

end ManagerRpcCallbacks
end NoPorts.Npp
