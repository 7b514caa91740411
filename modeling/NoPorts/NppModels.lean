import NoPorts.Lib.Json
import NoPorts.Lib.Except

/-! The policy service's six kinds of rule, as its models hold them and read
them from JSON. -/
namespace NoPorts.Npp
open Lib

/-- What the policy code throws. The runtime's own wording of a failed cast is
not modelled. -/
inductive Thrown where
  | typeError
  | noElement
  | exception (message : String)
  deriving DecidableEq, Repr

def Thrown.text : Thrown → String
  | typeError => "TypeError"
  | noElement => "Bad state: No element"
  | exception message => "Exception: " ++ message

/-- `json as String` -/
def asString (j : Json) : Except Thrown String :=
  match j.str? with
  | some s => .ok s
  | none => .error .typeError

/-- `json as String?` -/
def asString? (j : Json) : Except Thrown (Option String) :=
  if j.isNull then .ok none else some <$> asString j

/-- `json as Map<String, dynamic>` -/
def asMap (j : Json) : Except Thrown (List (String × Json)) :=
  match j.obj? with
  | some fields => .ok fields
  | none => .error .typeError

structure Client where
  id : Option String
  name : String
  atSign : String
  deriving DecidableEq, Repr

structure ClientGroup where
  id : Option String
  name : String
  deriving DecidableEq, Repr

structure ClientGroupMember where
  id : Option String
  clientId : String
  clientGroupId : String
  deriving DecidableEq, Repr

structure Daemon where
  id : Option String
  atSign : String
  deriving DecidableEq, Repr

structure Service where
  id : Option String
  daemonId : String
  deviceName : String
  deviceGroupName : String
  deriving DecidableEq, Repr

structure ServiceACL where
  id : Option String
  serviceId : String
  clientGroupId : String
  permitOpen : String
  deriving DecidableEq, Repr

def Client.fromJson (json : List (String × Json)) : Except Thrown Client := do
  return { id := ← asString? (Json.field json "id")
           name := ← asString (Json.field json "name")
           atSign := ← asString (Json.field json "atSign") }

def ClientGroup.fromJson (json : List (String × Json)) : Except Thrown ClientGroup := do
  return { id := ← asString? (Json.field json "id")
           name := ← asString (Json.field json "name") }

def ClientGroupMember.fromJson (json : List (String × Json)) :
    Except Thrown ClientGroupMember := do
  return { id := ← asString? (Json.field json "id")
           clientId := ← asString (Json.field json "clientId")
           clientGroupId := ← asString (Json.field json "clientGroupId") }

def Daemon.fromJson (json : List (String × Json)) : Except Thrown Daemon := do
  return { id := ← asString? (Json.field json "id")
           atSign := ← asString (Json.field json "atSign") }

def Service.fromJson (json : List (String × Json)) : Except Thrown Service := do
  return { id := ← asString? (Json.field json "id")
           daemonId := ← asString (Json.field json "daemonId")
           deviceName := ← asString (Json.field json "deviceName")
           deviceGroupName := ← asString (Json.field json "deviceGroupName") }

def ServiceACL.fromJson (json : List (String × Json)) : Except Thrown ServiceACL := do
  return { id := ← asString? (Json.field json "id")
           serviceId := ← asString (Json.field json "serviceId")
           clientGroupId := ← asString (Json.field json "clientGroupId")
           permitOpen := ← asString (Json.field json "permitOpen") }

def Client.toJson (c : Client) : List (String × Json) :=
  [("id", .ofStr? c.id), ("name", .str c.name), ("atSign", .str c.atSign)]

def ClientGroup.toJson (g : ClientGroup) : List (String × Json) :=
  [("id", .ofStr? g.id), ("name", .str g.name)]

def ClientGroupMember.toJson (m : ClientGroupMember) : List (String × Json) :=
  [("id", .ofStr? m.id), ("clientId", .str m.clientId), ("clientGroupId", .str m.clientGroupId)]

def Daemon.toJson (d : Daemon) : List (String × Json) :=
  [("id", .ofStr? d.id), ("atSign", .str d.atSign)]

def Service.toJson (s : Service) : List (String × Json) :=
  [("id", .ofStr? s.id), ("daemonId", .str s.daemonId), ("deviceName", .str s.deviceName),
    ("deviceGroupName", .str s.deviceGroupName)]

def ServiceACL.toJson (a : ServiceACL) : List (String × Json) :=
  [("id", .ofStr? a.id), ("serviceId", .str a.serviceId),
    ("clientGroupId", .str a.clientGroupId), ("permitOpen", .str a.permitOpen)]

inductive Kind where
  | client | clientGroup | clientGroupMember | daemon | service | serviceACL
  deriving DecidableEq, Repr

/-- The name a request's `target` gives the kind. -/
def Kind.target : Kind → String
  | client => "Client"
  | clientGroup => "ClientGroup"
  | clientGroupMember => "ClientGroupMember"
  | daemon => "Daemon"
  | service => "Service"
  | serviceACL => "ServiceACL"

def Kind.all : List Kind :=
  [.client, .clientGroup, .clientGroupMember, .daemon, .service, .serviceACL]

def Kind.ofTarget? (target : String) : Option Kind := Kind.all.find? (·.target == target)

/-- A rule of any kind: the subclasses of the source's `PolicyEntry`. -/
inductive PolicyEntry where
  | client (c : Client)
  | clientGroup (g : ClientGroup)
  | clientGroupMember (m : ClientGroupMember)
  | daemon (d : Daemon)
  | service (s : Service)
  | serviceACL (a : ServiceACL)
  deriving DecidableEq, Repr

namespace PolicyEntry

def kind : PolicyEntry → Kind
  | client _ => .client
  | clientGroup _ => .clientGroup
  | clientGroupMember _ => .clientGroupMember
  | daemon _ => .daemon
  | service _ => .service
  | serviceACL _ => .serviceACL

def id : PolicyEntry → Option String
  | client c => c.id
  | clientGroup g => g.id
  | clientGroupMember m => m.id
  | daemon d => d.id
  | service s => s.id
  | serviceACL a => a.id

def setId (i : String) : PolicyEntry → PolicyEntry
  | client c => client { c with id := some i }
  | clientGroup g => clientGroup { g with id := some i }
  | clientGroupMember m => clientGroupMember { m with id := some i }
  | daemon d => daemon { d with id := some i }
  | service s => service { s with id := some i }
  | serviceACL a => serviceACL { a with id := some i }

def fromJson (kind : Kind) (json : List (String × Json)) : Except Thrown PolicyEntry :=
  match kind with
  | .client => client <$> Client.fromJson json
  | .clientGroup => clientGroup <$> ClientGroup.fromJson json
  | .clientGroupMember => clientGroupMember <$> ClientGroupMember.fromJson json
  | .daemon => daemon <$> Daemon.fromJson json
  | .service => service <$> Service.fromJson json
  | .serviceACL => serviceACL <$> ServiceACL.fromJson json

def toJson : PolicyEntry → List (String × Json)
  | client c => c.toJson
  | clientGroup g => g.toJson
  | clientGroupMember m => m.toJson
  | daemon d => d.toJson
  | service s => s.toJson
  | serviceACL a => a.toJson

/-- A kind and an id, which is how rules name one another. -/
abbrev Key := Kind × Option String

def key (e : PolicyEntry) : Key := (e.kind, e.id)

/-- The rules an entry names. -/
def names : PolicyEntry → List Key
  | clientGroupMember m => [(.client, some m.clientId), (.clientGroup, some m.clientGroupId)]
  | service s => [(.daemon, some s.daemonId)]
  | serviceACL a => [(.service, some a.serviceId), (.clientGroup, some a.clientGroupId)]
  | _ => []

/-- What, besides its id, no other rule of its kind may share with an entry. -/
def distinctive : PolicyEntry → Kind × List String
  | client c => (.client, [c.atSign])
  | clientGroup g => (.clientGroup, [g.name])
  | clientGroupMember m => (.clientGroupMember, [m.clientId, m.clientGroupId])
  | daemon d => (.daemon, [d.atSign])
  | service s => (.service, [s.daemonId, s.deviceName, s.deviceGroupName])
  | serviceACL a => (.serviceACL, [a.clientGroupId, a.serviceId, a.permitOpen])

@[simp] theorem kind_setId (e : PolicyEntry) (i : String) : (e.setId i).kind = e.kind := by
  cases e <;> rfl

@[simp] theorem id_setId (e : PolicyEntry) (i : String) : (e.setId i).id = some i := by
  cases e <;> rfl

@[simp] theorem names_setId (e : PolicyEntry) (i : String) : (e.setId i).names = e.names := by
  cases e <;> rfl

end PolicyEntry
end NoPorts.Npp
