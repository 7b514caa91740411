import NoPorts.GroupReplicas
import NoPorts.SrvdModels
import NoPorts.Lib.Except

/-! The parameters of a client session, and the config files they are saved in: sshnp_arg.dart,
sshnp_params.dart and config_file_repository.dart. -/
namespace NoPorts.SshnpParams
open Lib
open Srvd (RelayAuthMode)
open GroupReplicas (intParse)

/-! ### sshnp_arg.dart -/

inductive ArgFormat where
  | option
  | multiOption
  | flag
  deriving DecidableEq, Repr

inductive ArgType where
  | string
  | integer
  deriving DecidableEq, Repr

inductive ParseWhen where
  | always
  | commandLine
  | configFile
  | never
  deriving DecidableEq, Repr

inductive ParserType where
  | all
  | commandLine
  | configFile
  deriving DecidableEq, Repr

def ParserType.allowList : ParserType → List ParseWhen
  | all => [.always, .commandLine, .configFile]
  | commandLine => [.always, .commandLine]
  | configFile => [.always, .configFile]

def ParserType.shouldParse (t : ParserType) (parseWhen : ParseWhen) : Bool := t.allowList.contains parseWhen

/-- `SupportedSshAlgorithm` -/
inductive SshAlgorithm where
  | ed25519
  | rsa
  deriving DecidableEq, Repr

structure SshnpArg where
  name : String
  abbr : Option String := none
  mandatory : Bool := false
  format : ArgFormat := .option
  type : ArgType := .string
  allowed : Option (List String) := none
  parseWhen : ParseWhen := .always
  aliases : List String := []
  negatable : Bool := true
  deriving DecidableEq, Repr

def SshnpArg.bashName (arg : SshnpArg) : String :=
  String.ofList (arg.name.toList.map fun c => (if c = '-' then '_' else c).toUpper)

def SshnpArg.noArg : SshnpArg where name := ""

def profileNameArg : SshnpArg where
  name := "profile-name"
  parseWhen := .configFile
def helpArg : SshnpArg where
  name := "help"
  format := .flag
  parseWhen := .commandLine
  negatable := false
def keyFileArg : SshnpArg where
  name := "key-file"
  abbr := some "k"
  parseWhen := .commandLine
def passPhraseArg : SshnpArg where
  name := "pass-phrase"
  aliases := ["passPhrase"]
  abbr := some "P"
def fromArg : SshnpArg where
  name := "from"
  abbr := some "f"
  mandatory := true
def toArg : SshnpArg where
  name := "to"
  abbr := some "t"
def deviceArg : SshnpArg where
  name := "device"
  abbr := some "d"
def srvdArg : SshnpArg where
  name := "srvd"
  abbr := some "r"
def legacySrvdArg : SshnpArg where
  name := "host"
  abbr := some "h"
def localPortArg : SshnpArg where
  name := "local-port"
  abbr := some "l"
  type := .integer
def identityFileArg : SshnpArg where
  name := "identity-file"
  abbr := some "i"
  parseWhen := .commandLine
def identityPassphraseArg : SshnpArg where
  name := "identity-passphrase"
  parseWhen := .commandLine
def sendSshPublicKeyArg : SshnpArg where
  name := "send-ssh-public-key"
  abbr := some "s"
  format := .flag
  negatable := false
def localSshOptionsArg : SshnpArg where
  name := "local-ssh-options"
  abbr := some "o"
  format := .multiOption
def verboseArg : SshnpArg where
  name := "verbose"
  abbr := some "v"
  format := .flag
  negatable := false
  parseWhen := .commandLine
def remoteUserNameArg : SshnpArg where
  name := "remote-user-name"
  abbr := some "u"
def tunnelUserNameArg : SshnpArg where
  name := "tunnel-user-name"
  abbr := some "U"
def rootServerArg : SshnpArg where
  name := "root-server"
  aliases := ["root-domain", "rootDomain"]
def remoteSshdPortArg : SshnpArg where
  name := "remote-sshd-port"
  type := .integer
def idleTimeoutArg : SshnpArg where
  name := "idle-timeout"
  type := .integer
  parseWhen := .commandLine
def sshAlgorithmArg : SshnpArg where
  name := "ssh-algorithm"
  allowed := some ["ssh-ed25519", "ssh-rsa"]
  parseWhen := .commandLine
def addForwardsToTunnelArg : SshnpArg where
  name := "add-forwards-to-tunnel"
  format := .flag
  parseWhen := .commandLine
  negatable := false
def configFileArg : SshnpArg where
  name := "config-file"
  parseWhen := .commandLine
def listDevicesArg : SshnpArg where
  name := "list-devices"
  format := .flag
  aliases := ["ls"]
  negatable := false
  parseWhen := .commandLine
def authenticateClientToRvdArg : SshnpArg where
  name := "authenticate-client-to-rvd"
  aliases := ["ac"]
  format := .flag
def authenticateDeviceToRvdArg : SshnpArg where
  name := "authenticate-device-to-rvd"
  aliases := ["ad"]
  format := .flag
def encryptRvdTrafficArg : SshnpArg where
  name := "encrypt-rvd-traffic"
  aliases := ["et"]
  format := .flag
def relayAuthModeArg : SshnpArg where
  name := "relay-auth-mode"
  aliases := ["ram"]
  allowed := some ["payload", "escr"]
def daemonPingTimeoutArg : SshnpArg where
  name := "daemon-ping-timeout"
  aliases := ["dpt"]
  type := .integer
  parseWhen := .commandLine
def only443Arg : SshnpArg where
  name := "443"
  format := .flag

def SshnpArg.args : List SshnpArg :=
  [profileNameArg, helpArg, keyFileArg, passPhraseArg, fromArg, toArg, deviceArg, srvdArg, legacySrvdArg,
    localPortArg, identityFileArg, identityPassphraseArg, sendSshPublicKeyArg, localSshOptionsArg, verboseArg,
    remoteUserNameArg, tunnelUserNameArg, rootServerArg, remoteSshdPortArg, idleTimeoutArg, sshAlgorithmArg,
    addForwardsToTunnelArg, configFileArg, listDevicesArg, authenticateClientToRvdArg, authenticateDeviceToRvdArg,
    relayAuthModeArg, encryptRvdTrafficArg, daemonPingTimeoutArg, only443Arg]

def SshnpArg.fromName (name : String) : SshnpArg := (args.find? fun arg => arg.name = name).getD noArg

def SshnpArg.fromBashName (bashName : String) : SshnpArg := (args.find? fun arg => arg.bashName = bashName).getD noArg

/-! ### Values -/

/-- A value of an argument map that is not null. -/
inductive ArgValue where
  | string (s : String)
  | int (n : Int64)
  | bool (b : Bool)
  | strings (xs : List String)
  deriving DecidableEq, Repr

/-- A `Map<String, dynamic>`; `none` for a key that is absent or has null. -/
def ArgMap := String → Option ArgValue

def ArgMap.empty : ArgMap := fun _ => none

def ArgMap.set (args : ArgMap) (name : String) (v : Option ArgValue) : ArgMap :=
  fun n => if n = name then v else args n

theorem ArgMap.set_self (args : ArgMap) (name : String) (v : Option ArgValue) : args.set name v name = v := if_pos rfl

theorem ArgMap.set_of_ne {args : ArgMap} {name n : String} (h : n ≠ name) (v : Option ArgValue) :
    args.set name v n = args n := if_neg h

inductive Thrown where
  | argumentError (message : String)
  | invalidAtSign
  | typeError
  /-- `first` of an empty iterable. -/
  | stateError
  | formatException
  | exception (message : String)
  deriving DecidableEq, Repr

/-- A character that `String.toLowerCase` leaves alone wherever it stands. -/
def lowerPlain (c : Char) : Bool := c.isLower || c.isDigit || c == '_' || c == '-'

theorem isUpper_bounds {c : Char} (h : c.isUpper = true) : 65 ≤ c.toNat ∧ c.toNat ≤ 90 := by
  have hbounds : c.val ≥ 'A'.val ∧ c.val ≤ 'Z'.val := of_decide_eq_true h
  exact ⟨UInt32.le_iff_toNat_le.mp hbounds.1, UInt32.le_iff_toNat_le.mp hbounds.2⟩

theorem isLower_bounds {c : Char} (h : c.isLower = true) : 97 ≤ c.toNat ∧ c.toNat ≤ 122 := by
  have hbounds : (decide (c.val ≥ 'a'.val) && decide (c.val ≤ 'z'.val)) = true := h
  rw [Bool.and_eq_true, decide_eq_true_iff, decide_eq_true_iff] at hbounds
  exact ⟨UInt32.le_iff_toNat_le.mp hbounds.1, UInt32.le_iff_toNat_le.mp hbounds.2⟩

theorem isDigit_bounds {c : Char} (h : c.isDigit = true) : 48 ≤ c.toNat ∧ c.toNat ≤ 57 := by
  have hbounds : (decide (c.val ≥ '0'.val) && decide (c.val ≤ '9'.val)) = true := h
  rw [Bool.and_eq_true, decide_eq_true_iff, decide_eq_true_iff] at hbounds
  exact ⟨UInt32.le_iff_toNat_le.mp hbounds.1, UInt32.le_iff_toNat_le.mp hbounds.2⟩

/-- What is no capital letter is kept. -/
theorem toLower_eq_self {c : Char} (h : ¬(65 ≤ c.toNat ∧ c.toNat ≤ 90)) : c.toLower = c := by
  have hno : ¬(c.val ≥ 'A'.val ∧ c.val ≤ 'Z'.val) := fun hbounds =>
    h ⟨UInt32.le_iff_toNat_le.mp hbounds.1, UInt32.le_iff_toNat_le.mp hbounds.2⟩
  exact dif_neg hno

/-- What the code calls outside the repository. -/
structure Runtime where
  /-- `AtUtils.fixAtSign`; `none` when it throws. -/
  fixAtSign : String → Option String
  /-- The lower case of a character, beyond ASCII as the tables of Unicode have it. -/
  lowerChar : Char → List Char
  lowerChar_ascii : ∀ c : Char, c.toNat < 128 → lowerChar c = [c.toLower]

/-- `String.toLowerCase` -/
def Runtime.toLowerCase (rt : Runtime) (s : String) : String := String.ofList (s.toList.flatMap rt.lowerChar)

theorem Runtime.lower_plain (rt : Runtime) (s : String) (h : ∀ c ∈ s.toList, lowerPlain c = true) :
    rt.toLowerCase s = s := by
  have hkeep : ∀ c ∈ s.toList, rt.lowerChar c = [c] := by
    intro c hc
    have hascii : c.toNat < 128 ∧ ¬(65 ≤ c.toNat ∧ c.toNat ≤ 90) := by
      have hplain := h c hc
      simp only [lowerPlain, Bool.or_eq_true, beq_iff_eq] at hplain
      rcases hplain with ((hlower | hdigit) | rfl) | rfl
      · have hbounds := isLower_bounds hlower
        omega
      · have hbounds := isDigit_bounds hdigit
        omega
      · decide
      · decide
    rw [rt.lowerChar_ascii c hascii.1, toLower_eq_self hascii.2]
  rw [toLowerCase, List.flatMap_congr hkeep, List.flatMap_singleton', String.ofList_toList]

/-- A runtime whose strings are all of ASCII. -/
def asciiRuntime : Runtime where
  fixAtSign s := some (lowerAscii (if s.toList.head? = some '@' then s else "@" ++ s))
  lowerChar c := [c.toLower]
  lowerChar_ascii _ _ := rfl

variable (rt : Runtime)

def ArgValue.string? : ArgValue → Option String
  | .string s => some s
  | _ => none

def ArgValue.int? : ArgValue → Option Int64
  | .int n => some n
  | _ => none

def ArgValue.bool? : ArgValue → Option Bool
  | .bool b => some b
  | _ => none

def ArgValue.strings? : ArgValue → Option (List String)
  | .strings xs => some xs
  | _ => none

/-- A cast to a nullable type. -/
def castTo {α : Type} (project : ArgValue → Option α) : Option ArgValue → Except Thrown (Option α)
  | none => .ok none
  | some v =>
    match project v with
    | some a => .ok (some a)
    | none => .error .typeError

def asString : Option ArgValue → Except Thrown (Option String) := castTo ArgValue.string?
def asInt : Option ArgValue → Except Thrown (Option Int64) := castTo ArgValue.int?
def asBool : Option ArgValue → Except Thrown (Option Bool) := castTo ArgValue.bool?
/-- `List<String>.from`, where the value is not null. -/
def asStrings : Option ArgValue → Except Thrown (Option (List String)) := castTo ArgValue.strings?

def fixAtSign (atSign : Option String) : Except Thrown (Option String) :=
  match atSign with
  | none => .ok none
  | some s =>
    match rt.fixAtSign s with
    | some fixed => .ok (some fixed)
    | none => .error .invalidAtSign

def SshAlgorithm.fromString (cliArg : Option String) : Except Thrown (Option SshAlgorithm) :=
  match cliArg with
  | none => .ok none
  | some s =>
    if s = "ssh-ed25519" then .ok (some .ed25519)
    else if s = "ssh-rsa" then .ok (some .rsa)
    else .error (.argumentError ("Unsupported SSH algorithm: " ++ s))

def relayAuthModeName : RelayAuthMode → String
  | .payload => "payload"
  | .escr => "escr"

/-- `RelayAuthMode.values.byName` -/
def relayAuthModeByName (name : Option String) : Except Thrown (Option RelayAuthMode) :=
  match name with
  | none => .ok none
  | some s =>
    if s = "payload" then .ok (some .payload)
    else if s = "escr" then .ok (some .escr)
    else .error (.argumentError "No enum value with that name")

/-- A `Duration`, in microseconds. -/
def Duration := Int64
  deriving DecidableEq, Repr

def Duration.ofSeconds (seconds : Int64) : Duration := seconds * (1000000 : Int64)

/-! ### default_args.dart -/

namespace DefaultArgs

def verbose : Bool := false
def rootDomain : String := "root.atsign.org"
def remoteSshdPort : Int64 := 22
def idleTimeout : Int64 := 15
def addForwardsToTunnel : Bool := false
def authenticateClientToRvd : Bool := true
def authenticateDeviceToRvd : Bool := true
def encryptRvdTraffic : Bool := true
def relayAuthMode : RelayAuthMode := .escr
def daemonPingTimeoutSeconds : Int64 := 20
def daemonPingTimeoutDuration : Duration := .ofSeconds daemonPingTimeoutSeconds

end DefaultArgs

namespace DefaultSshnpArgs

def device : String := "default"
def localPort : Int64 := 0
def sendSshPublicKey : Bool := false
def localSshOptions : List String := []
def listDevices : Bool := false

end DefaultSshnpArgs

/-! ### validation_utils.dart -/

def isDeviceNameStart (c : Char) : Bool := c.isLower || c.isDigit || c == '_'

def isDeviceNameChar (c : Char) : Bool := isDeviceNameStart c || c == '-'

/-- The first match of `[a-z0-9_][a-z0-9_\-]{1,35}`. -/
def sshnpDeviceNameMatch : List Char → Option (List Char)
  | [] => none
  | c :: cs =>
    let following := (cs.takeWhile isDeviceNameChar).take 35
    if isDeviceNameStart c && following != [] then some (c :: following) else sshnpDeviceNameMatch cs

def invalidDeviceName (test : String) : Except Thrown Bool :=
  match sshnpDeviceNameMatch test.toList with
  | none => .error .stateError
  | some group => .ok (group != test.toList)

def invalidDeviceNameMsg : String :=
  "Device name must only contain alphanumeric characters, \"-\", or \"_\"" ++
    "and may not start with \"-\". Maximum length of 36 characters."

/-- A text with each run of white space replaced by one underscore. -/
def underscoreSpaces (inSpace : Bool) : List Char → List Char
  | [] => []
  | c :: cs =>
    if Signing.isWhitespace c then
      if inSpace then underscoreSpaces true cs else '_' :: underscoreSpaces true cs
    else c :: underscoreSpaces false cs

def snakifyDeviceName (deviceName : String) : String :=
  String.ofList (underscoreSpaces false (rt.toLowerCase deviceName).toList)

/-! ### sshnp_params.dart -/

/-- `SshnpPartialParams` -/
structure PartialParams where
  profileName : Option String := none
  clientAtSign : Option String := none
  sshnpdAtSign : Option String := none
  srvdAtSign : Option String := none
  device : Option String := none
  localPort : Option Int64 := none
  atKeysFilePath : Option String := none
  passPhrase : Option String := none
  identityFile : Option String := none
  identityPassphrase : Option String := none
  sendSshPublicKey : Option Bool := none
  localSshOptions : Option (List String) := none
  remoteUsername : Option String := none
  tunnelUsername : Option String := none
  verbose : Option Bool := none
  rootDomain : Option String := none
  remoteSshdPort : Option Int64 := none
  idleTimeout : Option Int64 := none
  addForwardsToTunnel : Option Bool := none
  sshAlgorithm : Option SshAlgorithm := none
  authenticateClientToRvd : Option Bool := none
  authenticateDeviceToRvd : Option Bool := none
  relayAuthMode : Option RelayAuthMode := none
  encryptRvdTraffic : Option Bool := none
  daemonPingTimeout : Option Duration := none
  only443 : Option Bool := none
  listDevices : Option Bool := none
  deriving DecidableEq, Repr

def PartialParams.empty : PartialParams := {}

/-- Params in params2 take precedence over params1 -/
def PartialParams.merge (params1 params2 : PartialParams) : PartialParams where
  profileName := params2.profileName <|> params1.profileName
  clientAtSign := params2.clientAtSign <|> params1.clientAtSign
  sshnpdAtSign := params2.sshnpdAtSign <|> params1.sshnpdAtSign
  srvdAtSign := params2.srvdAtSign <|> params1.srvdAtSign
  device := params2.device <|> params1.device
  localPort := params2.localPort <|> params1.localPort
  atKeysFilePath := params2.atKeysFilePath <|> params1.atKeysFilePath
  passPhrase := params2.passPhrase <|> params1.passPhrase
  identityFile := params2.identityFile <|> params1.identityFile
  identityPassphrase := params2.identityPassphrase <|> params1.identityPassphrase
  sendSshPublicKey := params2.sendSshPublicKey <|> params1.sendSshPublicKey
  localSshOptions := params2.localSshOptions <|> params1.localSshOptions
  remoteUsername := params2.remoteUsername <|> params1.remoteUsername
  tunnelUsername := params2.tunnelUsername <|> params1.tunnelUsername
  verbose := params2.verbose <|> params1.verbose
  rootDomain := params2.rootDomain <|> params1.rootDomain
  listDevices := params2.listDevices <|> params1.listDevices
  remoteSshdPort := params2.remoteSshdPort <|> params1.remoteSshdPort
  idleTimeout := params2.idleTimeout <|> params1.idleTimeout
  addForwardsToTunnel := params2.addForwardsToTunnel <|> params1.addForwardsToTunnel
  sshAlgorithm := params2.sshAlgorithm <|> params1.sshAlgorithm
  authenticateClientToRvd := params2.authenticateClientToRvd <|> params1.authenticateClientToRvd
  authenticateDeviceToRvd := params2.authenticateDeviceToRvd <|> params1.authenticateDeviceToRvd
  relayAuthMode := params2.relayAuthMode <|> params1.relayAuthMode
  encryptRvdTraffic := params2.encryptRvdTraffic <|> params1.encryptRvdTraffic
  daemonPingTimeout := params2.daemonPingTimeout <|> params1.daemonPingTimeout
  only443 := params2.only443 <|> params1.only443

/-- `SshnpPartialParams.fromArgMap` -/
def PartialParams.fromArgMap (args : ArgMap) : Except Thrown PartialParams := do
  let profileName ← asString (args profileNameArg.name)
  let clientAtSign ← fixAtSign rt (← asString (args fromArg.name))
  let sshnpdAtSign ← fixAtSign rt (← asString (args toArg.name))
  let srvdAtSign ← asString (args srvdArg.name <|> args legacySrvdArg.name)
  let device ← asString (args deviceArg.name)
  let localPort ← asInt (args localPortArg.name)
  let atKeysFilePath ← asString (args keyFileArg.name)
  let passPhrase ← asString (args passPhraseArg.name)
  let identityFile ← asString (args identityFileArg.name)
  let identityPassphrase ← asString (args identityPassphraseArg.name)
  let sendSshPublicKey ← asBool (args sendSshPublicKeyArg.name)
  let localSshOptions ← asStrings (args localSshOptionsArg.name)
  let remoteUsername ← asString (args remoteUserNameArg.name)
  let tunnelUsername ← asString (args tunnelUserNameArg.name)
  let verbose ← asBool (args verboseArg.name)
  let rootDomain ← asString (args rootServerArg.name)
  let listDevices ← asBool (args listDevicesArg.name)
  let remoteSshdPort ← asInt (args remoteSshdPortArg.name)
  let idleTimeout ← asInt (args idleTimeoutArg.name)
  let addForwardsToTunnel ← asBool (args addForwardsToTunnelArg.name)
  let sshAlgorithm ← SshAlgorithm.fromString (← asString (args sshAlgorithmArg.name))
  let authenticateClientToRvd ← asBool (args authenticateClientToRvdArg.name)
  let authenticateDeviceToRvd ← asBool (args authenticateDeviceToRvdArg.name)
  let encryptRvdTraffic ← asBool (args encryptRvdTrafficArg.name)
  let relayAuthMode ← relayAuthModeByName (← asString (args relayAuthModeArg.name))
  let seconds ← asInt (args daemonPingTimeoutArg.name)
  let only443 ← asBool (args only443Arg.name)
  return {
    profileName, clientAtSign, sshnpdAtSign, srvdAtSign, device, localPort, atKeysFilePath, passPhrase, identityFile,
    identityPassphrase, sendSshPublicKey, localSshOptions, remoteUsername, tunnelUsername, verbose, listDevices,
    remoteSshdPort, idleTimeout, addForwardsToTunnel, sshAlgorithm, authenticateClientToRvd, authenticateDeviceToRvd,
    encryptRvdTraffic, relayAuthMode, only443
    rootDomain := some (rootDomain.getD DefaultArgs.rootDomain)
    daemonPingTimeout := some (.ofSeconds (seconds.getD DefaultArgs.daemonPingTimeoutSeconds)) }

/-- The fields of `SshnpParams`. -/
structure ParamValues where
  clientAtSign : String
  sshnpdAtSign : String
  srvdAtSign : String
  profileName : Option String
  device : String
  localPort : Int64
  identityFile : Option String
  identityPassphrase : Option String
  sendSshPublicKey : Bool
  localSshOptions : List String
  verbose : Bool
  remoteUsername : Option String
  tunnelUsername : Option String
  atKeysFilePath : Option String
  passPhrase : Option String
  rootDomain : String
  listDevices : Bool
  remoteSshdPort : Int64
  idleTimeout : Int64
  addForwardsToTunnel : Bool
  authenticateClientToRvd : Bool
  authenticateDeviceToRvd : Bool
  relayAuthMode : RelayAuthMode
  relayAuthModeExplicit : Bool
  encryptRvdTraffic : Bool
  daemonPingTimeout : Duration
  only443 : Bool
  deriving DecidableEq, Repr

/-- What the constructor of `ClientParamsBase` asks of its parameters. -/
def ParamValues.Valid (v : ParamValues) : Prop :=
  invalidDeviceName v.device = .ok false ∧
    (v.only443 = true → v.relayAuthMode = .escr ∧ v.authenticateClientToRvd = true ∧ v.authenticateDeviceToRvd = true)

instance (v : ParamValues) : Decidable v.Valid := inferInstanceAs (Decidable (_ ∧ _))

/-- `SshnpParams` -/
structure Params extends ParamValues where
  valid : toParamValues.Valid
  deriving DecidableEq, Repr

/-- The constructor of `ClientParamsBase`. -/
def Params.of (v : ParamValues) : Except Thrown Params :=
  match hname : invalidDeviceName v.device with
  | .error e => .error e
  | .ok true => .error (.argumentError invalidDeviceNameMsg)
  | .ok false =>
    if hmode : v.only443 = true ∧ v.relayAuthMode ≠ .escr then
      .error (.argumentError ("You must use \"" ++ relayAuthModeArg.name ++ " " ++ relayAuthModeName .escr ++
        "\" when using the \"" ++ only443Arg.name ++ "\" flag"))
    else if hboth : v.only443 = true ∧ (v.authenticateClientToRvd = false ∨ v.authenticateDeviceToRvd = false) then
      .error (.argumentError ("Both client and device must authenticate to the relay when using the \"" ++
        only443Arg.name ++ "\" flag"))
    else .ok { v with
      valid := ⟨hname, fun h => ⟨by_contra fun he => hmode ⟨h, he⟩,
        by_contra fun hc => hboth ⟨h, .inl (Bool.eq_false_iff.mpr hc)⟩,
        by_contra fun hd => hboth ⟨h, .inr (Bool.eq_false_iff.mpr hd)⟩⟩⟩ }

/-- The parameters that `SshnpParams.fromPartial` hands to the constructor. -/
def PartialParams.values (params : PartialParams) (clientAtSign : String) : ParamValues where
  profileName := params.profileName
  clientAtSign
  sshnpdAtSign := params.sshnpdAtSign.getD ""
  srvdAtSign := params.srvdAtSign.getD ""
  device := snakifyDeviceName rt (params.device.getD DefaultSshnpArgs.device)
  localPort := params.localPort.getD DefaultSshnpArgs.localPort
  identityFile := params.identityFile
  identityPassphrase := params.identityPassphrase
  sendSshPublicKey := params.sendSshPublicKey.getD DefaultSshnpArgs.sendSshPublicKey
  localSshOptions := params.localSshOptions.getD DefaultSshnpArgs.localSshOptions
  verbose := params.verbose.getD DefaultArgs.verbose
  remoteUsername := params.remoteUsername
  tunnelUsername := params.tunnelUsername
  atKeysFilePath := params.atKeysFilePath
  passPhrase := params.passPhrase
  rootDomain := params.rootDomain.getD DefaultArgs.rootDomain
  listDevices := params.listDevices.getD DefaultSshnpArgs.listDevices
  remoteSshdPort := params.remoteSshdPort.getD DefaultArgs.remoteSshdPort
  idleTimeout := params.idleTimeout.getD DefaultArgs.idleTimeout
  addForwardsToTunnel := params.addForwardsToTunnel.getD DefaultArgs.addForwardsToTunnel
  authenticateClientToRvd := params.authenticateClientToRvd.getD DefaultArgs.authenticateClientToRvd
  authenticateDeviceToRvd := params.authenticateDeviceToRvd.getD DefaultArgs.authenticateDeviceToRvd
  relayAuthMode := params.relayAuthMode.getD DefaultArgs.relayAuthMode
  -- a mode present in the partial was chosen deliberately
  relayAuthModeExplicit := params.relayAuthMode.isSome
  encryptRvdTraffic := params.encryptRvdTraffic.getD DefaultArgs.encryptRvdTraffic
  daemonPingTimeout := params.daemonPingTimeout.getD DefaultArgs.daemonPingTimeoutDuration
  only443 := params.only443.getD false

/-- `SshnpParams.fromPartial` -/
def Params.fromPartial (params : PartialParams) : Except Thrown Params :=
  match params.clientAtSign with
  | none => .error (.argumentError "from (clientAtSign) is mandatory")
  | some clientAtSign =>
    if params.listDevices.getD DefaultSshnpArgs.listDevices = false ∧ params.sshnpdAtSign = none then
      .error (.argumentError "Option to is mandatory, unless list-devices is passed.")
    else Params.of (params.values rt clientAtSign)

/-- The map that `toArgMap` begins with. -/
def Params.argEntries (p : Params) : List (String × Option ArgValue) :=
  [(profileNameArg.name, p.profileName.map .string),
    (fromArg.name, some (.string p.clientAtSign)),
    (toArg.name, some (.string p.sshnpdAtSign)),
    (srvdArg.name, some (.string p.srvdAtSign)),
    (deviceArg.name, some (.string p.device)),
    (localPortArg.name, some (.int p.localPort)),
    (keyFileArg.name, p.atKeysFilePath.map .string),
    (passPhraseArg.name, p.passPhrase.map .string),
    (identityFileArg.name, p.identityFile.map .string),
    (identityPassphraseArg.name, p.identityPassphrase.map .string),
    (sendSshPublicKeyArg.name, some (.bool p.sendSshPublicKey)),
    (localSshOptionsArg.name, some (.strings p.localSshOptions)),
    (remoteUserNameArg.name, p.remoteUsername.map .string),
    (tunnelUserNameArg.name, p.tunnelUsername.map .string),
    (verboseArg.name, some (.bool p.verbose)),
    (rootServerArg.name, some (.string p.rootDomain)),
    (remoteSshdPortArg.name, some (.int p.remoteSshdPort)),
    (idleTimeoutArg.name, some (.int p.idleTimeout)),
    (addForwardsToTunnelArg.name, some (.bool p.addForwardsToTunnel)),
    (authenticateClientToRvdArg.name, some (.bool p.authenticateClientToRvd)),
    (authenticateDeviceToRvdArg.name, some (.bool p.authenticateDeviceToRvd)),
    (encryptRvdTrafficArg.name, some (.bool p.encryptRvdTraffic)),
    -- the mode is persisted only when it was explicitly chosen
    (relayAuthModeArg.name,
      if p.relayAuthModeExplicit then some (.string (relayAuthModeName p.relayAuthMode)) else none)]

def Params.toArgMap (p : Params) (parserType : ParserType) : List (String × Option ArgValue) :=
  p.argEntries.filter fun entry => parserType.shouldParse (SshnpArg.fromName entry.1).parseWhen

/-- A value as an interpolation prints it, a list joined with commas. -/
def ArgValue.text : ArgValue → String
  | .string s => s
  | .int n => toString n.toInt
  | .bool b => if b then "true" else "false"
  | .strings xs => ",".intercalate xs

/-- The line of one entry, if it has one. -/
def configLine (parserType : ParserType) (entry : String × Option ArgValue) : Option String :=
  let arg := SshnpArg.fromName entry.1
  if parserType.shouldParse arg.parseWhen = false then none
  else if arg.bashName = "" then none
  else entry.2.map fun value => arg.bashName ++ "=" ++ value.text

def Params.toConfigLines (p : Params) (parserType : ParserType) : List String :=
  (p.toArgMap .all).filterMap (configLine parserType)

/-! ### config_file_repository.dart -/

/-- `String.split`, at one character -/
def split (s : String) (c : Char) : List String := (s.toList.splitOn c).map String.ofList

/-- What an argument's value becomes when a line gives `value` for it. -/
def readValue (arg : SshnpArg) (value : String) (before : Option ArgValue) : Option ArgValue :=
  match arg.format with
  | .flag => some (.bool (rt.toLowerCase value = "true"))
  | .multiOption =>
    let values := (split value ',').filter (· ≠ "")
    match before with
    | some (.strings xs) => some (.strings (xs ++ values))
    | _ => some (.strings values)
  | .option =>
    if value = "" then before
    else if arg.type = .integer then (intParse value).map fun n => .int (Int64.ofInt n)
    else some (.string value)

def parseConfigLine (args : ArgMap) (line : String) : ArgMap :=
  if "#".toList.isPrefixOf line.toList then args
  else
    match split line '=' with
    | [key, value] =>
      let arg := SshnpArg.fromBashName (Signing.trim key)
      if arg.name = "" then args
      else if ParserType.configFile.shouldParse arg.parseWhen = false then args
      else args.set arg.name (readValue rt arg (Signing.trim value) (args arg.name))
    | _ => args

def parseConfigFileContents (lines : List String) : ArgMap := lines.foldl (parseConfigLine rt) .empty

/-- `SshnpPartialParams.fromConfigLines` -/
def PartialParams.fromConfigLines (profileName : String) (lines : List String) : Except Thrown PartialParams :=
  PartialParams.fromArgMap rt ((parseConfigFileContents rt lines).set profileNameArg.name (some (.string profileName)))

/-- `SshnpParams.fromConfigLines` -/
def Params.fromConfigLines (profileName : String) (lines : List String) : Except Thrown Params := do
  Params.fromPartial rt (← PartialParams.fromConfigLines rt profileName lines)

/-! ### What a map, and a partial, are read as -/

theorem ArgValue.string?_eq_some {v : ArgValue} {s : String} : v.string? = some s ↔ v = .string s := by
  cases v <;> simp [string?]

theorem ArgValue.int?_eq_some {v : ArgValue} {n : Int64} : v.int? = some n ↔ v = .int n := by
  cases v <;> simp [int?]

theorem ArgValue.bool?_eq_some {v : ArgValue} {b : Bool} : v.bool? = some b ↔ v = .bool b := by
  cases v <;> simp [bool?]

theorem ArgValue.strings?_eq_some {v : ArgValue} {xs : List String} : v.strings? = some xs ↔ v = .strings xs := by
  cases v <;> simp [strings?]

theorem castTo_eq_ok {α : Type} {project : ArgValue → Option α} {mk : α → ArgValue}
    (hproject : ∀ {v a}, project v = some a ↔ v = mk a) {x : Option ArgValue} {y : Option α} :
    castTo project x = .ok y ↔ x = y.map mk := by
  cases x with
  | none => cases y <;> simp [castTo]
  | some v =>
    rw [castTo]
    cases hv : project v with
    | some a =>
      rw [hproject.mp hv]
      have hmk (b : α) : mk a = mk b ↔ a = b := by
        constructor
        · intro h
          have hb := hproject.mpr h
          rw [hproject.mpr rfl] at hb
          exact Option.some.inj hb
        · exact congrArg mk
      cases y <;> simp [hmk]
    | none =>
      have hnot (b : α) : v ≠ mk b := by
        intro hb
        rw [hproject.mpr hb] at hv
        cases hv
      cases y <;> simp [hnot]

theorem asString_eq_ok {x : Option ArgValue} {y : Option String} : asString x = .ok y ↔ x = y.map .string :=
  castTo_eq_ok ArgValue.string?_eq_some

theorem asInt_eq_ok {x : Option ArgValue} {y : Option Int64} : asInt x = .ok y ↔ x = y.map .int :=
  castTo_eq_ok ArgValue.int?_eq_some

theorem asBool_eq_ok {x : Option ArgValue} {y : Option Bool} : asBool x = .ok y ↔ x = y.map .bool :=
  castTo_eq_ok ArgValue.bool?_eq_some

theorem asStrings_eq_ok {x : Option ArgValue} {y : Option (List String)} :
    asStrings x = .ok y ↔ x = y.map .strings :=
  castTo_eq_ok ArgValue.strings?_eq_some

theorem fixAtSign_eq_ok {atSign fixed : Option String} :
    fixAtSign rt atSign = .ok fixed ↔ fixed = atSign.bind rt.fixAtSign ∧ fixed.isSome = atSign.isSome := by
  unfold fixAtSign
  cases atSign with
  | none => cases fixed <;> simp
  | some s =>
    cases hs : rt.fixAtSign s with
    | none => cases fixed <;> simp [hs]
    | some f => cases fixed <;> simp [hs, eq_comm]

theorem relayAuthModeByName_eq_ok {name : Option String} {mode : Option RelayAuthMode} :
    relayAuthModeByName name = .ok mode ↔ name = mode.map relayAuthModeName := by
  cases name with
  | none => cases mode <;> simp [relayAuthModeByName]
  | some s =>
    by_cases hp : s = "payload"
    · subst hp
      cases mode with
      | none => simp [relayAuthModeByName]
      | some m => cases m <;> simp [relayAuthModeByName, relayAuthModeName]
    · by_cases he : s = "escr"
      · subst he
        cases mode with
        | none => simp [relayAuthModeByName]
        | some m => cases m <;> simp [relayAuthModeByName, relayAuthModeName]
      · cases mode with
        | none => simp [relayAuthModeByName, hp, he]
        | some m => cases m <;> simp [relayAuthModeByName, relayAuthModeName, hp, he]

/-- `q` is what a map with the values of `args` is read as. -/
structure Reads (args : ArgMap) (q : PartialParams) : Prop where
  profileName : args profileNameArg.name = q.profileName.map .string
  clientAtSign : ∃ s, args fromArg.name = Option.map .string s ∧ fixAtSign rt s = .ok q.clientAtSign
  sshnpdAtSign : ∃ s, args toArg.name = Option.map .string s ∧ fixAtSign rt s = .ok q.sshnpdAtSign
  srvdAtSign : (args srvdArg.name <|> args legacySrvdArg.name) = q.srvdAtSign.map .string
  device : args deviceArg.name = q.device.map .string
  localPort : args localPortArg.name = q.localPort.map .int
  atKeysFilePath : args keyFileArg.name = q.atKeysFilePath.map .string
  passPhrase : args passPhraseArg.name = q.passPhrase.map .string
  identityFile : args identityFileArg.name = q.identityFile.map .string
  identityPassphrase : args identityPassphraseArg.name = q.identityPassphrase.map .string
  sendSshPublicKey : args sendSshPublicKeyArg.name = q.sendSshPublicKey.map .bool
  localSshOptions : args localSshOptionsArg.name = q.localSshOptions.map .strings
  remoteUsername : args remoteUserNameArg.name = q.remoteUsername.map .string
  tunnelUsername : args tunnelUserNameArg.name = q.tunnelUsername.map .string
  verbose : args verboseArg.name = q.verbose.map .bool
  rootDomain : ∃ s, args rootServerArg.name = Option.map .string s ∧ q.rootDomain = some (s.getD DefaultArgs.rootDomain)
  listDevices : args listDevicesArg.name = q.listDevices.map .bool
  remoteSshdPort : args remoteSshdPortArg.name = q.remoteSshdPort.map .int
  idleTimeout : args idleTimeoutArg.name = q.idleTimeout.map .int
  addForwardsToTunnel : args addForwardsToTunnelArg.name = q.addForwardsToTunnel.map .bool
  sshAlgorithm : ∃ s, args sshAlgorithmArg.name = Option.map .string s ∧ SshAlgorithm.fromString s = .ok q.sshAlgorithm
  authenticateClientToRvd : args authenticateClientToRvdArg.name = q.authenticateClientToRvd.map .bool
  authenticateDeviceToRvd : args authenticateDeviceToRvdArg.name = q.authenticateDeviceToRvd.map .bool
  encryptRvdTraffic : args encryptRvdTrafficArg.name = q.encryptRvdTraffic.map .bool
  relayAuthMode : args relayAuthModeArg.name = (q.relayAuthMode.map relayAuthModeName).map .string
  daemonPingTimeout : ∃ n, args daemonPingTimeoutArg.name = Option.map .int n ∧
    q.daemonPingTimeout = some (.ofSeconds (n.getD DefaultArgs.daemonPingTimeoutSeconds))
  only443 : args only443Arg.name = q.only443.map .bool

theorem reads_of_fromArgMap {args : ArgMap} {q : PartialParams} (h : PartialParams.fromArgMap rt args = .ok q) :
    Reads rt args q := by
  unfold PartialParams.fromArgMap at h
  obtain ⟨_, hprofileName, h⟩ := bind_eq_ok.mp h
  obtain ⟨sf, hf, h⟩ := bind_eq_ok.mp h
  obtain ⟨_, hfrom, h⟩ := bind_eq_ok.mp h
  obtain ⟨st, ht, h⟩ := bind_eq_ok.mp h
  obtain ⟨_, hto, h⟩ := bind_eq_ok.mp h
  obtain ⟨_, hsrvd, h⟩ := bind_eq_ok.mp h
  obtain ⟨_, hdevice, h⟩ := bind_eq_ok.mp h
  obtain ⟨_, hlocalPort, h⟩ := bind_eq_ok.mp h
  obtain ⟨_, hkeyFile, h⟩ := bind_eq_ok.mp h
  obtain ⟨_, hpassPhrase, h⟩ := bind_eq_ok.mp h
  obtain ⟨_, hidentityFile, h⟩ := bind_eq_ok.mp h
  obtain ⟨_, hidentityPassphrase, h⟩ := bind_eq_ok.mp h
  obtain ⟨_, hsend, h⟩ := bind_eq_ok.mp h
  obtain ⟨_, hoptions, h⟩ := bind_eq_ok.mp h
  obtain ⟨_, hremoteUsername, h⟩ := bind_eq_ok.mp h
  obtain ⟨_, htunnelUsername, h⟩ := bind_eq_ok.mp h
  obtain ⟨_, hverbose, h⟩ := bind_eq_ok.mp h
  obtain ⟨sr, hr, h⟩ := bind_eq_ok.mp h
  obtain ⟨_, hlistDevices, h⟩ := bind_eq_ok.mp h
  obtain ⟨_, hremoteSshdPort, h⟩ := bind_eq_ok.mp h
  obtain ⟨_, hidle, h⟩ := bind_eq_ok.mp h
  obtain ⟨_, hforwards, h⟩ := bind_eq_ok.mp h
  obtain ⟨sa, ha, h⟩ := bind_eq_ok.mp h
  obtain ⟨_, halgorithm, h⟩ := bind_eq_ok.mp h
  obtain ⟨_, hclient, h⟩ := bind_eq_ok.mp h
  obtain ⟨_, hdaemon, h⟩ := bind_eq_ok.mp h
  obtain ⟨_, hencrypt, h⟩ := bind_eq_ok.mp h
  obtain ⟨sm, hm, h⟩ := bind_eq_ok.mp h
  obtain ⟨_, hmode, h⟩ := bind_eq_ok.mp h
  obtain ⟨n, hping, h⟩ := bind_eq_ok.mp h
  obtain ⟨_, h443, h⟩ := bind_eq_ok.mp h
  cases h
  rw [relayAuthModeByName_eq_ok] at hmode
  rw [hmode] at hm
  exact {
    profileName := asString_eq_ok.mp hprofileName
    clientAtSign := ⟨sf, asString_eq_ok.mp hf, hfrom⟩
    sshnpdAtSign := ⟨st, asString_eq_ok.mp ht, hto⟩
    srvdAtSign := asString_eq_ok.mp hsrvd
    device := asString_eq_ok.mp hdevice
    localPort := asInt_eq_ok.mp hlocalPort
    atKeysFilePath := asString_eq_ok.mp hkeyFile
    passPhrase := asString_eq_ok.mp hpassPhrase
    identityFile := asString_eq_ok.mp hidentityFile
    identityPassphrase := asString_eq_ok.mp hidentityPassphrase
    sendSshPublicKey := asBool_eq_ok.mp hsend
    localSshOptions := asStrings_eq_ok.mp hoptions
    remoteUsername := asString_eq_ok.mp hremoteUsername
    tunnelUsername := asString_eq_ok.mp htunnelUsername
    verbose := asBool_eq_ok.mp hverbose
    rootDomain := ⟨sr, asString_eq_ok.mp hr, rfl⟩
    listDevices := asBool_eq_ok.mp hlistDevices
    remoteSshdPort := asInt_eq_ok.mp hremoteSshdPort
    idleTimeout := asInt_eq_ok.mp hidle
    addForwardsToTunnel := asBool_eq_ok.mp hforwards
    sshAlgorithm := ⟨sa, asString_eq_ok.mp ha, halgorithm⟩
    authenticateClientToRvd := asBool_eq_ok.mp hclient
    authenticateDeviceToRvd := asBool_eq_ok.mp hdaemon
    encryptRvdTraffic := asBool_eq_ok.mp hencrypt
    relayAuthMode := asString_eq_ok.mp hm
    daemonPingTimeout := ⟨n, asInt_eq_ok.mp hping, rfl⟩
    only443 := asBool_eq_ok.mp h443 }

theorem Reads.fromArgMap {args : ArgMap} {q : PartialParams} (h : Reads rt args q) :
    PartialParams.fromArgMap rt args = .ok q := by
  obtain ⟨sf, hf, hfrom⟩ := h.clientAtSign
  obtain ⟨st, ht, hto⟩ := h.sshnpdAtSign
  obtain ⟨sr, hr, hroot⟩ := h.rootDomain
  obtain ⟨sa, ha, halgorithm⟩ := h.sshAlgorithm
  obtain ⟨n, hn, hping⟩ := h.daemonPingTimeout
  simp only [PartialParams.fromArgMap, asString_eq_ok.mpr h.profileName, asString_eq_ok.mpr hf, hfrom,
    asString_eq_ok.mpr ht, hto, asString_eq_ok.mpr h.srvdAtSign, asString_eq_ok.mpr h.device,
    asInt_eq_ok.mpr h.localPort, asString_eq_ok.mpr h.atKeysFilePath, asString_eq_ok.mpr h.passPhrase,
    asString_eq_ok.mpr h.identityFile, asString_eq_ok.mpr h.identityPassphrase, asBool_eq_ok.mpr h.sendSshPublicKey,
    asStrings_eq_ok.mpr h.localSshOptions, asString_eq_ok.mpr h.remoteUsername, asString_eq_ok.mpr h.tunnelUsername,
    asBool_eq_ok.mpr h.verbose, asString_eq_ok.mpr hr, asBool_eq_ok.mpr h.listDevices,
    asInt_eq_ok.mpr h.remoteSshdPort, asInt_eq_ok.mpr h.idleTimeout, asBool_eq_ok.mpr h.addForwardsToTunnel,
    asString_eq_ok.mpr ha, halgorithm, asBool_eq_ok.mpr h.authenticateClientToRvd,
    asBool_eq_ok.mpr h.authenticateDeviceToRvd, asBool_eq_ok.mpr h.encryptRvdTraffic,
    asString_eq_ok.mpr h.relayAuthMode, relayAuthModeByName_eq_ok.mpr rfl, asInt_eq_ok.mpr hn,
    asBool_eq_ok.mpr h.only443, ok_bind, pure, Except.pure, ← hroot, ← hping]

theorem Params.of_eq_ok {v : ParamValues} {p : Params} : Params.of v = .ok p ↔ p.toParamValues = v := by
  unfold Params.of
  constructor
  · intro h
    split at h
    · cases h
    · cases h
    · split at h
      · cases h
      · split at h
        · cases h
        · cases h
          rfl
  · rintro rfl
    obtain ⟨hname, honly⟩ := p.valid
    split
    · rename_i e he
      rw [hname] at he
      cases he
    · rename_i he
      rw [hname] at he
      cases he
    · rw [dif_neg, dif_neg]
      · rintro ⟨h443, hboth⟩
        rcases hboth with hc | hd
        · rw [(honly h443).2.1] at hc
          cases hc
        · rw [(honly h443).2.2] at hd
          cases hd
      · exact fun h => h.2 (honly h.1).1

theorem Params.fromPartial_eq_ok {q : PartialParams} {p : Params} : Params.fromPartial rt q = .ok p ↔
    ∃ clientAtSign, q.clientAtSign = some clientAtSign ∧
      (q.listDevices.getD DefaultSshnpArgs.listDevices = true ∨ q.sshnpdAtSign.isSome = true) ∧
      p.toParamValues = q.values rt clientAtSign := by
  unfold Params.fromPartial
  cases hc : q.clientAtSign with
  | none => simp
  | some clientAtSign =>
    simp only [Option.some.injEq, exists_eq_left']
    split
    · rename_i hto
      simp [hto.1, hto.2]
    · rename_i hto
      rw [Params.of_eq_ok]
      have hor : q.listDevices.getD DefaultSshnpArgs.listDevices = true ∨ q.sshnpdAtSign.isSome = true := by
        by_contra hneither
        rw [not_or, Bool.not_eq_true, Bool.not_eq_true, Option.isSome_eq_false_iff, Option.isNone_iff_eq_none] at hneither
        exact hto hneither
      simp only [hor, true_and]

/-! ### Config lines -/

/-- A parameter that a config file may hold. -/
def Saved (arg : SshnpArg) : Prop := arg ∈ SshnpArg.args ∧ ParserType.configFile.shouldParse arg.parseWhen = true

instance (arg : SshnpArg) : Decidable (Saved arg) := inferInstanceAs (Decidable (_ ∧ _))

theorem fromName_name {arg : SshnpArg} (h : arg ∈ SshnpArg.args) : SshnpArg.fromName arg.name = arg := by
  have hall : ∀ a ∈ SshnpArg.args, SshnpArg.fromName a.name = a := by decide +kernel
  exact hall arg h

theorem name_ne : ∀ arg ∈ SshnpArg.args, arg.name ≠ "" := by decide +kernel

theorem Saved.fromBashName {arg : SshnpArg} (h : Saved arg) : SshnpArg.fromBashName arg.bashName = arg := by
  have hall : ∀ a ∈ SshnpArg.args, SshnpArg.fromBashName a.bashName = a := by decide +kernel
  exact hall arg h.1

end NoPorts.SshnpParams
