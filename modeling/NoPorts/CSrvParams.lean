import NoPorts.CArgparse
import NoPorts.CDaemonRequests

/-! The srv worker a C daemon starts: the command line and the environment it is given, and what
`parse_srv_params` makes of them in the new process. -/
namespace NoPorts.CSrvParams
open Lib CArgs CDaemon

/-- `srv_params_t`, with `Key` for a parsed private key. -/
structure SrvParams (Key : Type*) where
  host : Option String
  port : ℕ
  localHost : String
  localPort : ℕ
  rvAuth : Bool
  rvE2ee : Bool
  multi : Bool
  timeout : ℤ
  rvdAuthString : Option String
  escrAuth : Bool
  escrIsSideA : Bool
  escrSessionId : Option String
  escrAesKeyBase64 : Option String
  escrSigningKeyUri : Option String
  escrSigningKey : Option Key
  sessionAesKeyC2d : Option String
  sessionAesIvC2d : Option String
  sessionAesKeyD2c : Option String
  sessionAesIvD2c : Option String
  readyFd : ℤ
  deriving DecidableEq, Repr

/-- `srv_env_t` -/
structure SrvEnv where
  rvdAuthString : Option String
  sessionAesKeyC2d : Option String
  sessionAesIvC2d : Option String
  sessionAesKeyD2c : Option String
  sessionAesIvD2c : Option String

variable {Key : Type*}

/-- `apply_default_values_to_srv_params` -/
def defaultValues : SrvParams Key where
  host := none
  port := 0
  localHost := "localhost"
  localPort := 22
  rvAuth := false
  rvE2ee := false
  multi := false
  timeout := srvDefaultTimeoutSeconds
  rvdAuthString := none
  escrAuth := false
  escrIsSideA := false
  escrSessionId := none
  escrAesKeyBase64 := none
  escrSigningKeyUri := none
  escrSigningKey := none
  sessionAesKeyC2d := none
  sessionAesIvC2d := none
  sessionAesKeyD2c := none
  sessionAesIvD2c := none
  readyFd := -1

/-- What the options of `parse_srv_params` point to. -/
structure Values (Key : Type*) where
  params : SrvParams Key
  relayAuthMode : Option String
  port : ℤ
  localPort : ℤ

/-- Why `parse_srv_params` does not return 0. -/
inductive Stop where
  | exit (exit : Exit)
  | refused (message : String)
  deriving DecidableEq, Repr

def options (Key : Type*) : List (ArgparseOption (Values Key)) := [
  { target := .help, shortName := none, longName := ['h', 'e', 'l', 'p'], noneg := true },
  { target := .string fun s v => { v with params.host := some (.ofList s) },
    shortName := some 'h', longName := ['h', 'o', 's', 't'] },
  { target := .integer fun n v => { v with port := n }, shortName := some 'p',
    longName := ['p', 'o', 'r', 't'] },
  { target := .integer fun n v => { v with localPort := n }, shortName := none,
    longName := ['l', 'o', 'c', 'a', 'l', '-', 'p', 'o', 'r', 't'] },
  { target := .string fun s v => { v with params.localHost := .ofList s }, shortName := none,
    longName := ['l', 'o', 'c', 'a', 'l', '-', 'h', 'o', 's', 't'] },
  { target := .boolean fun b v => { v with params.rvAuth := b }, shortName := none,
    longName := ['r', 'v', '-', 'a', 'u', 't', 'h'] },
  { target := .string fun s v => { v with relayAuthMode := some (.ofList s) },
    shortName := some 'a',
    longName := ['r', 'e', 'l', 'a', 'y', '-', 'a', 'u', 't', 'h', '-', 'm', 'o', 'd', 'e'] },
  { target := .boolean fun b v => { v with params.rvE2ee := b }, shortName := none,
    longName := ['r', 'v', '-', 'e', '2', 'e', 'e'] },
  { target := .boolean fun b v => { v with params.multi := b }, shortName := none,
    longName := ['m', 'u', 'l', 't', 'i'] },
  { target := .integer fun n v => { v with params.timeout := n }, shortName := none,
    longName := ['t', 'i', 'm', 'e', 'o', 'u', 't'] }]

/-- The ESCR part of the environment. -/
def escrParams (populatePrivateKey : String → Option Key) (getenv : String → Option String)
    (params : SrvParams Key) : Except Stop (SrvParams Key) :=
  if params.rvAuth then
    .error (.refused "--rv-auth and --relay-auth-mode escr are mutually exclusive")
  else
    match getenv "REMOTE_AUTH_ESCR_SESSION_ID", getenv "REMOTE_AUTH_ESCR_AES_KEY",
        getenv "REMOTE_AUTH_ESCR_PUB_KEY_URI", getenv "REMOTE_AUTH_ESCR_SIGNING_PRIVKEY",
        getenv "REMOTE_AUTH_ESCR_IS_SIDE_A" with
    | some sessionId, some aesKey, some uri, some privkey, some isSideA =>
      if isSideA ≠ "true" ∧ isSideA ≠ "false" then
        .error (.refused "REMOTE_AUTH_ESCR_IS_SIDE_A must be 'true' or 'false'")
      else
        match populatePrivateKey privkey with
        | none => .error (.refused "Failed to parse REMOTE_AUTH_ESCR_SIGNING_PRIVKEY")
        | some key => .ok { params with
            escrSessionId := some sessionId
            escrAesKeyBase64 := some aesKey
            escrSigningKeyUri := some uri
            escrIsSideA := isSideA = "true"
            escrSigningKey := some key
            escrAuth := true }
    | _, _, _, _, _ => .error (.refused ("--relay-auth-mode escr requires " ++
        "REMOTE_AUTH_ESCR_SESSION_ID, REMOTE_AUTH_ESCR_AES_KEY, REMOTE_AUTH_ESCR_PUB_KEY_URI, " ++
        "REMOTE_AUTH_ESCR_SIGNING_PRIVKEY and REMOTE_AUTH_ESCR_IS_SIDE_A in the environment"))

def rvAuthParams (environment : Option SrvEnv) (getenv : String → Option String)
    (params : SrvParams Key) : Except Stop (SrvParams Key) :=
  if params.rvAuth then
    match (environment.bind SrvEnv.rvdAuthString).or (getenv "RV_AUTH") with
    | none => .error (.refused "--rv-auth enabled, but RV_AUTH is not in envionment")
    | some auth => .ok { params with rvdAuthString := some auth }
  else .ok params

/-- Keys and ivs, the names of single-key sessions standing in for those of twinned ones. -/
def rvE2eeParams (environment : Option SrvEnv) (getenv : String → Option String)
    (params : SrvParams Key) : Except Stop (SrvParams Key) :=
  if params.rvE2ee then
    match (environment.bind SrvEnv.sessionAesKeyC2d).or
        ((getenv "RV_AES_C2D").or (getenv "RV_AES")) with
    | none => .error (.refused
        "--rv-e2ee enabled, but neither RV_AES_C2D nor RV_AES is in environment")
    | some keyC2d =>
      match (environment.bind SrvEnv.sessionAesIvC2d).or
          ((getenv "RV_IV_C2D").or (getenv "RV_IV")) with
      | none => .error (.refused
          "--rv-e2ee enabled, but neither RV_IV_C2D nor RV_IV is in environment")
      | some ivC2d =>
        let keyD2c := (environment.bind SrvEnv.sessionAesKeyD2c).or (getenv "RV_AES_D2C")
        let ivD2c := (environment.bind SrvEnv.sessionAesIvD2c).or (getenv "RV_IV_D2C")
        if keyD2c.isNone ≠ ivD2c.isNone then
          .error (.refused "RV_AES_D2C and RV_IV_D2C must be provided together")
        else
          .ok { params with
            sessionAesKeyC2d := some keyC2d
            sessionAesIvC2d := some ivC2d
            sessionAesKeyD2c := keyD2c
            sessionAesIvD2c := ivD2c }
  else .ok params

/-- `parse_srv_params`, for the arguments after the program's name. -/
def parseSrvParams (populatePrivateKey : String → Option Key) (params : SrvParams Key)
    (argv : List (List Char)) (environment : Option SrvEnv) (getenv : String → Option String) :
    Except Stop (SrvParams Key) :=
  match argparseParse (options Key) argv ⟨params, none, params.port, params.localPort⟩ with
  | .error exit => .error (.exit exit)
  | .ok (_, v) =>
    if v.port < 0 ∨ 65535 < v.port ∨ v.localPort < 1 ∨ 65535 < v.localPort then
      .error (.refused "Invalid Argument(s): ports must be 1-65535")
    else
      let params := { v.params with port := v.port.toNat, localPort := v.localPort.toNat }
      if params.host = none then
        .error (.refused "Invalid Argument(s): Option host is mandatory")
      else if params.port = 0 then
        .error (.refused "Invalid Argument(s) Option port is mandatory")
      else do
        let params ← match v.relayAuthMode with
          | none | some "payload" => .ok params
          | some "escr" => escrParams populatePrivateKey getenv params
          | some mode => .error (.refused ("Unknown --relay-auth-mode: " ++ mode))
        let params ← rvAuthParams environment getenv params
        rvE2eeParams environment getenv params

/-! ### main.c -/

/-- `SRV_WORKER_FLAG` -/
def srvWorkerFlag : List Char := "--__srv-worker".toList

def atoi (s : List Char) : ℤ := toInt ((strtol s).elim 0 (·.1))

/-- What `main` runs the srv with when it is started as a worker; none when it is not. -/
def workerMain (populatePrivateKey : String → Option Key) (argv : List (List Char))
    (getenv : String → Option String) : Option (Except Stop (SrvParams Key)) :=
  match argv with
  | _ :: flag :: args =>
    if flag = srvWorkerFlag then
      some do
        let params ← parseSrvParams populatePrivateKey defaultValues args none getenv
        return match getenv "SRV_READY_FD" with
          | none => params
          | some fd => { params with readyFd := atoi fd.toList }
    else none
  | _ => none

end NoPorts.CSrvParams
