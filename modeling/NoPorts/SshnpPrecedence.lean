import NoPorts.SshnpParams

/-! Where each parameter of a client session comes from: the command line, a config file or the defaults. -/
namespace NoPorts.SshnpParams
open Lib
open GroupReplicas (intParse)

variable (rt : Runtime)

/-! ### config_file_repository.dart -/

inductive ConfigFile where
  | missing
  | unreadable
  | lines (ls : List String)
  deriving DecidableEq, Repr

/-- What an `ArgParser` makes of a command line: `ArgResults`. -/
structure ArgResults where
  options : List String
  /-- The operator `[]`. -/
  value : String → Option ArgValue
  wasParsed : String → Bool
  rest : List String

/-- What `fromArgList` calls outside the repository. -/
structure Shell where
  /-- `path.basenameWithoutExtension` -/
  basenameWithoutExtension : String → String
  file : String → ConfigFile
  /-- `ArgParser.parse`, of the parser with these arguments and no defaults. -/
  parse : List SshnpArg → List String → Except Thrown ArgResults

variable (sh : Shell)

def toProfileName (fileName : String) : String :=
  String.ofList ((sh.basenameWithoutExtension fileName).toList.map fun c => if c = '_' then ' ' else c)

def parseConfigFile (fileName : String) : Except Thrown ArgMap :=
  match sh.file fileName with
  | .missing => .error (.exception ("Config file does not exist: " ++ fileName))
  | .unreadable => .error (.exception ("Error reading config file: " ++ fileName))
  | .lines ls => .ok (parseConfigFileContents rt ls)

/-! ### sshnp_params.dart -/

/-- `SshnpPartialParams.fromFile` -/
def PartialParams.fromFile (fileName : String) : Except Thrown PartialParams := do
  let args ← parseConfigFile rt sh fileName
  PartialParams.fromArgMap rt (args.set profileNameArg.name (some (.string (toProfileName sh fileName))))

/-- `SshnpArg.createArgParser`, without defaults. -/
def createArgParser (parserType : ParserType) : List SshnpArg :=
  SshnpArg.args.filter fun arg => parserType.shouldParse arg.parseWhen

/-- The value of a parsed option, an `int` where its type is integer. -/
def typedValue (arg : SshnpArg) (v : Option ArgValue) : Except Thrown (Option ArgValue) :=
  match arg.type, v with
  | .string, v => .ok v
  | .integer, some (.string s) =>
    match intParse s with
    | some n => .ok (some (.int (Int64.ofInt n)))
    | none => .error (.argumentError ("Invalid value \"" ++ s ++ "\" for option --" ++ arg.name ++
        arg.abbr.elim "" fun abbr => " (-" ++ abbr ++ ")"))
  | .integer, _ => .error .typeError

def parsedArgsMap (parsedArgs : ArgResults) : Except Thrown ArgMap :=
  parsedArgs.options.foldlM (fun (m : ArgMap) e => do
    return m.set e (← typedValue (SshnpArg.fromName e) (parsedArgs.value e))) .empty

/-- The file that the command line names. -/
def configFileName (parserType : ParserType) (parsedArgs : ArgResults) : Option ArgValue :=
  if configFileArg ∈ createArgParser parserType ∧ parsedArgs.wasParsed configFileArg.name = true then
    parsedArgs.value configFileArg.name
  else none

/-- The params of the config file, merged into empty ones. -/
def configFileParams (parserType : ParserType) (parsedArgs : ArgResults) : Except Thrown PartialParams :=
  if configFileArg ∈ createArgParser parserType ∧ parsedArgs.wasParsed configFileArg.name = true then
    match parsedArgs.value configFileArg.name with
    | some (.string configFileName) => do
      return PartialParams.merge .empty (← PartialParams.fromFile rt sh configFileName)
    | _ => .error .typeError
  else .ok .empty

/-- `SshnpPartialParams.fromArgList` -/
def PartialParams.fromArgList (parserType : ParserType) (args : List String) : Except Thrown PartialParams := do
  let parsedArgs ← sh.parse (createArgParser parserType) args
  let params ← configFileParams rt sh parserType parsedArgs
  let parsedArgsMap ← parsedArgsMap parsedArgs
  if parsedArgs.rest ≠ [] then
    .error (.argumentError ("Unparsed args [" ++ ", ".intercalate parsedArgs.rest ++ "]"))
  else do
    return PartialParams.merge params (← PartialParams.fromArgMap rt parsedArgsMap)

/-! ### What each source gives -/

/-- What is documented of the results of parsing: an option that was given has a value; of those that were not,
only the multi-options have one, the empty list. -/
structure ArgResults.Documented (parser : List SshnpArg) (r : ArgResults) : Prop where
  parsed : ∀ n, r.wasParsed n = true → ∃ arg ∈ parser, arg.name = n
  options : ∀ n, n ∈ r.options ↔ r.wasParsed n = true ∨ ∃ arg ∈ parser, arg.name = n ∧ arg.format = .multiOption
  multi : ∀ arg ∈ parser, arg.format = .multiOption → r.wasParsed arg.name = false →
    r.value arg.name = some (.strings [])
  given : ∀ n, r.wasParsed n = true → r.value n ≠ none

/-- The values that the command line gives. -/
def commandLine (r : ArgResults) : ArgMap := fun n =>
  if r.wasParsed n = true then
    if (SshnpArg.fromName n).type = .integer then
      ((r.value n).bind ArgValue.string?).bind fun s => (intParse s).map fun v => .int (Int64.ofInt v)
    else r.value n
  else none

/-- The value that a line gives for `arg`. -/
def lineValue (arg : SshnpArg) (line : String) : Option String :=
  if "#".toList.isPrefixOf line.toList then none
  else
    match split line '=' with
    | [key, value] => if Signing.trim key = arg.bashName then some (Signing.trim value) else none
    | _ => none

/-- The value that the lines of a file leave an argument with; a profile is named after its file. -/
def fileValue (profileName : String) (ls : List String) : ArgMap := fun n =>
  let arg := SshnpArg.fromName n
  if n = profileNameArg.name then some (.string profileName)
  else if ParserType.configFile.shouldParse arg.parseWhen = true ∧ arg.name ≠ "" then
    (ls.filterMap (lineValue arg)).foldl (fun before value => readValue rt arg value before) none
  else none

/-- The values that the config file gives, when the command line names one. -/
def configFile (parserType : ParserType) (r : ArgResults) : ArgMap :=
  match configFileName parserType r with
  | some (.string name) =>
    match sh.file name with
    | .lines ls => fileValue rt (toProfileName sh name) ls
    | _ => .empty
  | _ => .empty

/-- The command line's value of an argument when it gives one, else the config file's. -/
def chosen (cmd file : ArgMap) (arg : SshnpArg) : Option ArgValue := cmd arg.name <|> file arg.name

/-- Each parameter is what the command line gives, else what the file gives, else its default. -/
structure Precedence (cmd file : ArgMap) (p : Params) : Prop where
  profileName : chosen cmd file profileNameArg = p.profileName.map .string
  clientAtSign : ∃ s, chosen cmd file fromArg = some (.string s) ∧ rt.fixAtSign s = some p.clientAtSign
  sshnpdAtSign : chosen cmd file toArg = none ∧ p.sshnpdAtSign = "" ∨
    ∃ s, chosen cmd file toArg = some (.string s) ∧ rt.fixAtSign s = some p.sshnpdAtSign
  srvdAtSign : ((cmd srvdArg.name <|> cmd legacySrvdArg.name) <|> file srvdArg.name <|> file legacySrvdArg.name).getD
    (.string "") = .string p.srvdAtSign
  device : ∃ s, (chosen cmd file deviceArg).getD (.string DefaultSshnpArgs.device) = .string s ∧
    p.device = snakifyDeviceName rt s
  localPort : (chosen cmd file localPortArg).getD (.int DefaultSshnpArgs.localPort) = .int p.localPort
  atKeysFilePath : chosen cmd file keyFileArg = p.atKeysFilePath.map .string
  passPhrase : chosen cmd file passPhraseArg = p.passPhrase.map .string
  identityFile : chosen cmd file identityFileArg = p.identityFile.map .string
  identityPassphrase : chosen cmd file identityPassphraseArg = p.identityPassphrase.map .string
  sendSshPublicKey : (chosen cmd file sendSshPublicKeyArg).getD (.bool DefaultSshnpArgs.sendSshPublicKey) =
    .bool p.sendSshPublicKey
  localSshOptions : (chosen cmd file localSshOptionsArg).getD (.strings DefaultSshnpArgs.localSshOptions) =
    .strings p.localSshOptions
  remoteUsername : chosen cmd file remoteUserNameArg = p.remoteUsername.map .string
  tunnelUsername : chosen cmd file tunnelUserNameArg = p.tunnelUsername.map .string
  verbose : (chosen cmd file verboseArg).getD (.bool DefaultArgs.verbose) = .bool p.verbose
  rootDomain : (chosen cmd file rootServerArg).getD (.string DefaultArgs.rootDomain) = .string p.rootDomain
  listDevices : (chosen cmd file listDevicesArg).getD (.bool DefaultSshnpArgs.listDevices) = .bool p.listDevices
  remoteSshdPort : (chosen cmd file remoteSshdPortArg).getD (.int DefaultArgs.remoteSshdPort) = .int p.remoteSshdPort
  idleTimeout : (chosen cmd file idleTimeoutArg).getD (.int DefaultArgs.idleTimeout) = .int p.idleTimeout
  addForwardsToTunnel : (chosen cmd file addForwardsToTunnelArg).getD (.bool DefaultArgs.addForwardsToTunnel) =
    .bool p.addForwardsToTunnel
  authenticateClientToRvd : (chosen cmd file authenticateClientToRvdArg).getD
    (.bool DefaultArgs.authenticateClientToRvd) = .bool p.authenticateClientToRvd
  authenticateDeviceToRvd : (chosen cmd file authenticateDeviceToRvdArg).getD
    (.bool DefaultArgs.authenticateDeviceToRvd) = .bool p.authenticateDeviceToRvd
  encryptRvdTraffic : (chosen cmd file encryptRvdTrafficArg).getD (.bool DefaultArgs.encryptRvdTraffic) =
    .bool p.encryptRvdTraffic
  relayAuthMode : (chosen cmd file relayAuthModeArg).getD (.string (relayAuthModeName DefaultArgs.relayAuthMode)) =
    .string (relayAuthModeName p.relayAuthMode)
  relayAuthModeExplicit : p.relayAuthModeExplicit = (chosen cmd file relayAuthModeArg).isSome
  daemonPingTimeout : ∃ n, (chosen cmd file daemonPingTimeoutArg).getD (.int DefaultArgs.daemonPingTimeoutSeconds) =
    .int n ∧ p.daemonPingTimeout = .ofSeconds n
  only443 : (chosen cmd file only443Arg).getD (.bool false) = .bool p.only443

/-- The file gives nothing that is filled in before it is asked. -/
structure Asked (cmd file : ArgMap) : Prop where
  rootDomain : cmd rootServerArg.name ≠ none ∨ file rootServerArg.name = none ∨
    file rootServerArg.name = some (.string DefaultArgs.rootDomain)
  localSshOptions : cmd localSshOptionsArg.name ≠ none ∨ file localSshOptionsArg.name = none ∨
    file localSshOptionsArg.name = some (.strings [])

/-! ### The maps -/

theorem fromBashName_eq {key : String} (h : (SshnpArg.fromBashName key).name ≠ "") :
    SshnpArg.fromBashName key ∈ SshnpArg.args ∧ (SshnpArg.fromBashName key).bashName = key := by
  unfold SshnpArg.fromBashName at h ⊢
  cases hfind : SshnpArg.args.find? fun arg => arg.bashName = key with
  | none =>
    rw [hfind] at h
    exact absurd rfl h
  | some arg =>
    have hbash : decide (arg.bashName = key) = true := (List.find?_eq_some_iff_append.mp hfind).1
    exact ⟨List.mem_of_find?_eq_some hfind, of_decide_eq_true hbash⟩

theorem fromName_mem {n : String} (h : (SshnpArg.fromName n).name ≠ "") :
    SshnpArg.fromName n ∈ SshnpArg.args ∧ (SshnpArg.fromName n).name = n := by
  unfold SshnpArg.fromName at h ⊢
  cases hfind : SshnpArg.args.find? fun arg => arg.name = n with
  | none =>
    rw [hfind] at h
    exact absurd rfl h
  | some arg =>
    have hname : decide (arg.name = n) = true := (List.find?_eq_some_iff_append.mp hfind).1
    exact ⟨List.mem_of_find?_eq_some hfind, of_decide_eq_true hname⟩

/-- A line changes the value of an argument that a file may hold only when it is for that argument. -/
theorem parseConfigLine_apply {arg : SshnpArg} (h : Saved arg) (args : ArgMap) (line : String) :
    parseConfigLine rt args line arg.name =
      (lineValue arg line).elim (args arg.name) fun v => readValue rt arg v (args arg.name) := by
  unfold parseConfigLine lineValue
  split
  · rfl
  · generalize split line '=' = parts
    -- a line is for an argument when it has one key and one value
    rcases parts with _ | ⟨key, _ | ⟨value, _ | ⟨third, rest⟩⟩⟩
    · rfl
    · rfl
    · by_cases hkey : Signing.trim key = arg.bashName
      · simp only [hkey, h.fromBashName, name_ne arg h.1, h.2, Bool.true_eq_false, if_false, if_true, ArgMap.set_self,
          Option.elim]
      · simp only [if_neg hkey, Option.elim]
        split
        · rfl
        · rename_i hname
          split
          · rfl
          · have hne : arg.name ≠ (SshnpArg.fromBashName (Signing.trim key)).name := by
              intro hsame
              obtain ⟨hmem, hbash⟩ := fromBashName_eq hname
              have hargs : SshnpArg.fromBashName (Signing.trim key) = arg := by
                rw [← fromName_name hmem, ← fromName_name h.1, hsame]
              exact hkey (by rw [← hbash, hargs])
            exact ArgMap.set_of_ne hne _
    · rfl

/-- No line is for an argument that a file may not hold. -/
theorem parseConfigLine_other {n : String} (h : ∀ arg, Saved arg → arg.name ≠ n) (args : ArgMap) (line : String) :
    parseConfigLine rt args line n = args n := by
  unfold parseConfigLine
  split
  · rfl
  · generalize split line '=' = parts
    rcases parts with _ | ⟨key, _ | ⟨value, _ | ⟨third, rest⟩⟩⟩
    · rfl
    · rfl
    · dsimp only
      split
      · rfl
      · rename_i hname
        split
        · rfl
        · rename_i hparse
          obtain ⟨hmem, -⟩ := fromBashName_eq hname
          exact ArgMap.set_of_ne (fun hn => h _ ⟨hmem, by simpa using hparse⟩ hn.symm) _
    · rfl

theorem fileArgs_eq (profileName : String) (ls : List String) :
    (parseConfigFileContents rt ls).set profileNameArg.name (some (.string profileName)) =
      fileValue rt profileName ls := by
  funext n
  unfold fileValue
  by_cases hprofile : n = profileNameArg.name
  · rw [if_pos hprofile, hprofile, ArgMap.set_self]
  · rw [if_neg hprofile, ArgMap.set_of_ne hprofile]
    split
    · rename_i hsaved
      obtain ⟨hmem, hname⟩ := fromName_mem hsaved.2
      have hfold (acc : ArgMap) : ls.foldl (parseConfigLine rt) acc (SshnpArg.fromName n).name =
          (ls.filterMap (lineValue (SshnpArg.fromName n))).foldl
            (fun before value => readValue rt (SshnpArg.fromName n) value before) (acc (SshnpArg.fromName n).name) := by
        induction ls generalizing acc with
        | nil => rfl
        | cons line ls ih =>
          rw [List.foldl_cons, ih, parseConfigLine_apply rt ⟨hmem, hsaved.1⟩, List.filterMap_cons]
          cases lineValue (SshnpArg.fromName n) line <;> rfl
      have hempty := hfold .empty
      rw [hname] at hempty
      exact hempty
    · rename_i hsaved
      have hother : ∀ arg, Saved arg → arg.name ≠ n := by
        intro arg harg hn
        rw [← hn, fromName_name harg.1] at hsaved
        exact hsaved ⟨harg.2, name_ne arg harg.1⟩
      have hfold (acc : ArgMap) : ls.foldl (parseConfigLine rt) acc n = acc n := by
        induction ls generalizing acc with
        | nil => rfl
        | cons line ls ih => rw [List.foldl_cons, ih, parseConfigLine_other rt hother]
      exact hfold .empty

theorem parsedArgsMap_ok {r : ArgResults} {m : ArgMap} (h : parsedArgsMap r = .ok m) (n : String) :
    (n ∈ r.options → typedValue (SshnpArg.fromName n) (r.value n) = .ok (m n)) ∧ (n ∉ r.options → m n = none) := by
  have hfold (es : List String) (acc : ArgMap) (hm : es.foldlM (fun (m : ArgMap) e => do
      return m.set e (← typedValue (SshnpArg.fromName e) (r.value e))) acc = .ok m) :
      (n ∈ es → typedValue (SshnpArg.fromName n) (r.value n) = .ok (m n)) ∧ (n ∉ es → m n = acc n) := by
    induction es generalizing acc with
    | nil =>
      cases hm
      exact ⟨fun hn => absurd hn List.not_mem_nil, fun _ => rfl⟩
    | cons e es ih =>
      rw [List.foldlM_cons] at hm
      obtain ⟨acc', hacc, hm⟩ := bind_eq_ok.mp hm
      obtain ⟨v, hv, hset⟩ := bind_eq_ok.mp hacc
      cases hset
      obtain ⟨hmem, hnot⟩ := ih _ hm
      constructor
      · intro hn
        by_cases hes : n ∈ es
        · exact hmem hes
        · have he : n = e := (List.mem_cons.mp hn).resolve_right hes
          rw [hnot hes, he, ArgMap.set_self, hv]
      · intro hn
        rw [List.mem_cons, not_or] at hn
        rw [hnot hn.2, ArgMap.set_of_ne hn.1]
  exact hfold r.options .empty h

theorem multiOption_eq : ∀ arg ∈ SshnpArg.args, arg.format = .multiOption → arg = localSshOptionsArg := by
  decide +kernel

theorem localSshOptions_mem (parserType : ParserType) : localSshOptionsArg ∈ createArgParser parserType := by
  cases parserType <;> decide +kernel

theorem commandLine_typed {r : ArgResults} {n : String} {v : Option ArgValue} (hparsed : r.wasParsed n = true)
    (h : typedValue (SshnpArg.fromName n) (r.value n) = .ok v) : commandLine r n = v := by
  unfold commandLine typedValue at *
  rw [if_pos hparsed]
  split at h
  · rename_i htype
    rw [htype, if_neg (by decide)]
    exact Except.ok.inj h
  · rename_i s htype hvalue
    rw [htype, hvalue, if_pos rfl]
    split at h
    · rename_i k hk
      simp only [Option.bind_some, ArgValue.string?, hk, Option.map_some]
      exact Except.ok.inj h
    · cases h
  · cases h

/-- The map of the options is what the command line gives, and the list of options always. -/
theorem parsedArgsMap_eq {parserType : ParserType} {r : ArgResults} {m : ArgMap}
    (hdoc : r.Documented (createArgParser parserType)) (h : parsedArgsMap r = .ok m) :
    (∀ n, n ≠ localSshOptionsArg.name → m n = commandLine r n) ∧
      m localSshOptionsArg.name = some ((commandLine r localSshOptionsArg.name).getD (.strings [])) := by
  have hunparsed {n : String} (hn : r.wasParsed n = false) : commandLine r n = none := by
    rw [commandLine, if_neg (by rw [hn]; exact Bool.false_ne_true)]
  constructor
  · intro n hn
    obtain ⟨hmem, hnot⟩ := parsedArgsMap_ok h n
    by_cases hparsed : r.wasParsed n = true
    · exact (commandLine_typed hparsed (hmem ((hdoc.options n).mpr (Or.inl hparsed)))).symm
    · rw [hunparsed (Bool.eq_false_iff.mpr hparsed), hnot]
      intro hoption
      rcases (hdoc.options n).mp hoption with hp | ⟨arg, harg, hname, hformat⟩
      · exact hparsed hp
      · rw [multiOption_eq arg (List.mem_filter.mp harg).1 hformat] at hname
        exact hn hname.symm
  · have hin := (hdoc.options localSshOptionsArg.name).mpr (Or.inr ⟨_, localSshOptions_mem parserType, rfl, rfl⟩)
    have htyped := (parsedArgsMap_ok h localSshOptionsArg.name).1 hin
    by_cases hparsed : r.wasParsed localSshOptionsArg.name = true
    · rw [commandLine_typed hparsed htyped]
      obtain ⟨v, hv⟩ := Option.ne_none_iff_exists'.mp (hdoc.given _ hparsed)
      rw [← Except.ok.inj htyped, hv]
      rfl
    · rw [Bool.not_eq_true] at hparsed
      rw [hunparsed hparsed]
      rw [hdoc.multi _ (localSshOptions_mem parserType) rfl hparsed] at htyped
      exact (Except.ok.inj htyped).symm

/-! ### Merging -/

section Merging
variable {α : Type} {mk : α → ArgValue} {cmd file : Option ArgValue} {x₁ x₂ : Option α}

/-- A file's value is passed over, except where it is what would be there without it. -/
theorem chosen_eq_default_iff {β : Type} {cmd file : Option β} {d : β} :
    (cmd <|> file).getD d = cmd.getD d ↔ cmd ≠ none ∨ file = none ∨ file = some d := by
  cases cmd with
  | none => cases file <;> simp
  | some v => simp

theorem chosen_map (h₂ : cmd = x₂.map mk) (h₁ : file = x₁.map mk) : (cmd <|> file) = (x₂ <|> x₁).map mk := by
  rw [h₂, h₁]
  cases x₂ <;> rfl

theorem chosen_getD (h₂ : cmd = x₂.map mk) (h₁ : file = x₁.map mk) (d : α) :
    (cmd <|> file).getD (mk d) = mk ((x₂ <|> x₁).getD d) := by
  rw [chosen_map h₂ h₁, Option.getD_map]

end Merging

theorem fixAtSign_orElse {s₁ s₂ c₁ c₂ : Option String} (h₂ : fixAtSign rt s₂ = .ok c₂) (h₁ : fixAtSign rt s₁ = .ok c₁) :
    fixAtSign rt (s₂ <|> s₁) = .ok (c₂ <|> c₁) := by
  rw [fixAtSign_eq_ok] at *
  cases s₂ with
  | none =>
    rw [h₂.1]
    exact h₁
  | some s =>
    obtain ⟨t, ht⟩ := Option.isSome_iff_exists.mp h₂.2
    rw [ht] at h₂ ⊢
    exact h₂

theorem fixAtSign_some {s : Option String} {c : String} (h : fixAtSign rt s = .ok (some c)) :
    ∃ t, s = some t ∧ rt.fixAtSign t = some c := by
  obtain ⟨hbind, -⟩ := (fixAtSign_eq_ok rt).mp h
  exact Option.bind_eq_some_iff.mp hbind.symm

theorem fixAtSign_none {s : Option String} (h : fixAtSign rt s = .ok none) : s = none := by
  obtain ⟨-, hsome⟩ := (fixAtSign_eq_ok rt).mp h
  exact Option.isSome_eq_false_iff.mp hsome.symm |> Option.isNone_iff_eq_none.mp

theorem merge_empty (q : PartialParams) : PartialParams.merge .empty q = q := by
  have hnone {α : Type} (x : Option α) : (x <|> none) = x := by cases x <;> rfl
  simp only [PartialParams.merge, PartialParams.empty, hnone]

/-- What an empty map is read as. -/
def emptyRead : PartialParams where
  rootDomain := some DefaultArgs.rootDomain
  daemonPingTimeout := some (.ofSeconds DefaultArgs.daemonPingTimeoutSeconds)

theorem reads_empty : Reads rt .empty emptyRead where
  profileName := rfl
  clientAtSign := ⟨none, rfl, rfl⟩
  sshnpdAtSign := ⟨none, rfl, rfl⟩
  srvdAtSign := rfl
  device := rfl
  localPort := rfl
  atKeysFilePath := rfl
  passPhrase := rfl
  identityFile := rfl
  identityPassphrase := rfl
  sendSshPublicKey := rfl
  localSshOptions := rfl
  remoteUsername := rfl
  tunnelUsername := rfl
  verbose := rfl
  rootDomain := ⟨none, rfl, rfl⟩
  listDevices := rfl
  remoteSshdPort := rfl
  idleTimeout := rfl
  addForwardsToTunnel := rfl
  sshAlgorithm := ⟨none, rfl, rfl⟩
  authenticateClientToRvd := rfl
  authenticateDeviceToRvd := rfl
  encryptRvdTraffic := rfl
  relayAuthMode := rfl
  daemonPingTimeout := ⟨none, rfl, rfl⟩
  only443 := rfl

/-- The command line's map fills in the two defaults, whatever it is merged over. -/
theorem merge_emptyRead {args : ArgMap} {q : PartialParams} (h : Reads rt args q) :
    PartialParams.merge .empty q = PartialParams.merge emptyRead q := by
  obtain ⟨s, -, hroot⟩ := h.rootDomain
  obtain ⟨n, -, hping⟩ := h.daemonPingTimeout
  simp only [PartialParams.merge, emptyRead, PartialParams.empty, hroot, hping]
  rfl

/-- A command line that is accepted is the merge of what is read of the file and of the command line. -/
theorem fromArgList_ok {parserType : ParserType} {args : List String} {r : ArgResults} {q : PartialParams}
    (hr : sh.parse (createArgParser parserType) args = .ok r)
    (h : PartialParams.fromArgList rt sh parserType args = .ok q) :
    ∃ m q₁ q₂, parsedArgsMap r = .ok m ∧ Reads rt m q₂ ∧ Reads rt (configFile rt sh parserType r) q₁ ∧
      q = PartialParams.merge q₁ q₂ := by
  unfold PartialParams.fromArgList at h
  rw [hr, ok_bind] at h
  obtain ⟨params, hparams, h⟩ := bind_eq_ok.mp h
  obtain ⟨m, hm, h⟩ := bind_eq_ok.mp h
  split at h
  · cases h
  · obtain ⟨q₂, hq₂, h⟩ := bind_eq_ok.mp h
    cases h
    have hreads := reads_of_fromArgMap rt hq₂
    unfold configFile configFileName
    unfold configFileParams at hparams
    split at hparams
    · rename_i hgiven
      rw [if_pos hgiven]
      split at hparams
      · rename_i name hname
        obtain ⟨q₁, hq₁, hparams⟩ := bind_eq_ok.mp hparams
        cases hparams
        obtain ⟨fileArgs, hfile, hq₁⟩ := bind_eq_ok.mp hq₁
        unfold parseConfigFile at hfile
        split at hfile
        · cases hfile
        · cases hfile
        · rename_i ls hls
          cases hfile
          rw [fileArgs_eq] at hq₁
          refine ⟨m, q₁, q₂, hm, hreads, ?_, by rw [merge_empty]⟩
          simp only [hls]
          exact reads_of_fromArgMap rt hq₁
      · cases hparams
    · rename_i hgiven
      cases hparams
      rw [if_neg hgiven]
      exact ⟨m, emptyRead, q₂, hm, hreads, reads_empty rt, merge_emptyRead rt hreads⟩

/-- A file gives no value for what only the command line has. -/
theorem configFile_commandLine (parserType : ParserType) (r : ArgResults) {arg : SshnpArg} (harg : arg ∈ SshnpArg.args)
    (hwhen : arg.parseWhen = .commandLine) : configFile rt sh parserType r arg.name = none := by
  have hprofile : arg.name ≠ profileNameArg.name := by
    intro hname
    have hsame : SshnpArg.fromName arg.name = SshnpArg.fromName profileNameArg.name := congrArg _ hname
    rw [fromName_name harg, fromName_name (by decide +kernel)] at hsame
    rw [hsame] at hwhen
    cases hwhen
  have hlines (profileName : String) (ls : List String) : fileValue rt profileName ls arg.name = none := by
    rw [fileValue, fromName_name harg, hwhen, if_neg hprofile, if_neg fun h => absurd h.1 (by decide)]
  unfold configFile
  generalize configFileName parserType r = name
  cases name with
  | none => rfl
  | some v =>
    cases v with
    | string name =>
      dsimp only
      cases sh.file name with
      | lines ls => exact hlines _ ls
      | missing => rfl
      | unreadable => rfl
    | int n => rfl
    | bool b => rfl
    | strings xs => rfl

/-- Each parameter has the value of the first source that gives one exactly when the file gives no directory
and no ssh options that the command line's map fills in without being asked. -/
theorem fromArgList_precedence_iff {parserType : ParserType} {args : List String} {r : ArgResults}
    {params : PartialParams} {p : Params} (hr : sh.parse (createArgParser parserType) args = .ok r)
    (hdoc : r.Documented (createArgParser parserType))
    (hparams : PartialParams.fromArgList rt sh parserType args = .ok params)
    (hp : Params.fromPartial rt params = .ok p) :
    Precedence rt (commandLine r) (configFile rt sh parserType r) p ↔
      Asked (commandLine r) (configFile rt sh parserType r) := by
  obtain ⟨m, q₁, q₂, hm, hcmd, hfile, rfl⟩ := fromArgList_ok rt sh hr hparams
  obtain ⟨hother, hoptions⟩ := parsedArgsMap_eq hdoc hm
  obtain ⟨client, hclient, -, hvalues⟩ := (Params.fromPartial_eq_ok rt).mp hp
  have hfilePing : configFile rt sh parserType r daemonPingTimeoutArg.name = none :=
    configFile_commandLine rt sh parserType r (by decide +kernel) rfl
  generalize configFile rt sh parserType r = file at *
  generalize commandLine r = cmd at *
  have hfield {α : Type} (f : ParamValues → α) :
      f p.toParamValues = f ((PartialParams.merge q₁ q₂).values rt client) := congrArg f hvalues
  have hgiven {arg : SshnpArg} (hne : arg.name ≠ localSshOptionsArg.name) {v : Option ArgValue}
      (hv : m arg.name = v) : cmd arg.name = v := (hother arg.name hne).symm.trans hv
  obtain ⟨sr₂, hsr₂, hroot₂⟩ := hcmd.rootDomain
  obtain ⟨sr₁, hsr₁, hroot₁⟩ := hfile.rootDomain
  obtain ⟨xs, hxs⟩ : ∃ xs, q₂.localSshOptions = some xs := by
    have hopts := hcmd.localSshOptions
    rw [hoptions] at hopts
    cases hq : q₂.localSshOptions with
    | none =>
      rw [hq] at hopts
      cases hopts
    | some xs => exact ⟨xs, rfl⟩
  have hroot : p.rootDomain = sr₂.getD DefaultArgs.rootDomain := by
    rw [hfield (·.rootDomain)]
    show (q₂.rootDomain <|> q₁.rootDomain).getD _ = _
    rw [hroot₂]
    rfl
  have hopts : p.localSshOptions = xs := by
    rw [hfield (·.localSshOptions)]
    show (q₂.localSshOptions <|> q₁.localSshOptions).getD _ = _
    rw [hxs]
    rfl
  have hrootCmd : (cmd rootServerArg.name).getD (.string DefaultArgs.rootDomain) = .string p.rootDomain := by
    rw [hgiven (by decide) hsr₂, Option.getD_map, hroot]
  have hoptsCmd : (cmd localSshOptionsArg.name).getD (.strings DefaultSshnpArgs.localSshOptions) =
      .strings p.localSshOptions := by
    have hmap := hcmd.localSshOptions
    rw [hoptions, hxs] at hmap
    rw [hopts]
    exact Option.some.inj hmap
  constructor
  · intro h
    exact ⟨chosen_eq_default_iff.mp (h.rootDomain.trans hrootCmd.symm),
      chosen_eq_default_iff.mp (h.localSshOptions.trans hoptsCmd.symm)⟩
  · intro hasked
    obtain ⟨sc₂, hsc₂, hc₂⟩ := hcmd.clientAtSign
    obtain ⟨sc₁, hsc₁, hc₁⟩ := hfile.clientAtSign
    obtain ⟨sd₂, hsd₂, hd₂⟩ := hcmd.sshnpdAtSign
    obtain ⟨sd₁, hsd₁, hd₁⟩ := hfile.sshnpdAtSign
    obtain ⟨n₂, hn₂, hping₂⟩ := hcmd.daemonPingTimeout
    obtain ⟨n₁, hn₁, hping₁⟩ := hfile.daemonPingTimeout
    have hoption {α : Type} {mk : α → ArgValue} {arg : SshnpArg} (hne : arg.name ≠ localSshOptionsArg.name)
        {x₁ x₂ : Option α} (h₂ : m arg.name = x₂.map mk) (h₁ : file arg.name = x₁.map mk) :
        chosen cmd file arg = (x₂ <|> x₁).map mk := chosen_map (hgiven hne h₂) h₁
    have hdefault {α : Type} {mk : α → ArgValue} {arg : SshnpArg} (hne : arg.name ≠ localSshOptionsArg.name)
        {x₁ x₂ : Option α} (h₂ : m arg.name = x₂.map mk) (h₁ : file arg.name = x₁.map mk) (d : α) :
        (chosen cmd file arg).getD (mk d) = mk ((x₂ <|> x₁).getD d) := chosen_getD (hgiven hne h₂) h₁ d
    have hmode : chosen cmd file relayAuthModeArg =
        ((q₂.relayAuthMode <|> q₁.relayAuthMode).map relayAuthModeName).map .string := by
      rw [hoption (by decide) hcmd.relayAuthMode hfile.relayAuthMode]
      cases q₂.relayAuthMode <;> rfl
    exact {
      profileName := by
        rw [hoption (by decide) hcmd.profileName hfile.profileName, hfield (·.profileName)]
        rfl
      clientAtSign := by
        have hfix := fixAtSign_orElse rt hc₂ hc₁
        have hmerged : (q₂.clientAtSign <|> q₁.clientAtSign) = some client := hclient
        rw [hmerged] at hfix
        obtain ⟨t, ht, hfixed⟩ := fixAtSign_some rt hfix
        refine ⟨t, ?_, ?_⟩
        · rw [hoption (by decide) hsc₂ hsc₁, ht]
          rfl
        · rw [hfixed, hfield (·.clientAtSign)]
          rfl
      sshnpdAtSign := by
        have hfix := fixAtSign_orElse rt hd₂ hd₁
        have hto : p.sshnpdAtSign = (q₂.sshnpdAtSign <|> q₁.sshnpdAtSign).getD "" := hfield (·.sshnpdAtSign)
        rw [hoption (by decide) hsd₂ hsd₁, hto]
        cases hmerged : (q₂.sshnpdAtSign <|> q₁.sshnpdAtSign) with
        | none =>
          rw [hmerged] at hfix
          rw [fixAtSign_none rt hfix]
          exact Or.inl ⟨rfl, rfl⟩
        | some daemon =>
          rw [hmerged] at hfix
          obtain ⟨t, ht, hfixed⟩ := fixAtSign_some rt hfix
          rw [ht]
          exact Or.inr ⟨t, rfl, hfixed⟩
      srvdAtSign := by
        have hsrvd := hcmd.srvdAtSign
        rw [hother _ (by decide), hother _ (by decide)] at hsrvd
        rw [chosen_getD hsrvd hfile.srvdAtSign, hfield (·.srvdAtSign)]
        rfl
      device := by
        refine ⟨(q₂.device <|> q₁.device).getD DefaultSshnpArgs.device, ?_, ?_⟩
        · exact hdefault (by decide) hcmd.device hfile.device _
        · rw [hfield (·.device)]
          rfl
      localPort := by
        rw [hdefault (by decide) hcmd.localPort hfile.localPort, hfield (·.localPort)]
        rfl
      atKeysFilePath := by
        rw [hoption (by decide) hcmd.atKeysFilePath hfile.atKeysFilePath, hfield (·.atKeysFilePath)]
        rfl
      passPhrase := by
        rw [hoption (by decide) hcmd.passPhrase hfile.passPhrase, hfield (·.passPhrase)]
        rfl
      identityFile := by
        rw [hoption (by decide) hcmd.identityFile hfile.identityFile, hfield (·.identityFile)]
        rfl
      identityPassphrase := by
        rw [hoption (by decide) hcmd.identityPassphrase hfile.identityPassphrase, hfield (·.identityPassphrase)]
        rfl
      sendSshPublicKey := by
        rw [hdefault (by decide) hcmd.sendSshPublicKey hfile.sendSshPublicKey, hfield (·.sendSshPublicKey)]
        rfl
      localSshOptions := (chosen_eq_default_iff.mpr hasked.localSshOptions).trans hoptsCmd
      remoteUsername := by
        rw [hoption (by decide) hcmd.remoteUsername hfile.remoteUsername, hfield (·.remoteUsername)]
        rfl
      tunnelUsername := by
        rw [hoption (by decide) hcmd.tunnelUsername hfile.tunnelUsername, hfield (·.tunnelUsername)]
        rfl
      verbose := by
        rw [hdefault (by decide) hcmd.verbose hfile.verbose, hfield (·.verbose)]
        rfl
      rootDomain := (chosen_eq_default_iff.mpr hasked.rootDomain).trans hrootCmd
      listDevices := by
        rw [hdefault (by decide) hcmd.listDevices hfile.listDevices, hfield (·.listDevices)]
        rfl
      remoteSshdPort := by
        rw [hdefault (by decide) hcmd.remoteSshdPort hfile.remoteSshdPort, hfield (·.remoteSshdPort)]
        rfl
      idleTimeout := by
        rw [hdefault (by decide) hcmd.idleTimeout hfile.idleTimeout, hfield (·.idleTimeout)]
        rfl
      addForwardsToTunnel := by
        rw [hdefault (by decide) hcmd.addForwardsToTunnel hfile.addForwardsToTunnel, hfield (·.addForwardsToTunnel)]
        rfl
      authenticateClientToRvd := by
        rw [hdefault (by decide) hcmd.authenticateClientToRvd hfile.authenticateClientToRvd,
          hfield (·.authenticateClientToRvd)]
        rfl
      authenticateDeviceToRvd := by
        rw [hdefault (by decide) hcmd.authenticateDeviceToRvd hfile.authenticateDeviceToRvd,
          hfield (·.authenticateDeviceToRvd)]
        rfl
      encryptRvdTraffic := by
        rw [hdefault (by decide) hcmd.encryptRvdTraffic hfile.encryptRvdTraffic, hfield (·.encryptRvdTraffic)]
        rfl
      relayAuthMode := by
        rw [hmode, Option.getD_map, Option.getD_map, hfield (·.relayAuthMode)]
        rfl
      relayAuthModeExplicit := by
        rw [hmode, Option.isSome_map, Option.isSome_map, hfield (·.relayAuthModeExplicit)]
        rfl
      daemonPingTimeout := by
        -- only the command line can give one
        have hnone : n₁ = none := by
          rw [hfilePing] at hn₁
          exact Option.map_eq_none_iff.mp hn₁.symm
        refine ⟨(n₂ <|> n₁).getD DefaultArgs.daemonPingTimeoutSeconds, hdefault (by decide) hn₂ hn₁ _, ?_⟩
        have hping : p.daemonPingTimeout = (q₂.daemonPingTimeout <|> q₁.daemonPingTimeout).getD _ :=
          hfield (·.daemonPingTimeout)
        rw [hping, hping₂, hnone]
        cases n₂ <;> rfl
      only443 := by
        rw [hdefault (by decide) hcmd.only443 hfile.only443, hfield (·.only443)]
        rfl }

/-! ### A command line that names a file, and gives two of its parameters again -/

def workNames : List String := [configFileArg.name, remoteSshdPortArg.name, deviceArg.name]

def workResults : ArgResults where
  options := localSshOptionsArg.name :: workNames
  value n := if n = configFileArg.name then some (.string "work.env")
    else if n = remoteSshdPortArg.name then some (.string "2200")
    else if n = deviceArg.name then some (.string "My Box")
    else if n = localSshOptionsArg.name then some (.strings []) else none
  wasParsed n := n ∈ workNames
  rest := []

def workArgs : List String :=
  ["--config-file", "work.env", "--remote-sshd-port", "2200", "--device", "My Box"]

/-- The file that is named has the lines `ls`. -/
def workShell (ls : List String) : Shell where
  basenameWithoutExtension _ := "work"
  file fileName := if fileName = "work.env" then .lines ls else .missing
  parse _ args := if args = workArgs then .ok workResults else .error .formatException

theorem workResults_documented : workResults.Documented (createArgParser .commandLine) where
  parsed n hn := by
    have hnames : ∀ n ∈ workNames, ∃ arg ∈ createArgParser .commandLine, arg.name = n := by decide +kernel
    exact hnames n (of_decide_eq_true hn)
  options n := by
    rw [workResults, List.mem_cons, decide_eq_true_eq, or_comm]
    apply or_congr_right
    constructor
    · exact fun hn => ⟨localSshOptionsArg, localSshOptions_mem .commandLine, hn.symm, rfl⟩
    · rintro ⟨arg, harg, rfl, hformat⟩
      rw [multiOption_eq arg (List.mem_filter.mp harg).1 hformat]
  multi arg harg hformat hn := by
    rw [multiOption_eq arg (List.mem_filter.mp harg).1 hformat]
    decide +kernel
  given n hn := by
    have hvalues : ∀ n ∈ workNames, workResults.value n ≠ none := by decide +kernel
    exact hvalues n (of_decide_eq_true hn)

def workLines : List String := ["FROM=@alice", "TO=@bob", "DEVICE=attic", "REMOTE_SSHD_PORT=2222", "LOCAL_PORT=8080"]

def workParams : PartialParams where
  profileName := some "work"
  clientAtSign := some "@alice"
  sshnpdAtSign := some "@bob"
  device := some "My Box"
  localPort := some 8080
  localSshOptions := some []
  rootDomain := some DefaultArgs.rootDomain
  remoteSshdPort := some 2200
  daemonPingTimeout := some DefaultArgs.daemonPingTimeoutDuration

def workSession : Params where
  toParamValues := workParams.values asciiRuntime "@alice"
  valid := by decide +kernel

theorem fromPartial_work : Params.fromPartial asciiRuntime workParams = .ok workSession :=
  (Params.fromPartial_eq_ok asciiRuntime).mpr ⟨"@alice", rfl, Or.inr rfl, rfl⟩

theorem fromArgList_precedence_work : Precedence asciiRuntime (commandLine workResults)
    (configFile asciiRuntime (workShell workLines) .commandLine workResults) workSession := by
  have hparse : (workShell workLines).parse (createArgParser .commandLine) workArgs = .ok workResults := rfl
  have hparams : PartialParams.fromArgList asciiRuntime (workShell workLines) .commandLine workArgs = .ok workParams := by
    decide +kernel
  refine (fromArgList_precedence_iff asciiRuntime (workShell workLines) hparse workResults_documented hparams
    fromPartial_work).mpr ⟨Or.inr (Or.inl ?_), Or.inr (Or.inl ?_)⟩
  · decide +kernel
  · decide +kernel

/-- The directory that a file names is passed over for the default one. -/
theorem fromArgList_loses_rootServer :
    let sh := workShell (workLines ++ ["ROOT_SERVER=vip.ve.atsign.zone"])
    sh.parse (createArgParser .commandLine) workArgs = .ok workResults ∧
      workResults.Documented (createArgParser .commandLine) ∧
      PartialParams.fromArgList asciiRuntime sh .commandLine workArgs = .ok workParams ∧
      Params.fromPartial asciiRuntime workParams = .ok workSession ∧
      ¬Precedence asciiRuntime (commandLine workResults) (configFile asciiRuntime sh .commandLine workResults)
        workSession := by
  refine ⟨rfl, workResults_documented, by decide +kernel, fromPartial_work, fun h => ?_⟩
  have hfile : (configFile asciiRuntime (workShell (workLines ++ ["ROOT_SERVER=vip.ve.atsign.zone"])) .commandLine
      workResults) rootServerArg.name = some (.string "vip.ve.atsign.zone") := by decide +kernel
  have hroot := h.rootDomain
  rw [chosen, hfile] at hroot
  exact absurd hroot (by decide +kernel)

end NoPorts.SshnpParams
