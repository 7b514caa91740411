import NoPorts.SshnpParams

/-! Saving the parameters of a client session to a config file, and loading them again. -/
namespace NoPorts.SshnpParams
open Lib
open Srvd (RelayAuthMode)
open GroupReplicas (intParse)

variable (rt : Runtime)

/-! ### Lines -/

theorem splitOn_of_mem {c : Char} {s : List Char} (h : c ∈ s) : ∃ a b l, s.splitOn c = a :: b :: l := by
  obtain ⟨u, v, rfl, hu⟩ := List.eq_append_cons_of_mem h
  rw [List.splitOn_append_cons_self, List.splitOn_eq_singleton hu]
  obtain ⟨b, l, hv⟩ := List.exists_cons_of_ne_nil (List.splitOn_ne_nil c v)
  exact ⟨u, b, l, by rw [hv, List.singleton_append]⟩

/-- The names that a config file uses are of letters, digits and underscores. -/
theorem Saved.bashName_plain {arg : SshnpArg} (h : Saved arg) :
    ∀ c ∈ arg.bashName.toList, c.isAlphanum = true ∨ c = '_' := by
  have hall : (SshnpArg.args.all fun a => a.name.toList.all fun c =>
      (if c = '-' then '_' else c).toUpper.isAlphanum || (if c = '-' then '_' else c).toUpper == '_') = true := by
    decide +kernel
  rw [SshnpArg.bashName, String.toList_ofList]
  intro c hc
  obtain ⟨x, hx, rfl⟩ := List.mem_map.mp hc
  have hx := List.all_eq_true.mp (List.all_eq_true.mp hall arg h.1) x hx
  rwa [Bool.or_eq_true, beq_iff_eq] at hx

theorem bashName_ne {arg : SshnpArg} (h : arg ∈ SshnpArg.args) : arg.bashName ≠ "" := by
  intro hempty
  have hnil : arg.bashName.toList = [] := by rw [hempty]; rfl
  rw [SshnpArg.bashName, String.toList_ofList, List.map_eq_nil_iff, String.toList_eq_nil_iff] at hnil
  exact name_ne arg h hnil

theorem Saved.not_mem_bashName {arg : SshnpArg} (h : Saved arg) {c : Char} (hc : c.isAlphanum = false) (hu : c ≠ '_') :
    c ∉ arg.bashName.toList := by
  intro hmem
  rcases h.bashName_plain c hmem with halpha | hunder
  · rw [hc] at halpha
    cases halpha
  · exact hu hunder

theorem isWhitespace_plain {c : Char} (h : c.isAlphanum = true ∨ c = '_') :
    (Signing.isWhitespace c || c.toNat == 0x85) = false := by
  have hrange : 48 ≤ c.toNat ∧ c.toNat ≤ 122 := by
    rcases h with h | rfl
    · have hor : (c.isUpper || c.isLower || c.isDigit) = true := h
      simp only [Bool.or_eq_true] at hor
      rcases hor with (hupper | hlower) | hdigit
      · have hbounds := isUpper_bounds hupper
        omega
      · have hbounds := isLower_bounds hlower
        omega
      · have hbounds := isDigit_bounds hdigit
        omega
    · decide
  simp only [Signing.isWhitespace, Bool.or_eq_false_iff, Bool.and_eq_false_iff, decide_eq_false_iff_not,
    beq_eq_false_iff_ne]
  omega

theorem Saved.trim_bashName {arg : SshnpArg} (h : Saved arg) : Signing.trim arg.bashName = arg.bashName := by
  rw [Signing.trim, trimBy_eq_self fun c hc => isWhitespace_plain (h.bashName_plain c hc), String.ofList_toList]

/-- A line that `toConfigLines` writes is read as one value, unless there is a `=` in the value too. -/
theorem parseConfigLine_saved {arg : SshnpArg} (h : Saved arg) (args : ArgMap) (text : String) :
    parseConfigLine rt args (arg.bashName ++ "=" ++ text) =
      if '=' ∈ text.toList then args
      else args.set arg.name (readValue rt arg (Signing.trim text) (args arg.name)) := by
  have hlist : (arg.bashName ++ "=" ++ text).toList = arg.bashName.toList ++ '=' :: text.toList := by
    simp only [String.toList_append, List.append_assoc]
    rfl
  have hkey : '=' ∉ arg.bashName.toList := h.not_mem_bashName rfl (by decide)
  have hnocomment : "#".toList.isPrefixOf (arg.bashName ++ "=" ++ text).toList = false := by
    obtain ⟨c, cs, hcs⟩ := List.exists_cons_of_ne_nil fun hnil => bashName_ne h.1 (String.toList_eq_nil_iff.mp hnil)
    have hhash : '#' ∉ arg.bashName.toList := h.not_mem_bashName rfl (by decide)
    rw [hlist, hcs, List.cons_append]
    rw [hcs] at hhash
    have hne : '#' ≠ c := fun hc => hhash (by rw [hc]; exact List.mem_cons_self)
    simp [List.isPrefixOf, hne]
  have hsplit : split (arg.bashName ++ "=" ++ text) '=' = arg.bashName :: split text '=' := by
    rw [split, hlist, List.splitOn_append_cons_self, List.splitOn_eq_singleton hkey, List.singleton_append,
      List.map_cons, String.ofList_toList, split]
  rw [parseConfigLine, if_neg (by rw [hnocomment]; exact Bool.false_ne_true), hsplit]
  by_cases heq : '=' ∈ text.toList
  · obtain ⟨a, b, l, htext⟩ := splitOn_of_mem heq
    rw [if_pos heq, split, htext]
    rfl
  · rw [if_neg heq, split, List.splitOn_eq_singleton heq, List.map_singleton, String.ofList_toList]
    simp only [h.trim_bashName, h.fromBashName, name_ne arg h.1, h.2, if_false, Bool.true_eq_false]

/-! ### Files -/

/-- What the entries of a map leave under a name when they are written to a file and read back. -/
def stored (entry : String × Option ArgValue) (before : Option ArgValue) : Option ArgValue :=
  let arg := SshnpArg.fromName entry.1
  match ParserType.configFile.shouldParse arg.parseWhen, entry.2 with
  | true, some v => if '=' ∈ v.text.toList then before else readValue rt arg (Signing.trim v.text) before
  | _, _ => before

theorem foldl_set_of_not_mem {entries : List (String × Option ArgValue)} {n : String}
    (h : n ∉ entries.map Prod.fst) (args : ArgMap) :
    entries.foldl (fun args e => args.set e.1 (stored rt e (args e.1))) args n = args n := by
  induction entries generalizing args with
  | nil => rfl
  | cons e entries ih =>
    rw [List.map_cons, List.mem_cons, not_or] at h
    rw [List.foldl_cons, ih h.2, ArgMap.set_of_ne h.1]

theorem foldl_set_of_mem {entries : List (String × Option ArgValue)} (hnodup : (entries.map Prod.fst).Nodup)
    {e : String × Option ArgValue} (he : e ∈ entries) (args : ArgMap) :
    entries.foldl (fun args e => args.set e.1 (stored rt e (args e.1))) args e.1 = stored rt e (args e.1) := by
  induction entries generalizing args with
  | nil => cases he
  | cons x entries ih =>
    rw [List.map_cons, List.nodup_cons] at hnodup
    rw [List.foldl_cons]
    rcases List.mem_cons.mp he with rfl | he
    · rw [foldl_set_of_not_mem rt hnodup.1, ArgMap.set_self]
    · have hne : e.1 ≠ x.1 := fun heq => hnodup.1 (heq ▸ List.mem_map_of_mem he)
      rw [ih hnodup.2 he, ArgMap.set_of_ne hne]

/-- The arguments that `toArgMap` has an entry for, in its order. -/
def entryArgs : List SshnpArg :=
  [profileNameArg, fromArg, toArg, srvdArg, deviceArg, localPortArg, keyFileArg, passPhraseArg, identityFileArg,
    identityPassphraseArg, sendSshPublicKeyArg, localSshOptionsArg, remoteUserNameArg, tunnelUserNameArg, verboseArg,
    rootServerArg, remoteSshdPortArg, idleTimeoutArg, addForwardsToTunnelArg, authenticateClientToRvdArg,
    authenticateDeviceToRvdArg, encryptRvdTrafficArg, relayAuthModeArg]

theorem argEntries_names (p : Params) : p.argEntries.map Prod.fst = entryArgs.map SshnpArg.name := rfl

theorem entryArgs_nodup : (entryArgs.map SshnpArg.name).Nodup := by decide +kernel

theorem entryArgs_subset : entryArgs ⊆ SshnpArg.args := by decide +kernel

theorem argEntries_name {p : Params} {e : String × Option ArgValue} (he : e ∈ p.argEntries) :
    ∃ arg ∈ SshnpArg.args, arg.name = e.1 := by
  have hmem := List.mem_map_of_mem (f := Prod.fst) he
  rw [argEntries_names] at hmem
  obtain ⟨arg, harg, hname⟩ := List.mem_map.mp hmem
  exact ⟨arg, entryArgs_subset harg, hname⟩

theorem toArgMap_all (p : Params) : p.toArgMap .all = p.argEntries := by
  have hall : ∀ arg ∈ SshnpArg.args, ParserType.all.shouldParse arg.parseWhen = true := by decide +kernel
  apply List.filter_eq_self.mpr
  intro e he
  obtain ⟨arg, harg, hname⟩ := argEntries_name he
  rw [← hname, fromName_name harg]
  exact hall arg harg

/-- Reading back what was written sets each name once, to what its own line says. -/
theorem parseConfigFileContents_toConfigLines (p : Params) :
    parseConfigFileContents rt (p.toConfigLines .configFile) =
      p.argEntries.foldl (fun args e => args.set e.1 (stored rt e (args e.1))) .empty := by
  rw [parseConfigFileContents, Params.toConfigLines, toArgMap_all, List.foldl_filterMap]
  apply List.foldl_ext
  intro args e he
  obtain ⟨arg, harg, hname⟩ := argEntries_name he
  have hself : args.set e.1 (args e.1) = args := by
    funext n
    by_cases hn : n = e.1
    · rw [hn, ArgMap.set_self]
    · rw [ArgMap.set_of_ne hn]
  rw [configLine, stored, ← hname, fromName_name harg]
  cases hparse : ParserType.configFile.shouldParse arg.parseWhen with
  | false => simp only [if_true, hname, hself]
  | true =>
    rw [if_neg (by decide), if_neg (bashName_ne harg)]
    cases he2 : e.2 with
    | none => simp only [Option.map_none, hname, hself]
    | some v =>
      rw [Option.map_some]
      simp only [parseConfigLine_saved rt ⟨harg, hparse⟩]
      split
      · rw [hname, hself]
      · rfl

theorem parse_entry {p : Params} {arg : SshnpArg} {o : Option ArgValue} (he : (arg.name, o) ∈ p.argEntries) :
    parseConfigFileContents rt (p.toConfigLines .configFile) arg.name = stored rt (arg.name, o) none := by
  rw [parseConfigFileContents_toConfigLines]
  exact foldl_set_of_mem rt (argEntries_names p ▸ entryArgs_nodup) he _

theorem parse_other {n : String} (hn : n ∉ entryArgs.map SshnpArg.name) (p : Params) :
    parseConfigFileContents rt (p.toConfigLines .configFile) n = none := by
  rw [parseConfigFileContents_toConfigLines]
  exact foldl_set_of_not_mem rt (argEntries_names p ▸ hn) _

/-! ### Values -/

/-- A text that a line can hold. -/
def Written (s : String) : Prop := s ≠ "" ∧ '=' ∉ s.toList

instance (s : String) : Decidable (Written s) := inferInstanceAs (Decidable (_ ∧ _))

/-- A text without white space around it. -/
def Trimmed (s : String) : Prop := Signing.trim s = s

instance (s : String) : Decidable (Trimmed s) := inferInstanceAs (Decidable (_ = _))

theorem stored_none {arg : SshnpArg} (h : Saved arg) : stored rt (arg.name, none) none = none := by
  rw [stored, fromName_name h.1, h.2]

theorem stored_some {arg : SshnpArg} (h : Saved arg) (v : ArgValue) : stored rt (arg.name, some v) none =
    if '=' ∈ v.text.toList then none else readValue rt arg (Signing.trim v.text) none := by
  rw [stored, fromName_name h.1, h.2]

theorem stored_string {arg : SshnpArg} (h : Saved arg) (hformat : arg.format = .option) (htype : arg.type = .string)
    {o : Option String} (htrim : ∀ s ∈ o, Trimmed s) :
    stored rt (arg.name, o.map .string) none = (o.filter fun s => Written s).map .string := by
  cases o with
  | none => exact stored_none rt h
  | some s =>
    rw [Option.map_some, stored_some rt h, ArgValue.text, htrim s rfl, readValue, hformat, htype]
    by_cases heq : '=' ∈ s.toList
    · simp [heq, Written, Option.filter]
    · by_cases hempty : s = ""
      · simp [hempty, Written, Option.filter]
      · simp [heq, hempty, Written, Option.filter]

/-- The text of an `int` is that of a number, after a `-` or nothing. -/
theorem toString_int (n : ℤ) : ∃ m : ℕ, toString n = toString m ∧ n = m ∨
    (toString n).toList = '-' :: (toString m).toList ∧ n = -m := by
  cases n with
  | ofNat m => exact ⟨m, Or.inl ⟨rfl, rfl⟩⟩
  | negSucc m =>
    refine ⟨m + 1, Or.inr ⟨?_, Int.negSucc_eq m⟩⟩
    show ("-" ++ toString (m + 1)).toList = _
    rw [String.toList_append]
    rfl

theorem mem_toString_int {n : ℤ} {c : Char} (hc : c ∈ (toString n).toList) : c.isDigit = true ∨ c = '-' := by
  obtain ⟨m, hpos | hneg⟩ := toString_int n
  · rw [hpos.1] at hc
    exact Or.inl (isDigit_of_mem_toString m c hc)
  · rw [hneg.1, List.mem_cons] at hc
    exact hc.symm.imp_left (isDigit_of_mem_toString m c)

theorem trim_toString_int (n : ℤ) : Signing.trim (toString n) = toString n := by
  rw [Signing.trim, trimBy_eq_self, String.ofList_toList]
  intro c hc
  rcases mem_toString_int hc with hdigit | rfl
  · exact isWhitespace_plain (Or.inl (by simp [Char.isAlphanum, hdigit]))
  · decide

theorem toString_int_ne (n : ℤ) : toString n ≠ "" := by
  intro hempty
  have hnil : (toString n).toList = [] := by rw [hempty]; rfl
  obtain ⟨m, hpos | hneg⟩ := toString_int n
  · rw [hpos.1] at hnil
    exact toString_ne_nil m hnil
  · rw [hneg.1] at hnil
    cases hnil

/-- What is printed of an `int` is read back. -/
theorem intParse_toInt (n : Int64) : intParse (toString n.toInt) = some n.toInt := by
  have hlow := n.le_toInt
  have hhigh := n.toInt_lt
  obtain ⟨m, hpos | hneg⟩ := toString_int n.toInt
  · rw [hpos.1, hpos.2]
    apply GroupReplicas.intParse_toString
    rw [GroupReplicas.intMax]
    omega
  · rw [intParse, trim_toString_int, hneg.1]
    show GroupReplicas.intDigits (-1) (toString m).toList = _
    have hfits : GroupReplicas.wrap (-1 * (m : ℤ)) = -1 * m := by
      rw [GroupReplicas.wrap, Int.bmod_eq_of_le] <;> omega
    rw [GroupReplicas.intDigits_toString hfits, neg_one_mul, hneg.2]

theorem stored_int {arg : SshnpArg} (h : Saved arg) (hformat : arg.format = .option) (htype : arg.type = .integer)
    (n : Int64) : stored rt (arg.name, some (.int n)) none = some (.int n) := by
  have heq : '=' ∉ (toString n.toInt).toList := by
    intro hmem
    rcases mem_toString_int hmem with hdigit | hminus
    · cases hdigit
    · cases hminus
  rw [stored_some rt h, ArgValue.text, if_neg heq, trim_toString_int]
  simp only [readValue, hformat, htype, if_neg (toString_int_ne _), if_true, intParse_toInt, Option.map_some,
    Int64.ofInt_toInt]

theorem toLowerCase_true : rt.toLowerCase "true" = "true" := rt.lower_plain "true" (List.all_eq_true.mp rfl)

theorem toLowerCase_false : rt.toLowerCase "false" = "false" := rt.lower_plain "false" (List.all_eq_true.mp rfl)

theorem stored_bool {arg : SshnpArg} (h : Saved arg) (hformat : arg.format = .flag) (b : Bool) :
    stored rt (arg.name, some (.bool b)) none = some (.bool b) := by
  rw [stored_some rt h]
  cases b with
  | false =>
    have htrim : Signing.trim "false" = "false" := by decide +kernel
    simp [ArgValue.text, readValue, hformat, htrim, toLowerCase_false]
  | true =>
    have htrim : Signing.trim "true" = "true" := by decide +kernel
    simp [ArgValue.text, readValue, hformat, htrim, toLowerCase_true]

theorem stored_strings {arg : SshnpArg} (h : Saved arg) (hformat : arg.format = .multiOption) (xs : List String) :
    stored rt (arg.name, some (.strings xs)) none =
      if '=' ∈ (",".intercalate xs).toList then none
      else some (.strings ((split (Signing.trim (",".intercalate xs)) ',').filter (· ≠ ""))) := by
  rw [stored_some rt h, ArgValue.text, readValue, hformat]

/-- An option that its line can hold, and that no comma cuts. -/
def OptionWritten (o : String) : Prop := Written o ∧ ',' ∉ o.toList

instance (o : String) : Decidable (OptionWritten o) := inferInstanceAs (Decidable (_ ∧ _))

theorem toList_join (xs : List String) : (",".intercalate xs).toList = [','].intercalate (xs.map String.toList) :=
  String.toList_intercalate

theorem split_join {xs : List String} (h : ∀ o ∈ xs, OptionWritten o) :
    (split (",".intercalate xs) ',').filter (· ≠ "") = xs := by
  have hkeep : xs.filter (· ≠ "") = xs := List.filter_eq_self.mpr fun o ho => decide_eq_true (h o ho).1.1
  cases xs with
  | nil => rfl
  | cons x xs =>
    have hcomma : ∀ l ∈ (x :: xs).map String.toList, ',' ∉ l := by
      intro l hl
      obtain ⟨o, ho, rfl⟩ := List.mem_map.mp hl
      exact (h o ho).2
    rw [split, toList_join, List.splitOn_intercalate _ hcomma (List.cons_ne_nil _ _), List.map_map]
    calc (((x :: xs).map (String.ofList ∘ String.toList)).filter (· ≠ ""))
        = (x :: xs).filter (· ≠ "") := by
          congr 1
          exact List.map_id'' (fun s => String.ofList_toList) _
      _ = x :: xs := hkeep

/-- What a line is split into holds no comma, and is not empty. -/
theorem mem_split {s o : String} (h : o ∈ (split s ',').filter (· ≠ "")) : o ≠ "" ∧ ',' ∉ o.toList := by
  obtain ⟨hmem, hne⟩ := List.mem_filter.mp h
  obtain ⟨piece, hpiece, rfl⟩ := List.mem_map.mp hmem
  obtain ⟨_, _, _, _, _, hcomma⟩ := mem_splitOn_iff.mp hpiece
  exact ⟨of_decide_eq_true hne, by rwa [String.toList_ofList]⟩

theorem mem_join {xs : List String} : '=' ∈ (",".intercalate xs).toList ↔ ∃ o ∈ xs, '=' ∈ o.toList := by
  rw [toList_join]
  constructor
  · intro h
    rcases mem_intercalate h with hcomma | ⟨l, hl, hmem⟩
    · cases hcomma
    · obtain ⟨o, ho, rfl⟩ := List.mem_map.mp hl
      exact ⟨o, ho, hmem⟩
  · rintro ⟨o, ho, hmem⟩
    exact mem_intercalate_of_mem (List.mem_map_of_mem ho) hmem

theorem trim_join {xs : List String} (h : ∀ o ∈ xs, o ≠ "" ∧ Trimmed o) : Trimmed (",".intercalate xs) := by
  by_cases hxs : xs = []
  · rw [hxs]
    decide
  · have hbare : ∀ l ∈ xs.map String.toList, Bare (fun c => Signing.isWhitespace c || c.toNat == 0x85) l := by
      intro l hl
      obtain ⟨o, ho, rfl⟩ := List.mem_map.mp hl
      apply bare_of_trimBy fun hnil => (h o ho).1 (String.toList_eq_nil_iff.mp hnil)
      rw [← String.toList_ofList (l := Lib.trimBy _ _)]
      exact congrArg String.toList (h o ho).2
    rw [Trimmed, Signing.trim, toList_join,
      (bare_intercalate (fun hnil => hxs (List.map_eq_nil_iff.mp hnil)) hbare).trimBy, ← toList_join,
      String.ofList_toList]

/-! ### Reloading -/

/-- The strings of the parameters that are saved have no white space around them. -/
structure StringsTrimmed (p : Params) : Prop where
  clientAtSign : Trimmed p.clientAtSign
  sshnpdAtSign : Trimmed p.sshnpdAtSign
  srvdAtSign : Trimmed p.srvdAtSign
  passPhrase : ∀ s ∈ p.passPhrase, Trimmed s
  localSshOptions : ∀ o ∈ p.localSshOptions, Trimmed o
  remoteUsername : ∀ s ∈ p.remoteUsername, Trimmed s
  tunnelUsername : ∀ s ∈ p.tunnelUsername, Trimmed s
  rootDomain : Trimmed p.rootDomain

/-- `q` has the value that `p` has for every parameter that a config file may hold. -/
structure SameSaved (p q : Params) : Prop where
  profileName : q.profileName = p.profileName
  clientAtSign : q.clientAtSign = p.clientAtSign
  sshnpdAtSign : q.sshnpdAtSign = p.sshnpdAtSign
  srvdAtSign : q.srvdAtSign = p.srvdAtSign
  device : q.device = p.device
  localPort : q.localPort = p.localPort
  passPhrase : q.passPhrase = p.passPhrase
  sendSshPublicKey : q.sendSshPublicKey = p.sendSshPublicKey
  localSshOptions : q.localSshOptions = p.localSshOptions
  remoteUsername : q.remoteUsername = p.remoteUsername
  tunnelUsername : q.tunnelUsername = p.tunnelUsername
  rootDomain : q.rootDomain = p.rootDomain
  remoteSshdPort : q.remoteSshdPort = p.remoteSshdPort
  authenticateClientToRvd : q.authenticateClientToRvd = p.authenticateClientToRvd
  authenticateDeviceToRvd : q.authenticateDeviceToRvd = p.authenticateDeviceToRvd
  encryptRvdTraffic : q.encryptRvdTraffic = p.encryptRvdTraffic
  relayAuthMode : q.relayAuthMode = p.relayAuthMode
  relayAuthModeExplicit : q.relayAuthModeExplicit = p.relayAuthModeExplicit
  only443 : q.only443 = p.only443

/-- Nothing of `p` is lost when it is saved and loaded under `name`. -/
structure Saveable (name : String) (p : Params) : Prop where
  profileName : p.profileName = some name
  clientAtSign : Written p.clientAtSign ∧ rt.fixAtSign p.clientAtSign = some p.clientAtSign
  sshnpdAtSign : Written p.sshnpdAtSign ∧ rt.fixAtSign p.sshnpdAtSign = some p.sshnpdAtSign
  srvdAtSign : '=' ∉ p.srvdAtSign.toList
  passPhrase : ∀ s ∈ p.passPhrase, Written s
  localSshOptions : ∀ o ∈ p.localSshOptions, OptionWritten o
  remoteUsername : ∀ s ∈ p.remoteUsername, Written s
  tunnelUsername : ∀ s ∈ p.tunnelUsername, Written s
  rootDomain : Written p.rootDomain
  only443 : p.only443 = false

/-- A text as its line holds it. -/
def written (o : Option String) : Option String := o.filter fun s => Written s

/-- The options as their line holds them. -/
def writtenOptions (xs : List String) : Option (List String) :=
  if '=' ∈ (",".intercalate xs).toList then none
  else some ((split (Signing.trim (",".intercalate xs)) ',').filter (· ≠ ""))

/-- What the lines of `p` are read as, under `name`, but for the two atSigns. -/
def reloaded (name : String) (p : Params) (clientAtSign sshnpdAtSign : Option String) : PartialParams where
  profileName := some name
  clientAtSign
  sshnpdAtSign
  srvdAtSign := written (some p.srvdAtSign)
  device := some p.device
  localPort := some p.localPort
  passPhrase := written p.passPhrase
  sendSshPublicKey := some p.sendSshPublicKey
  localSshOptions := writtenOptions p.localSshOptions
  remoteUsername := written p.remoteUsername
  tunnelUsername := written p.tunnelUsername
  rootDomain := some ((written (some p.rootDomain)).getD DefaultArgs.rootDomain)
  remoteSshdPort := some p.remoteSshdPort
  authenticateClientToRvd := some p.authenticateClientToRvd
  authenticateDeviceToRvd := some p.authenticateDeviceToRvd
  relayAuthMode := if p.relayAuthModeExplicit then some p.relayAuthMode else none
  encryptRvdTraffic := some p.encryptRvdTraffic
  daemonPingTimeout := some (.ofSeconds DefaultArgs.daemonPingTimeoutSeconds)

theorem sshnpDeviceNameMatch_plain {s group : List Char} (h : sshnpDeviceNameMatch s = some group) :
    group ≠ [] ∧ ∀ c ∈ group, isDeviceNameChar c = true := by
  induction s with
  | nil => cases h
  | cons c cs ih =>
    rw [sshnpDeviceNameMatch] at h
    split at h
    · rename_i hstart
      rw [Bool.and_eq_true] at hstart
      obtain rfl := Option.some.inj h
      refine ⟨List.cons_ne_nil _ _, List.forall_mem_cons.mpr ⟨?_, ?_⟩⟩
      · rw [isDeviceNameChar, hstart.1, Bool.true_or]
      · intro x hx
        exact List.all_eq_true.mp List.all_takeWhile x (List.mem_of_mem_take hx)
    · exact ih h

theorem lowerPlain_of_deviceNameChar {c : Char} (h : isDeviceNameChar c = true) : lowerPlain c = true := by
  simpa [isDeviceNameChar, isDeviceNameStart, lowerPlain] using h

theorem isWhitespace_lowerPlain {c : Char} (h : lowerPlain c = true) :
    (Signing.isWhitespace c || c.toNat == 0x85) = false := by
  simp only [lowerPlain, Bool.or_eq_true, beq_iff_eq] at h
  rcases h with ((hlower | hdigit) | rfl) | rfl
  · apply isWhitespace_plain
    left
    change (c.isUpper || c.isLower || c.isDigit) = true
    rw [hlower, Bool.or_true, Bool.true_or]
  · apply isWhitespace_plain
    left
    change (c.isUpper || c.isLower || c.isDigit) = true
    rw [hdigit, Bool.or_true]
  · decide
  · decide

theorem underscoreSpaces_eq_self {s : List Char} (h : ∀ c ∈ s, Signing.isWhitespace c = false) :
    underscoreSpaces false s = s := by
  induction s with
  | nil => rfl
  | cons c cs ih =>
    obtain ⟨hc, hcs⟩ := List.forall_mem_cons.mp h
    rw [underscoreSpaces, if_neg (by rw [hc]; exact Bool.false_ne_true), ih hcs]

/-- A device name that the constructor accepts can be written, and is in lower case. -/
theorem device_plain {v : ParamValues} (h : v.Valid) :
    Written v.device ∧ Trimmed v.device ∧ snakifyDeviceName rt v.device = v.device := by
  have hmatch : sshnpDeviceNameMatch v.device.toList = some v.device.toList := by
    have hname := h.1
    unfold invalidDeviceName at hname
    split at hname
    · cases hname
    · rename_i group hgroup
      have hsame : group = v.device.toList := by simpa using hname
      rwa [hsame] at hgroup
  obtain ⟨hne, hchars⟩ := sshnpDeviceNameMatch_plain hmatch
  have hlower : ∀ c ∈ v.device.toList, lowerPlain c = true := fun c hc => lowerPlain_of_deviceNameChar (hchars c hc)
  have hspace : ∀ c ∈ v.device.toList, (Signing.isWhitespace c || c.toNat == 0x85) = false :=
    fun c hc => isWhitespace_lowerPlain (hlower c hc)
  refine ⟨⟨?_, ?_⟩, ?_, ?_⟩
  · intro hempty
    exact hne (by rw [hempty]; rfl)
  · intro heq
    exact absurd (hchars '=' heq) (by decide)
  · rw [Trimmed, Signing.trim, trimBy_eq_self hspace, String.ofList_toList]
  · have hnospace : ∀ c ∈ v.device.toList, Signing.isWhitespace c = false :=
      fun c hc => (Bool.or_eq_false_iff.mp (hspace c hc)).1
    rw [snakifyDeviceName, rt.lower_plain v.device hlower, underscoreSpaces_eq_self hnospace, String.ofList_toList]

theorem parse_string {p : Params} {arg : SshnpArg} {o : Option String} (he : (arg.name, o.map .string) ∈ p.argEntries)
    (h : Saved arg) (hformat : arg.format = .option) (htype : arg.type = .string) (htrim : ∀ s ∈ o, Trimmed s) :
    parseConfigFileContents rt (p.toConfigLines .configFile) arg.name = (written o).map .string := by
  rw [parse_entry rt he, stored_string rt h hformat htype htrim, written]

theorem parse_unsaved {p : Params} {arg : SshnpArg} {o : Option ArgValue} (he : (arg.name, o) ∈ p.argEntries)
    (harg : arg ∈ SshnpArg.args) (hparse : ParserType.configFile.shouldParse arg.parseWhen = false) :
    parseConfigFileContents rt (p.toConfigLines .configFile) arg.name = none := by
  rw [parse_entry rt he, stored, fromName_name harg, hparse]

theorem parse_mode (p : Params) : parseConfigFileContents rt (p.toConfigLines .configFile) relayAuthModeArg.name =
    ((if p.relayAuthModeExplicit then some p.relayAuthMode else none).map relayAuthModeName).map .string := by
  have hsaved : Saved relayAuthModeArg := by decide +kernel
  rw [parse_entry rt (p := p) (List.mem_of_getElem? (i := 22) rfl)]
  cases p.relayAuthModeExplicit with
  | false => exact stored_none rt hsaved
  | true =>
    have hname (m : RelayAuthMode) : Trimmed (relayAuthModeName m) ∧ Written (relayAuthModeName m) := by
      cases m <;> decide +kernel
    obtain ⟨htrim, hwritten⟩ := hname p.relayAuthMode
    have hstored := stored_string rt hsaved rfl rfl (o := some (relayAuthModeName p.relayAuthMode)) (by
      intro s hs
      rw [← Option.some.inj hs]
      exact htrim)
    rw [Option.filter_some, if_pos (decide_eq_true hwritten)] at hstored
    exact hstored

theorem reads_reloaded {p : Params} (htrim : StringsTrimmed p) {name : String} {c d : Option String}
    (hc : fixAtSign rt (written (some p.clientAtSign)) = .ok c)
    (hd : fixAtSign rt (written (some p.sshnpdAtSign)) = .ok d) :
    Reads rt ((parseConfigFileContents rt (p.toConfigLines .configFile)).set profileNameArg.name
      (some (.string name))) (reloaded name p c d) := by
  have hone {P : String → Prop} {s : String} (hs : P s) : ∀ t ∈ some s, P t := by
    intro t ht
    rwa [← Option.some.inj ht]
  have hother {arg : SshnpArg} (hne : arg.name ≠ profileNameArg.name) {v : Option ArgValue}
      (hv : parseConfigFileContents rt (p.toConfigLines .configFile) arg.name = v) :
      (parseConfigFileContents rt (p.toConfigLines .configFile)).set profileNameArg.name (some (.string name)) arg.name = v :=
    (ArgMap.set_of_ne hne _).trans hv
  have hsrvd : parseConfigFileContents rt (p.toConfigLines .configFile) srvdArg.name =
      (written (some p.srvdAtSign)).map .string :=
    parse_string rt (List.mem_of_getElem? (i := 3) rfl) (by decide +kernel) rfl rfl (hone htrim.srvdAtSign)
  have hhost := parse_other rt (n := legacySrvdArg.name) (by decide +kernel) p
  exact {
    profileName := ArgMap.set_self _ _ _
    clientAtSign := ⟨_, hother (by decide) (parse_string rt (o := some p.clientAtSign)
      (List.mem_of_getElem? (i := 1) rfl) (by decide +kernel) rfl rfl (hone htrim.clientAtSign)), hc⟩
    sshnpdAtSign := ⟨_, hother (by decide) (parse_string rt (o := some p.sshnpdAtSign)
      (List.mem_of_getElem? (i := 2) rfl) (by decide +kernel) rfl rfl (hone htrim.sshnpdAtSign)), hd⟩
    srvdAtSign := by
      rw [hother (by decide) hsrvd, hother (by decide) hhost, reloaded]
      cases written (some p.srvdAtSign) <;> rfl
    device := by
      obtain ⟨hwritten, htrimmed, -⟩ := device_plain rt p.valid
      rw [hother (by decide) (parse_string rt (o := some p.device) (List.mem_of_getElem? (i := 4) rfl)
        (by decide +kernel) rfl rfl (hone htrimmed)), written, Option.filter_some, if_pos (decide_eq_true hwritten)]
      rfl
    localPort := hother (by decide) ((parse_entry rt (List.mem_of_getElem? (i := 5) rfl)).trans
      (stored_int rt (by decide +kernel) rfl rfl p.localPort))
    atKeysFilePath := hother (by decide) (parse_unsaved rt (List.mem_of_getElem? (i := 6) rfl) (by decide +kernel) rfl)
    passPhrase := hother (by decide) (parse_string rt (List.mem_of_getElem? (i := 7) rfl) (by decide +kernel) rfl rfl
      htrim.passPhrase)
    identityFile := hother (by decide) (parse_unsaved rt (List.mem_of_getElem? (i := 8) rfl) (by decide +kernel) rfl)
    identityPassphrase := hother (by decide) (parse_unsaved rt (List.mem_of_getElem? (i := 9) rfl)
      (by decide +kernel) rfl)
    sendSshPublicKey := hother (by decide) ((parse_entry rt (List.mem_of_getElem? (i := 10) rfl)).trans
      (stored_bool rt (by decide +kernel) rfl p.sendSshPublicKey))
    localSshOptions := by
      have hentry : parseConfigFileContents rt (p.toConfigLines .configFile) localSshOptionsArg.name = _ :=
        parse_entry rt (List.mem_of_getElem? (i := 11) rfl)
      rw [hother (by decide) hentry, stored_strings rt (by decide +kernel) rfl, reloaded, writtenOptions]
      split <;> rfl
    remoteUsername := hother (by decide) (parse_string rt (List.mem_of_getElem? (i := 12) rfl) (by decide +kernel) rfl
      rfl htrim.remoteUsername)
    tunnelUsername := hother (by decide) (parse_string rt (List.mem_of_getElem? (i := 13) rfl) (by decide +kernel) rfl
      rfl htrim.tunnelUsername)
    verbose := hother (by decide) (parse_unsaved rt (List.mem_of_getElem? (i := 14) rfl) (by decide +kernel) rfl)
    rootDomain := ⟨_, hother (by decide) (parse_string rt (o := some p.rootDomain)
      (List.mem_of_getElem? (i := 15) rfl) (by decide +kernel) rfl rfl (hone htrim.rootDomain)), rfl⟩
    listDevices := hother (by decide) (parse_other rt (by decide +kernel) p)
    remoteSshdPort := hother (by decide) ((parse_entry rt (List.mem_of_getElem? (i := 16) rfl)).trans
      (stored_int rt (by decide +kernel) rfl rfl p.remoteSshdPort))
    idleTimeout := hother (by decide) (parse_unsaved rt (List.mem_of_getElem? (i := 17) rfl) (by decide +kernel) rfl)
    addForwardsToTunnel := hother (by decide) (parse_unsaved rt (List.mem_of_getElem? (i := 18) rfl)
      (by decide +kernel) rfl)
    sshAlgorithm := ⟨none, hother (by decide) (parse_other rt (by decide +kernel) p), rfl⟩
    authenticateClientToRvd := hother (by decide) ((parse_entry rt (List.mem_of_getElem? (i := 19) rfl)).trans
      (stored_bool rt (by decide +kernel) rfl p.authenticateClientToRvd))
    authenticateDeviceToRvd := hother (by decide) ((parse_entry rt (List.mem_of_getElem? (i := 20) rfl)).trans
      (stored_bool rt (by decide +kernel) rfl p.authenticateDeviceToRvd))
    encryptRvdTraffic := hother (by decide) ((parse_entry rt (List.mem_of_getElem? (i := 21) rfl)).trans
      (stored_bool rt (by decide +kernel) rfl p.encryptRvdTraffic))
    relayAuthMode := hother (by decide) (parse_mode rt p)
    daemonPingTimeout := ⟨none, hother (by decide) (parse_other rt (by decide +kernel) p), rfl⟩
    only443 := hother (by decide) (parse_other rt (by decide +kernel) p) }

/-- Only the two atSigns can keep the lines of `p` from being read. -/
theorem fromConfigLines_eq_ok {p : Params} (htrim : StringsTrimmed p) {name : String} {q : PartialParams} :
    PartialParams.fromConfigLines rt name (p.toConfigLines .configFile) = .ok q ↔
      ∃ c d, fixAtSign rt (written (some p.clientAtSign)) = .ok c ∧
        fixAtSign rt (written (some p.sshnpdAtSign)) = .ok d ∧ q = reloaded name p c d := by
  constructor
  · intro h
    have hreads := reads_of_fromArgMap rt h
    -- the two atSigns are those of their own lines
    have hline {arg : SshnpArg} (hne : arg.name ≠ profileNameArg.name) {o s : Option String}
        (hparse : parseConfigFileContents rt (p.toConfigLines .configFile) arg.name = o.map .string)
        (hs : (parseConfigFileContents rt (p.toConfigLines .configFile)).set profileNameArg.name
          (some (.string name)) arg.name = s.map .string) : s = o := by
      rw [ArgMap.set_of_ne hne, hparse] at hs
      exact (Option.map_injective (fun _ _ => ArgValue.string.inj) hs).symm
    have hone {t : String} (ht : Trimmed t) : ∀ s ∈ some t, Trimmed s := by
      intro s hs
      rwa [← Option.some.inj hs]
    obtain ⟨sc, hsc, hc⟩ := hreads.clientAtSign
    obtain ⟨sd, hsd, hd⟩ := hreads.sshnpdAtSign
    rw [hline (by decide) (parse_string rt (o := some p.clientAtSign) (List.mem_of_getElem? (i := 1) rfl)
      (by decide +kernel) rfl rfl (hone htrim.clientAtSign)) hsc] at hc
    rw [hline (by decide) (parse_string rt (o := some p.sshnpdAtSign) (List.mem_of_getElem? (i := 2) rfl)
      (by decide +kernel) rfl rfl (hone htrim.sshnpdAtSign)) hsd] at hd
    refine ⟨_, _, hc, hd, ?_⟩
    rw [PartialParams.fromConfigLines, (reads_reloaded rt htrim hc hd).fromArgMap] at h
    exact (Except.ok.inj h).symm
  · rintro ⟨c, d, hc, hd, rfl⟩
    exact (reads_reloaded rt htrim hc hd).fromArgMap

/-- `443` has no line. -/
theorem only443_of_fromConfigLines {p q : Params} (htrim : StringsTrimmed p) {name : String}
    (h : Params.fromConfigLines rt name (p.toConfigLines .configFile) = .ok q) : q.only443 = false := by
  obtain ⟨q₀, hq₀, hq⟩ := bind_eq_ok.mp h
  obtain ⟨c, d, -, -, rfl⟩ := (fromConfigLines_eq_ok rt htrim).mp hq₀
  obtain ⟨client, -, -, hvalues⟩ := (Params.fromPartial_eq_ok rt).mp hq
  exact congrArg ParamValues.only443 hvalues

theorem written_some_eq {s : String} : written (some s) = if Written s then some s else none := by
  rw [written, Option.filter_some]
  by_cases h : Written s <;> simp [h]

/-- An optional text comes back as it was when its line can hold it. -/
theorem written_eq_self {o : Option String} : written o = o ↔ ∀ s ∈ o, Written s := by
  cases o with
  | none => simp [written]
  | some s => simp [written_some_eq]

theorem writtenOptions_eq_self {xs : List String} (htrim : ∀ o ∈ xs, Trimmed o) :
    (writtenOptions xs).getD DefaultSshnpArgs.localSshOptions = xs ↔ ∀ o ∈ xs, OptionWritten o := by
  unfold writtenOptions
  constructor
  · intro h
    split at h
    · rename_i heq
      have hnil : xs = [] := h.symm
      rw [hnil] at heq
      exact absurd heq (by decide)
    · rename_i heq
      rw [Option.getD_some] at h
      intro o ho
      obtain ⟨hne, hcomma⟩ := mem_split (h ▸ ho)
      exact ⟨⟨hne, fun hmem => heq (mem_join.mpr ⟨o, ho, hmem⟩)⟩, hcomma⟩
  · intro h
    rw [if_neg, Option.getD_some, trim_join fun o ho => ⟨(h o ho).1.1, htrim o ho⟩, split_join h]
    intro heq
    obtain ⟨o, ho, hmem⟩ := mem_join.mp heq
    exact (h o ho).1.2 hmem

theorem fixAtSign_written {s t : String} :
    fixAtSign rt (written (some s)) = .ok (some t) ↔ Written s ∧ rt.fixAtSign s = some t := by
  rw [written_some_eq, fixAtSign_eq_ok]
  by_cases h : Written s
  · simp only [h, if_true, Option.bind_some, Option.isSome_some, and_true, true_and]
    exact eq_comm
  · simp [h]

/-- A profile is loaded as it was saved exactly when nothing of it is lost in its lines. -/
theorem fromConfigLines_same_iff {params : PartialParams} {p : Params} (hp : Params.fromPartial rt params = .ok p)
    (htrim : StringsTrimmed p) (name : String) :
    (∃ q, Params.fromConfigLines rt name (p.toConfigLines .configFile) = .ok q ∧ SameSaved p q) ↔
      Saveable rt name p := by
  constructor
  · rintro ⟨q, hq, hsame⟩
    have h443 := only443_of_fromConfigLines rt htrim hq
    obtain ⟨q₀, hq₀, hq⟩ := bind_eq_ok.mp hq
    obtain ⟨c, d, hc, hd, rfl⟩ := (fromConfigLines_eq_ok rt htrim).mp hq₀
    obtain ⟨client, hclient, hto, hvalues⟩ := (Params.fromPartial_eq_ok rt).mp hq
    -- no list-devices in a file, so the daemon's atSign is there
    obtain ⟨daemon, hdaemon⟩ : ∃ daemon, d = some daemon := by
      rcases hto with hlist | hsome
      · cases hlist
      · exact Option.isSome_iff_exists.mp hsome
    have hfield {α : Type} (f : ParamValues → α) : f q.toParamValues = f ((reloaded name p c d).values rt client) :=
      congrArg f hvalues
    rw [show c = some client from hclient, fixAtSign_written] at hc
    rw [hdaemon, fixAtSign_written] at hd
    have hclientSame : client = p.clientAtSign := (hfield (·.clientAtSign)).symm.trans hsame.clientAtSign
    have hdaemonSame : daemon = p.sshnpdAtSign := by
      rw [← hsame.sshnpdAtSign, hfield (·.sshnpdAtSign), hdaemon]
      rfl
    rw [hclientSame] at hc
    rw [hdaemonSame] at hd
    exact {
      profileName := hsame.profileName.symm.trans (hfield (·.profileName))
      clientAtSign := hc
      sshnpdAtSign := hd
      srvdAtSign := by
        have hsrvd : (written (some p.srvdAtSign)).getD "" = p.srvdAtSign :=
          (hfield (·.srvdAtSign)).symm.trans hsame.srvdAtSign
        intro heq
        rw [written_some_eq, if_neg fun hw => hw.2 heq] at hsrvd
        rw [← hsrvd] at heq
        exact absurd heq (by decide)
      passPhrase := written_eq_self.mp ((hfield (·.passPhrase)).symm.trans hsame.passPhrase)
      localSshOptions := (writtenOptions_eq_self htrim.localSshOptions).mp
        ((hfield (·.localSshOptions)).symm.trans hsame.localSshOptions)
      remoteUsername := written_eq_self.mp ((hfield (·.remoteUsername)).symm.trans hsame.remoteUsername)
      tunnelUsername := written_eq_self.mp ((hfield (·.tunnelUsername)).symm.trans hsame.tunnelUsername)
      rootDomain := by
        have hroot : (written (some p.rootDomain)).getD DefaultArgs.rootDomain = p.rootDomain :=
          (hfield (·.rootDomain)).symm.trans hsame.rootDomain
        by_contra hnot
        rw [written_some_eq, if_neg hnot] at hroot
        rw [← hroot] at hnot
        exact hnot (by decide)
      only443 := hsame.only443.symm.trans h443 }
  · intro h
    have hc := (fixAtSign_written rt).mpr h.clientAtSign
    have hd := (fixAtSign_written rt).mpr h.sshnpdAtSign
    obtain ⟨-, -, hdevice⟩ := device_plain rt p.valid
    obtain ⟨_, -, -, hbuilt⟩ := (Params.fromPartial_eq_ok rt).mp hp
    have hmode : (if p.relayAuthModeExplicit then some p.relayAuthMode else none).getD DefaultArgs.relayAuthMode =
        p.relayAuthMode := by
      rw [hbuilt]
      cases hm : params.relayAuthMode <;> simp [PartialParams.values, hm]
    have hexplicit : (if p.relayAuthModeExplicit then some p.relayAuthMode else none).isSome = p.relayAuthModeExplicit := by
      cases p.relayAuthModeExplicit <;> rfl
    generalize hv : (reloaded name p (some p.clientAtSign) (some p.sshnpdAtSign)).values rt p.clientAtSign = v
    have hvdevice : v.device = p.device := by
      rw [← hv]
      exact hdevice
    have hvalid : v.Valid := by
      refine ⟨hvdevice ▸ p.valid.1, fun h443 => ?_⟩
      rw [← hv] at h443
      cases h443
    refine ⟨⟨v, hvalid⟩, ?_, ?_⟩
    · rw [Params.fromConfigLines, (fromConfigLines_eq_ok rt htrim).mpr ⟨_, _, hc, hd, rfl⟩, ok_bind]
      exact (Params.fromPartial_eq_ok rt).mpr ⟨p.clientAtSign, rfl, Or.inr rfl, hv.symm⟩
    · subst hv
      exact {
        profileName := h.profileName.symm
        clientAtSign := rfl
        sshnpdAtSign := rfl
        srvdAtSign := by
          show (written (some p.srvdAtSign)).getD "" = p.srvdAtSign
          rw [written_some_eq]
          split
          · rfl
          · rename_i hnot
            by_contra hne
            exact hnot ⟨fun hempty => hne hempty.symm, h.srvdAtSign⟩
        device := hvdevice
        localPort := rfl
        passPhrase := written_eq_self.mpr h.passPhrase
        sendSshPublicKey := rfl
        localSshOptions := (writtenOptions_eq_self htrim.localSshOptions).mpr h.localSshOptions
        remoteUsername := written_eq_self.mpr h.remoteUsername
        tunnelUsername := written_eq_self.mpr h.tunnelUsername
        rootDomain := by
          show (written (some p.rootDomain)).getD DefaultArgs.rootDomain = p.rootDomain
          rw [written_some_eq, if_pos h.rootDomain]
          rfl
        remoteSshdPort := rfl
        authenticateClientToRvd := rfl
        authenticateDeviceToRvd := rfl
        encryptRvdTraffic := rfl
        relayAuthMode := hmode
        relayAuthModeExplicit := hexplicit
        only443 := h.only443.symm }

/-! ### Two profiles -/

/-- A profile with values of its own, and `443` as given. -/
def profileParams (only443 : Bool) : PartialParams where
  profileName := some "work"
  clientAtSign := some "@alice"
  sshnpdAtSign := some "@bob"
  srvdAtSign := some "@relay"
  device := some "my_box"
  localPort := some 2222
  passPhrase := some "open sesame"
  sendSshPublicKey := some true
  localSshOptions := some ["-A", "-L 8080:localhost:80"]
  remoteUsername := some "root"
  tunnelUsername := some "tunnel"
  rootDomain := some "vip.ve.atsign.zone"
  remoteSshdPort := some 2200
  authenticateClientToRvd := some only443
  authenticateDeviceToRvd := some only443
  encryptRvdTraffic := some only443
  relayAuthMode := some .escr
  only443 := some only443

def profile (only443 : Bool) : Params where
  toParamValues := (profileParams only443).values asciiRuntime "@alice"
  valid := by cases only443 <;> decide +kernel

theorem fromPartial_profile (only443 : Bool) :
    Params.fromPartial asciiRuntime (profileParams only443) = .ok (profile only443) :=
  (Params.fromPartial_eq_ok asciiRuntime).mpr ⟨"@alice", rfl, Or.inr rfl, rfl⟩

theorem profile_trimmed (only443 : Bool) : StringsTrimmed (profile only443) where
  clientAtSign := show Trimmed "@alice" by decide +kernel
  sshnpdAtSign := show Trimmed "@bob" by decide +kernel
  srvdAtSign := show Trimmed "@relay" by decide +kernel
  passPhrase := show ∀ s ∈ some "open sesame", Trimmed s by decide +kernel
  localSshOptions := show ∀ o ∈ ["-A", "-L 8080:localhost:80"], Trimmed o by decide +kernel
  remoteUsername := show ∀ s ∈ some "root", Trimmed s by decide +kernel
  tunnelUsername := show ∀ s ∈ some "tunnel", Trimmed s by decide +kernel
  rootDomain := show Trimmed "vip.ve.atsign.zone" by decide +kernel

theorem fromConfigLines_same_plain : ∃ q, Params.fromConfigLines asciiRuntime "work"
    ((profile false).toConfigLines .configFile) = .ok q ∧ SameSaved (profile false) q := by
  refine (fromConfigLines_same_iff asciiRuntime (fromPartial_profile false) (profile_trimmed false) "work").mpr ?_
  exact {
    profileName := rfl
    clientAtSign := by decide +kernel
    sshnpdAtSign := by decide +kernel
    srvdAtSign := by decide +kernel
    passPhrase := by decide +kernel
    localSshOptions := by decide +kernel
    remoteUsername := by decide +kernel
    tunnelUsername := by decide +kernel
    rootDomain := by decide +kernel
    only443 := rfl }

/-- A profile with `443` comes back without it. -/
theorem fromConfigLines_loses_443 : Params.fromPartial asciiRuntime (profileParams true) = .ok (profile true) ∧
    StringsTrimmed (profile true) ∧
    ¬∃ q, Params.fromConfigLines asciiRuntime "work" ((profile true).toConfigLines .configFile) = .ok q ∧
      SameSaved (profile true) q := by
  refine ⟨fromPartial_profile true, profile_trimmed true, ?_⟩
  rintro ⟨q, hq, hsame⟩
  have hlost := only443_of_fromConfigLines asciiRuntime (profile_trimmed true) hq
  rw [hsame.only443] at hlost
  cases hlost

end NoPorts.SshnpParams
