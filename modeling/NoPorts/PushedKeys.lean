import NoPorts.AuthorizedKeys
import NoPorts.Lib.Utf8

/-! What a pushed ssh key does to the bytes of `authorized_keys`: the C daemon's `handle_sshpublickey`, and the
Dart daemon's `_handlePublicKeyNotification`. -/
namespace NoPorts.PushedKeys
open Lib

/-- The bytes of a string in C, before its NUL. -/
abbrev CString := { s : List UInt8 // 0 ∉ s }

def bytes (s : String) : List UInt8 := Utf8.encode s.toList

def newline : UInt8 := 10
def carriageReturn : UInt8 := 13
def space : UInt8 := 32
def hash : UInt8 := 35

/-! ### The C daemon -/

def SUPPORTED_KEY_PREFIX_LEN : ℕ := 5

def supportedKeyPrefixMap : List String := ["", "ecdsa-sha2-nistp", "rsa-sha2-", "ssh-rsa", "ssh-ed25519"]

/-- Those the loop compares a key with. -/
def comparedPrefixes : List String := (supportedKeyPrefixMap.take SUPPORTED_KEY_PREFIX_LEN).drop 1

/-- `is_valid_ssh_public_key_prefix` -/
def isValidSshPublicKeyPrefix (sshKey : List UInt8) : Bool :=
  !sshKey.contains newline && !sshKey.contains carriageReturn &&
    comparedPrefixes.any fun p => (bytes p).isPrefixOf sshKey

/-- What `getline` reads, line by line, each with the newline that ends it. -/
def getlines : List UInt8 → List (List UInt8)
  | [] => []
  | c :: rest => if c = newline then [c] :: getlines rest else consFirst c (getlines rest)

/-- `strstr(buf, key) != NULL` -/
def strstr (buf key : List UInt8) : Bool := (buf.takeWhile (· != 0)).tails.any key.isPrefixOf

/-- A line has the key in it. -/
def found (file key : List UInt8) : Bool := (getlines file).any fun buf => strstr buf key

/-- `authorize_ssh_public_key`, where the file can be read and written. -/
def authorizeSshPublicKey (permissions key file : List UInt8) : List UInt8 :=
  if found file key then file
  else
    let ending := if key.getLast? = some newline then [] else [newline]
    if permissions.length > 0 then file ++ (permissions ++ [space] ++ key ++ ending)
    else file ++ (key ++ ending)

/-- The permissions `handle_sshpublickey` gives a key. -/
def tunnelPermissions : List UInt8 := bytes "from=\"127.0.0.1,::1\""

/-- `handle_sshpublickey`: the file it leaves. -/
def handleSshpublickey (sshpublickey : Bool) (decryptedValue : Option CString) (file : List UInt8) : List UInt8 :=
  if !sshpublickey then file
  else
    match decryptedValue with
    | none => file
    | some sshKey =>
      if isValidSshPublicKeyPrefix sshKey then authorizeSshPublicKey tunnelPermissions sshKey file else file

/-! ### The Dart daemon -/

/-- `_handlePublicKeyNotification`: the file it leaves. A file that is no text makes the read throw. -/
def handlePublicKeyNotification (d : AuthorizedKeys.Config) (value : Option String) (file : List UInt8) :
    List UInt8 :=
  if !d.addSshPublicKeys then file
  else
    match value with
    | none => file
    | some sshPublicKey =>
      if AuthorizedKeys.looksLikeKey sshPublicKey then
        match Utf8.decodeText file with
        | none => file
        | some authKeysContent =>
          if AuthorizedKeys.contains authKeysContent sshPublicKey then file
          else file ++ Utf8.encode (d.keyText sshPublicKey)
      else file

/-! ### What a push should do -/

def fileLines (file : List UInt8) : List (List UInt8) := endedBy newline file

/-- The types of key that are supported. -/
def keyTypes : List String := ["ecdsa-sha2-nistp", "rsa-sha2-", "ssh-rsa", "ssh-ed25519"]

def Supported (value : List UInt8) : Prop := ∃ p ∈ keyTypes, bytes p <+: value

/-- There is a line break in it. -/
def SpansLines (value : List UInt8) : Prop := newline ∈ value ∨ carriageReturn ∈ value

instance (value : List UInt8) : Decidable (SpansLines value) := inferInstanceAs (Decidable (_ ∨ _))

def isBlank (c : UInt8) : Bool := c = space || c = 9

def IsComment (line : List UInt8) : Prop := (line.dropWhile isBlank).head? = some hash

/-- The key is there as a whole, not as a part of a longer word. -/
def StandsOn (value line : List UInt8) : Prop :=
  ∃ before after, line = before ++ value ++ after ∧ before.getLast?.all isBlank = true ∧
    after.head?.all isBlank = true

/-- The key stands on a line that is not a comment. -/
def KeyStands (value file : List UInt8) : Prop := ∃ line ∈ fileLines file, ¬IsComment line ∧ StandsOn value line

def newLine (permissions value : List UInt8) : List UInt8 :=
  permissions ++ (if permissions = [] then [] else [space]) ++ value

/-- A push leaves the lines as they are, or adds the one for the value after them; it refuses a value that is no
line or no key, and no other unless the key is there already. -/
structure Pushed (permissions : List UInt8) (value : Option (List UInt8)) (before after : List UInt8) : Prop where
  line : fileLines after = fileLines before ∨
    ∃ v, value = some v ∧ fileLines after = fileLines before ++ [newLine permissions v]
  refused : ∀ v, value = some v → SpansLines v ∨ ¬Supported v → fileLines after = fileLines before
  present : ∀ v, value = some v → ¬SpansLines v → Supported v → fileLines after = fileLines before →
    KeyStands v before

/-- For the C daemon: a key found in the file stands there, and the file's last line is ended if it is not found. -/
def CleanPush (file key : List UInt8) : Prop :=
  isValidSshPublicKeyPrefix key = true →
    if found file key then KeyStands key file else Ended newline file

/-- The Dart daemon writes the key: the file is a text without it. -/
def writes (file : List UInt8) (sshPublicKey : String) : Bool :=
  (Utf8.decodeText file).any fun content => !AuthorizedKeys.contains content sshPublicKey

/-- For the Dart daemon: a key that is written is one line, the permissions are too, and the file's last line is
ended; one that is not written is no line, or stands in the file. -/
def CleanPushDart (permissions file : List UInt8) (sshPublicKey : String) : Prop :=
  AuthorizedKeys.looksLikeKey sshPublicKey = true →
    if writes file sshPublicKey then
      ¬SpansLines (bytes sshPublicKey) ∧ newline ∉ permissions ∧ Ended newline file
    else SpansLines (bytes sshPublicKey) ∨ KeyStands (bytes sshPublicKey) file

/-! ### The key types -/

theorem isValidSshPublicKeyPrefix_iff {key : List UInt8} :
    isValidSshPublicKeyPrefix key = true ↔ ¬SpansLines key ∧ Supported key := by
  have hcompared : comparedPrefixes = keyTypes := rfl
  simp only [isValidSshPublicKeyPrefix, Bool.and_eq_true, Bool.not_eq_true', List.contains_eq_mem,
    decide_eq_false_iff_not, SpansLines, not_or, Supported, List.any_eq_true, List.isPrefixOf_iff_prefix, hcompared]

theorem looksLikeKey_iff {sshPublicKey : String} :
    AuthorizedKeys.looksLikeKey sshPublicKey = true ↔ Supported (bytes sshPublicKey) := by
  simp only [AuthorizedKeys.looksLikeKey, List.any_eq_true, List.isPrefixOf_iff_prefix, Supported, bytes,
    Utf8.encode_prefix, keyTypes]

/-- A supported key is not made of newlines. -/
theorem Supported.exists_ne {value : List UInt8} (h : Supported value) : ∃ c ∈ value, c ≠ newline := by
  obtain ⟨p, hp, hpre⟩ := h
  have hall : (keyTypes.all fun p => (bytes p).any (· != newline)) = true := by decide
  obtain ⟨c, hc, hne⟩ := List.any_eq_true.mp (List.all_eq_true.mp hall p hp)
  exact ⟨c, hpre.subset hc, by simpa using hne⟩

/-! ### What the two outcomes mean -/

section Outcomes
variable {permissions value file text : List UInt8}

theorem mem_newLine_of_mem {c : UInt8} (h : c ∈ value) : c ∈ newLine permissions value :=
  List.mem_append_right _ h

theorem newline_notMem_newLine :
    newline ∉ newLine permissions value ↔ newline ∉ permissions ∧ newline ∉ value := by
  have hsep : newline ∉ (if permissions = [] then [] else [space]) := by
    split <;> decide
  simp only [newLine, List.mem_append, not_or, hsep, not_false_eq_true, and_true]

/-- A supported value that is added. -/
theorem pushed_added_iff (hvalue : Supported value)
    (htext : text = newLine permissions value ∨ text = newLine permissions value ++ [newline]) :
    Pushed permissions (some value) file (file ++ text) ↔
      ¬SpansLines value ∧ newline ∉ permissions ∧ Ended newline file := by
  obtain ⟨c, hc, hne⟩ := hvalue.exists_ne
  have hnew : ∃ c ∈ newLine permissions value, c ≠ newline := ⟨c, mem_newLine_of_mem hc, hne⟩
  have hchanged : fileLines (file ++ text) ≠ fileLines file := by
    apply endedBy_append_ne
    refine ⟨c, ?_, hne⟩
    rcases htext with rfl | rfl
    · exact mem_newLine_of_mem hc
    · exact List.mem_append_left _ (mem_newLine_of_mem hc)
  have hadded := endedBy_added_iff (s := file) hnew htext
  constructor
  · intro h
    have hspans : ¬SpansLines value := fun hspans => hchanged (h.refused value rfl (Or.inl hspans))
    rcases h.line with hsame | ⟨v, hv, hline⟩
    · exact absurd hsame hchanged
    · cases hv
      obtain ⟨hended, hsep⟩ := hadded.mp hline
      exact ⟨hspans, (newline_notMem_newLine.mp hsep).1, hended⟩
  · rintro ⟨hspans, hpermissions, hended⟩
    have hsep : newline ∉ newLine permissions value :=
      newline_notMem_newLine.mpr ⟨hpermissions, fun hin => hspans (Or.inl hin)⟩
    constructor
    · exact Or.inr ⟨value, rfl, hadded.mpr ⟨hended, hsep⟩⟩
    · intro v hv hrefused
      cases hv
      rcases hrefused with h | h
      · exact absurd h hspans
      · exact absurd hvalue h
    · intro v hv _ _ hsame
      exact absurd hsame hchanged

/-- A value that is not added. -/
theorem pushed_same_iff : Pushed permissions (some value) file file ↔
    (Supported value → SpansLines value ∨ KeyStands value file) := by
  constructor
  · intro h hvalue
    by_cases hspans : SpansLines value
    · exact Or.inl hspans
    · exact Or.inr (h.present value rfl hspans hvalue rfl)
  · intro h
    constructor
    · exact Or.inl rfl
    · exact fun _ _ _ => rfl
    · intro v hv hspans hvalue _
      cases hv
      exact (h hvalue).resolve_left hspans

theorem pushed_none : Pushed permissions none file file := by
  constructor
  · exact Or.inl rfl
  · intro v hv
    cases hv
  · intro v hv
    cases hv

end Outcomes

/-! ### The C daemon -/

theorem authorizeSshPublicKey_eq {key file : List UInt8} (hkey : ¬SpansLines key)
    (hfound : found file key = false) : authorizeSshPublicKey tunnelPermissions key file =
      file ++ (newLine tunnelPermissions key ++ [newline]) := by
  have hlast : key.getLast? ≠ some newline := fun h => hkey (Or.inl (List.mem_of_getLast? h))
  have hpermissions : tunnelPermissions ≠ [] := by decide
  rw [authorizeSshPublicKey, if_neg (by rw [hfound]; decide)]
  simp only [if_neg hlast, List.length_pos_iff, ne_eq, hpermissions, not_false_eq_true, if_true, newLine, if_false]

theorem pushedC_iff (value : Option CString) (file : List UInt8) :
    Pushed tunnelPermissions (value.map Subtype.val) file (handleSshpublickey true value file) ↔
      ∀ key, value = some key → CleanPush file key.val := by
  cases value with
  | none =>
    apply iff_of_true pushed_none
    intro key hkey
    cases hkey
  | some key =>
    simp only [Option.map_some, Option.some.injEq, forall_eq']
    rw [handleSshpublickey, if_neg (by decide)]
    by_cases hvalid : isValidSshPublicKeyPrefix key.val = true
    · obtain ⟨hspans, hvalue⟩ := isValidSshPublicKeyPrefix_iff.mp hvalid
      simp only [hvalid, if_true, CleanPush, true_imp_iff]
      by_cases hfound : found file key.val = true
      · rw [authorizeSshPublicKey, if_pos hfound, if_pos hfound, pushed_same_iff]
        simp only [hvalue, true_imp_iff, hspans, false_or]
      · rw [if_neg hfound, authorizeSshPublicKey_eq hspans (Bool.not_eq_true _ ▸ hfound),
          pushed_added_iff hvalue (Or.inr rfl)]
        have hpermissions : newline ∉ tunnelPermissions := by decide
        simp only [hspans, not_false_eq_true, hpermissions, true_and]
    · have hrefused : ¬(¬SpansLines key.val ∧ Supported key.val) := fun h => hvalid (isValidSshPublicKeyPrefix_iff.mpr h)
      rw [if_neg hvalid, pushed_same_iff]
      apply iff_of_true
      · intro hvalue
        exact Or.inl (by_contra fun hspans => hrefused ⟨hspans, hvalue⟩)
      · exact fun h => absurd h hvalid

/-! ### The Dart daemon -/

theorem bytes_eq_nil {s : String} : bytes s = [] ↔ s = "" := by
  constructor
  · intro h
    cases hs : s.toList with
    | nil => exact String.toList_inj.mp (hs.trans String.toList_empty.symm)
    | cons c cs =>
      rw [bytes, hs, Utf8.encode_cons] at h
      exact absurd (List.append_eq_nil_iff.mp h).1 (Utf8.encode_spec c).1.ne_nil
  · rintro rfl
    rfl

theorem encode_keyText (d : AuthorizedKeys.Config) (sshPublicKey : String) :
    Utf8.encode (d.keyText sshPublicKey) = newLine (bytes d.sshPublicKeyPermissions) (bytes sshPublicKey) := by
  have hsep : bytes (if d.sshPublicKeyPermissions = "" then "" else " ") =
      if bytes d.sshPublicKeyPermissions = [] then [] else [space] := by
    simp only [bytes_eq_nil]
    split
    · rfl
    · decide
  rw [AuthorizedKeys.Config.keyText, newLine, ← hsep, String.toList_append, String.toList_append,
    Utf8.encode_append, Utf8.encode_append]
  rfl

/-- The file is left as it is when the key is not written. -/
theorem handlePublicKeyNotification_eq {permissions sshPublicKey : String} {file : List UInt8}
    (hkey : AuthorizedKeys.looksLikeKey sshPublicKey = true) :
    handlePublicKeyNotification ⟨true, permissions⟩ (some sshPublicKey) file =
      if writes file sshPublicKey then file ++ newLine (bytes permissions) (bytes sshPublicKey) else file := by
  simp only [handlePublicKeyNotification, Bool.not_true, Bool.false_eq_true, if_false, hkey, if_true, encode_keyText]
  split
  · rename_i hnone
    have hwrites : writes file sshPublicKey = false := by
      rw [writes, hnone]
      rfl
    simp only [hwrites, Bool.false_eq_true, if_false]
  · rename_i content hcontent
    have hwrites : writes file sshPublicKey = !AuthorizedKeys.contains content sshPublicKey := by
      rw [writes, hcontent, Option.any_some]
    rw [hwrites]
    cases AuthorizedKeys.contains content sshPublicKey <;> rfl

theorem pushedDart_iff (permissions : String) (value : Option String) (file : List UInt8) :
    Pushed (bytes permissions) (value.map bytes) file (handlePublicKeyNotification ⟨true, permissions⟩ value file) ↔
      ∀ key, value = some key → CleanPushDart (bytes permissions) file key := by
  cases value with
  | none =>
    apply iff_of_true pushed_none
    intro key hkey
    cases hkey
  | some key =>
    simp only [Option.map_some, Option.some.injEq, forall_eq']
    by_cases hkey : AuthorizedKeys.looksLikeKey key = true
    · have hvalue := looksLikeKey_iff.mp hkey
      rw [handlePublicKeyNotification_eq hkey, CleanPushDart]
      simp only [hkey, true_imp_iff]
      by_cases hwrites : writes file key = true
      · rw [if_pos hwrites, if_pos hwrites]
        exact pushed_added_iff hvalue (Or.inl rfl)
      · rw [if_neg hwrites, if_neg hwrites, pushed_same_iff]
        simp only [hvalue, true_imp_iff]
    · have hsame : handlePublicKeyNotification ⟨true, permissions⟩ (some key) file = file := by
        simp only [handlePublicKeyNotification, Bool.not_true, Bool.false_eq_true, if_false, hkey]
      rw [hsame, pushed_same_iff]
      apply iff_of_true
      · exact fun hvalue => absurd (looksLikeKey_iff.mpr hvalue) hkey
      · exact fun h => absurd h hkey

/-- A push changes the file by at most one well-formed line exactly when the last line is ended where a key is
added, the key stands in the file where it is not, and, for the Dart daemon, what is written is one line. -/
theorem pushed_key_one_line_iff (permissions : String) (valueC : Option CString) (valueDart : Option String)
    (file : List UInt8) :
    (Pushed tunnelPermissions (valueC.map Subtype.val) file (handleSshpublickey true valueC file) ↔
      ∀ key, valueC = some key → CleanPush file key.val) ∧
    (Pushed (bytes permissions) (valueDart.map bytes) file
        (handlePublicKeyNotification ⟨true, permissions⟩ valueDart file) ↔
      ∀ key, valueDart = some key → CleanPushDart (bytes permissions) file key) :=
  ⟨pushedC_iff valueC file, pushedDart_iff permissions valueDart file⟩

theorem writes_bytes {s sshPublicKey : String} (hmark : s.toList.head? ≠ some (Char.ofNat 0xFEFF)) :
    writes (bytes s) sshPublicKey = !AuthorizedKeys.contains s.toList sshPublicKey := by
  rw [writes, Utf8.decodeText, bytes, Utf8.decode_encode, Option.map_some, if_neg hmark, Option.any_some]

/-- What the Dart daemon writes is no push where it is not one line after an ended one. -/
theorem not_pushed_of_writes {permissions sshPublicKey : String} {file : List UInt8}
    (hkey : AuthorizedKeys.looksLikeKey sshPublicKey = true) (hwrites : writes file sshPublicKey = true)
    (hunclean : ¬(¬SpansLines (bytes sshPublicKey) ∧ newline ∉ bytes permissions ∧ Ended newline file)) :
    ¬Pushed (bytes permissions) (some (bytes sshPublicKey)) file
      (handlePublicKeyNotification ⟨true, permissions⟩ (some sshPublicKey) file) := by
  intro h
  have hclean := (pushedDart_iff permissions (some sshPublicKey) file).mp h sshPublicKey rfl hkey
  rw [if_pos hwrites] at hclean
  exact hunclean hclean

def newKey : CString := ⟨bytes "ssh-rsa NEW", by decide⟩

/-- A last line without its end becomes part of the new line, a comment that names the key keeps it out, and the
Dart daemon writes a value of two lines. -/
theorem push_unclean :
    ¬Pushed tunnelPermissions (some newKey.val) (bytes "ssh-rsa OLD")
        (handleSshpublickey true (some newKey) (bytes "ssh-rsa OLD")) ∧
      ¬Pushed tunnelPermissions (some newKey.val) (bytes "# ssh-rsa NEW\n")
        (handleSshpublickey true (some newKey) (bytes "# ssh-rsa NEW\n")) ∧
      ¬Pushed (bytes "") (some (bytes "ssh-rsa NEW")) (bytes "ssh-rsa OLD")
        (handlePublicKeyNotification ⟨true, ""⟩ (some "ssh-rsa NEW") (bytes "ssh-rsa OLD")) ∧
      ¬Pushed (bytes "") (some (bytes "ssh-rsa A\nssh-rsa B")) []
        (handlePublicKeyNotification ⟨true, ""⟩ (some "ssh-rsa A\nssh-rsa B") []) := by
  refine ⟨fun h => ?_, fun h => ?_, fun h => ?_, fun h => ?_⟩
  · have hclean := (pushedC_iff (some newKey) _).mp h newKey rfl (by decide)
    revert hclean
    rw [if_neg (by decide)]
    decide
  · have hclean := (pushedC_iff (some newKey) _).mp h newKey rfl (by decide)
    rw [if_pos (by decide)] at hclean
    obtain ⟨line, hline, hcomment, -⟩ := hclean
    have hlines : fileLines (bytes "# ssh-rsa NEW\n") = [bytes "# ssh-rsa NEW"] := by decide
    rw [hlines, List.mem_singleton] at hline
    subst hline
    exact hcomment (by unfold IsComment; decide)
  · refine not_pushed_of_writes (by decide) ?_ (by decide) h
    rw [writes_bytes] <;> decide
  · exact not_pushed_of_writes (by decide) (by decide) (by decide) h

end NoPorts.PushedKeys
