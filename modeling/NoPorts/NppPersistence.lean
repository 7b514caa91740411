import NoPorts.NppIntegrity
import NoPorts.Lib.Table
import NoPorts.Lib.Text

/-! The policy directory: the files of the rules, the hooks that write and
delete them, and the cache loaded from them. -/
namespace NoPorts.Npp
open Lib

/-- The kind as a file name has it. -/
def Kind.fileKind : Kind → String
  | client => "client"
  | clientGroup => "client_group"
  | clientGroupMember => "client_group_member"
  | daemon => "daemon"
  | service => "service"
  | serviceACL => "service_acl"

/-- `_fileKinds` -/
def fileKinds : List Kind :=
  [.client, .clientGroup, .clientGroupMember, .daemon, .service, .serviceACL]

/-- The kinds in the order the loader looks for their suffixes. -/
def loadKinds : List Kind :=
  [.clientGroupMember, .clientGroup, .client, .serviceACL, .service, .daemon]

def Kind.suffix (kind : Kind) : String := "_" ++ kind.fileKind ++ ".json"

/-- The name of a rule's file. -/
def fileName (e : PolicyEntry) : String := e.id.getD "null" ++ e.kind.suffix

/-- A rule's file. Its text is kept as the JSON it decodes to. -/
def file (e : PolicyEntry) : String × Json := (fileName e, .obj e.toJson)

/-- The files of a directory, by name. -/
abbrev Directory := Table String Json

/-! The hooks of `nppOperationHooksForFiles`. -/

/-- `prePutClient` and its siblings -/
def prePut (directory : Directory) (e : PolicyEntry) : Directory :=
  directory.set (fileName e) (.obj e.toJson)

/-- `deleteFile`: a file already gone is fine. -/
def deleteFile (directory : Directory) (name : String) : Directory := directory.erase name

/-- `preDeleteClient` and its siblings -/
def preDelete (directory : Directory) (e : PolicyEntry) : Directory :=
  deleteFile directory (fileName e)

/-! Loading. -/

/-- `_carriesId` with `folded` false -/
def carriesId (name : String) (json : List (String × Json)) : Bool :=
  match (Json.field json "id").str? with
  | some id => id == name
  | none => false

/-- What the loader does with a file it reads: it may throw at any point, and
passes over a file whose name does not carry its id. -/
def readFile (nppCache : NppCache) (newId fileName : String) (fileContent : Json) :
    Except Thrown NppCache := do
  let jsonData ← asMap fileContent
  match fileKinds.find? (fun kind => endsWith fileName kind.suffix) with
  | none => throw .noElement
  | some kind =>
    let name := (stripSuffix? kind.suffix.toList fileName.toList).getD []
    if ¬carriesId (String.ofList name) jsonData then return nppCache
    match loadKinds.find? (fun kind => endsWith fileName kind.suffix) with
    | none => return nppCache
    | some kind => return (← nppCache.put newId (← PolicyEntry.fromJson kind jsonData)).2

/-- One turn of the loader's loop: what is thrown is logged, and the file passed over. -/
def loadFile (newId : String) (nppCache : NppCache) (file : String × Json) : NppCache :=
  if ¬endsWith file.1 ".json" then nppCache
  else if fileKinds.all (fun kind => !endsWith file.1 kind.suffix) then nppCache
  else
    match readFile nppCache newId file.1 file.2 with
    | .error _ => nppCache
    | .ok nppCache => nppCache

/-- The rules removed for what they name, and the cache loaded from a directory
that lists its files so, or that does not exist. Every rule loaded has its id,
so `newId` is for none. -/
def nppCacheFromFiles (newId : String) (files : Option (List (String × Json))) :
    List (String × PolicyEntry × List String) × NppCache :=
  match files with
  | none => ([], .empty)
  | some files => (files.foldl (loadFile newId) .empty).removeRulesNamingMissing

/-! What the files hold. -/

/-- The rule in a file, read as one of `kind`. -/
def storedRule? (kind : Kind) (file : String × Json) : Option PolicyEntry :=
  if endsWith file.1 kind.suffix then
    (asMap file.2 >>= PolicyEntry.fromJson kind).toOption
  else none

/-- The rules of one kind that a directory holds. -/
def storedRules (directory : Directory) (kind : Kind) : List PolicyEntry :=
  directory.entries.filterMap (storedRule? kind)

theorem suffix_toList (kind : Kind) :
    kind.suffix.toList = '_' :: (kind.fileKind.toList ++ ".json".toList) := by
  simp [Kind.suffix]

/-- No kind's suffix ends in another's. -/
theorem suffix_inj {k k' : Kind} (h : k.suffix.toList <:+ k'.suffix.toList) : k = k' := by
  rw [← List.isSuffixOf_iff_suffix] at h
  cases k <;> cases k' <;> first
    | rfl
    | exact absurd h (by decide)

theorem fileName_toList (e : PolicyEntry) :
    (fileName e).toList = (e.id.getD "null").toList ++ e.kind.suffix.toList := by
  rw [fileName, String.toList_append]

theorem endsWith_fileName (e : PolicyEntry) (k : Kind) :
    endsWith (fileName e) k.suffix = true ↔ k = e.kind := by
  rw [endsWith_iff, fileName_toList]
  constructor
  · intro h
    rcases List.suffix_or_suffix_of_suffix h (List.suffix_append _ _) with h | h
    · exact suffix_inj h
    · exact (suffix_inj h).symm
  · rintro rfl
    exact List.suffix_append _ _

/-- Rules with ids have one file name only when they have one kind and one id. -/
theorem key_of_fileName {e t : PolicyEntry} (he : e.id ≠ none) (ht : t.id ≠ none)
    (h : fileName e = fileName t) : e.key = t.key := by
  have hkind : e.kind = t.kind := (endsWith_fileName t e.kind).mp
    (by rw [← h, endsWith_fileName])
  obtain ⟨i, hi⟩ := Option.ne_none_iff_exists'.mp he
  obtain ⟨j, hj⟩ := Option.ne_none_iff_exists'.mp ht
  have hl := congrArg String.toList h
  rw [fileName_toList, fileName_toList, hkind, hi, hj] at hl
  have hij : i = j := String.toList_inj.mp (List.append_cancel_right hl)
  exact Prod.ext hkind (by simp [PolicyEntry.key, hi, hj, hij])

/-- Every rule with an id is read back from its JSON. -/
theorem fromJson_toJson (e : PolicyEntry) (hid : e.id ≠ none) :
    PolicyEntry.fromJson e.kind e.toJson = .ok e := by
  obtain ⟨i, hi⟩ := Option.ne_none_iff_exists'.mp hid
  cases e
  all_goals
    rename_i x
    cases x
    simp only [PolicyEntry.id] at hi
    subst hi
    rfl

theorem field_id_toJson (e : PolicyEntry) : Json.field e.toJson "id" = .ofStr? e.id := by
  cases e <;> rfl

/-- The suffix found for a rule's file is that of the rule's kind, in either order. -/
theorem find?_fileName (e : PolicyEntry) (kinds : List Kind)
    (hk : kinds.find? (fun k => decide (k = e.kind)) = some e.kind) :
    kinds.find? (fun k => endsWith (fileName e) k.suffix) = some e.kind := by
  rw [← hk]
  congr 1
  funext k
  rw [Bool.eq_iff_iff, endsWith_fileName, decide_eq_true_iff]

theorem readFile_file {c c' : NppCache} {e : PolicyEntry} {newId : String} (hid : e.id ≠ none)
    (h : c.put newId e = .ok (true, c')) :
    readFile c newId (fileName e) (.obj e.toJson) = .ok c' := by
  obtain ⟨i, hi⟩ := Option.ne_none_iff_exists'.mp hid
  have hfile := find?_fileName e fileKinds (by generalize e.kind = k; cases k <;> rfl)
  have hload := find?_fileName e loadKinds (by generalize e.kind = k; cases k <;> rfl)
  have hname : stripSuffix? e.kind.suffix.toList (fileName e).toList = some i.toList := by
    rw [stripSuffix?_eq_some, fileName_toList, hi]
    rfl
  have hcarries : carriesId (String.ofList i.toList) e.toJson = true := by
    rw [carriesId, field_id_toJson, hi, String.ofList_toList]
    exact beq_self_eq_true i
  have hmap : asMap (.obj e.toJson) = .ok e.toJson := rfl
  simp only [readFile, hmap, hfile, hload, hname, Option.getD_some, hcarries, not_true_eq_false,
    if_false, fromJson_toJson e hid, h, ok_bind]
  rfl

/-- A rule's file that the cache has room for is loaded. -/
theorem loadFile_file {c : NppCache} {e : PolicyEntry} (hid : e.id ≠ none)
    (hcheck : c.checkPut e = .ok ()) (newId : String) :
    (loadFile newId c (file e)).entries.Perm (e :: c.entries) := by
  obtain ⟨c', hput⟩ := NppCache.put_of_check hcheck newId
  have hjson : endsWith (fileName e) ".json" = true := by
    rw [endsWith_iff, fileName_toList, suffix_toList]
    exact ⟨_, List.append_assoc _ ('_' :: e.kind.fileKind.toList) _⟩
  have hknown : fileKinds.all (fun kind => !endsWith (fileName e) kind.suffix) = false := by
    rw [List.all_eq_false]
    exact ⟨e.kind, by generalize e.kind = k; cases k <;> decide,
      by simp [(endsWith_fileName e e.kind).mpr rfl]⟩
  have hload : loadFile newId c (file e) = c' := by
    simp only [loadFile, file, hjson, hknown, readFile_file hid hput, not_true_eq_false, if_false,
      Bool.false_eq_true]
  rw [hload]
  exact (NppCache.put_ok hid hput).2.2

/-- Whatever the order of their files, rules that can stand together are all loaded. -/
theorem foldl_loadFile (rs : List PolicyEntry) {c : NppCache} (newId : String)
    (hgiven : ∀ e ∈ rs ++ c.entries, e.id ≠ none)
    (hkeys : ((rs ++ c.entries).map PolicyEntry.key).Nodup)
    (hdist : ((rs ++ c.entries).map PolicyEntry.distinctive).Nodup) :
    ((rs.map file).foldl (loadFile newId) c).entries.Perm (rs ++ c.entries) := by
  induction rs generalizing c with
  | nil => exact List.Perm.refl _
  | cons e rs ih =>
    have hfresh {β : Type} {f : PolicyEntry → β} (h : ((e :: rs ++ c.entries).map f).Nodup) :
        ∀ t ∈ c.entries, f t ≠ f e := by
      intro t ht heq
      refine (List.nodup_cons.mp h).1 (List.mem_map.mpr ⟨t, ?_, heq⟩)
      exact List.mem_append_right rs ht
    have hcheck : c.checkPut e = .ok () :=
      NppCache.checkPut_of_fresh (fun t ht => hgiven t (List.mem_append_right _ ht))
        (hfresh hkeys) (hfresh hdist)
    have hp := loadFile_file (hgiven e List.mem_cons_self) hcheck newId
    have hrest : (rs ++ (loadFile newId c (file e)).entries).Perm (e :: rs ++ c.entries) :=
      (hp.append_left rs).trans List.perm_middle
    rw [List.map_cons, List.foldl_cons]
    refine (ih (fun t ht => hgiven t (hrest.mem_iff.mp ht)) ?_ ?_).trans hrest
    · exact (hrest.map _).nodup_iff.mpr hkeys
    · exact (hrest.map _).nodup_iff.mpr hdist

/-- The files of a whole cache, in any order, load to the same rules, and none is
removed. -/
theorem nppCacheFromFiles_of_whole {c : NppCache} (hi : c.Integrity) (hd : c.Distinct)
    {files : List (String × Json)} (hf : files.Perm (c.entries.map file)) (newId : String) :
    ∃ c', nppCacheFromFiles newId (some files) = ([], c') ∧ c'.entries.Perm c.entries := by
  obtain ⟨rs, hrs, rfl⟩ := exists_perm_of_perm_map hf
  have hnil : rs ++ NppCache.empty.entries = rs := List.append_nil rs
  have hp := foldl_loadFile rs (c := .empty) newId
    (by rw [hnil]; exact fun e he => hd.given e (hrs.mem_iff.mp he))
    (by rw [hnil]; exact (hrs.map _).nodup_iff.mpr (c.integrity_iff.mp hi).unique)
    (by rw [hnil]; exact (hrs.map _).nodup_iff.mpr hd.distinct)
  rw [hnil] at hp
  have hp' := hp.trans hrs
  have hwhole := (c.integrity_iff.mp hi).perm hp'
  refine ⟨_, ?_, hp'⟩
  exact NppCache.removeRulesNamingMissing_eq fun e he =>
    NppCache.missingReferences_eq_nil (hwhole.resolved e he)

/-- A directory that mirrors a cache holds, of each kind, the cache's rules. -/
theorem storedRules_of_mirrors {c : NppCache} (hd : c.Distinct) {directory : Directory}
    (h : directory.Mirrors file c.entries) (kind : Kind) :
    (storedRules directory kind).Perm (c.rules kind) := by
  have hread : ∀ e ∈ c.entries, storedRule? kind (file e) =
      if e.kind = kind then some e else none := by
    intro e he
    by_cases hk : e.kind = kind
    · subst hk
      have hends : endsWith (fileName e) e.kind.suffix = true := (endsWith_fileName e _).mpr rfl
      have hmap : asMap (.obj e.toJson) = .ok e.toJson := rfl
      simp only [storedRule?, file, hends, hmap, ok_bind, fromJson_toJson e (hd.given e he),
        if_true]
      rfl
    · have hends : ¬endsWith (file e).1 kind.suffix = true := by
        rw [file, endsWith_fileName]
        exact fun h => hk h.symm
      rw [storedRule?, if_neg hends, if_neg hk]
  have hmirror : (storedRules directory kind).Perm
      (c.entries.filterMap fun e => storedRule? kind (file e)) := by
    rw [← Function.comp_def, ← List.filterMap_map]
    exact h.filterMap _
  rw [List.filterMap_congr hread] at hmirror
  have hfilter : (c.entries.filterMap fun e => if e.kind = kind then some e else none) =
      c.rules kind := by
    rw [← NppCache.filter_kind_entries, ← List.filterMap_eq_filter]
    congr 1
    funext e
    by_cases hk : e.kind = kind <;> simp [Option.guard, hk]
  rwa [hfilter] at hmirror

end NoPorts.Npp
