import NoPorts.CDaemonLoop
import NoPorts.SshnpdRequests

/-! How each daemon reads from a notification's key which request it is: the C daemon's
`sshnpd_notification_kind`, the parse in the Arduino daemon's `_handleNotification`, and the message type in the
Dart daemon's handler. -/
namespace NoPorts.NotificationRouting
open Lib

/-- What a key ends in, behind the name of the request. -/
def tailOf (device fromAtsign : String) : List Char := ("." ++ device ++ ".sshnp" ++ fromAtsign).toList

/-- The key of a request. -/
def requestKey (toAtsign name device fromAtsign : String) : String :=
  toAtsign ++ ":" ++ name ++ "." ++ device ++ ".sshnp" ++ fromAtsign

/-! ### The Arduino daemon -/

inductive NoPortsNotificationKey where
  | NK_NONE | NK_SSHPUBLICKEY | NK_PING | NK_SSH_REQUEST | NK_NPT_REQUEST | NK_GRACEFUL_SHUTDOWN
  deriving DecidableEq, Repr

def NOPORTS_NOTIFICATION_KEYS_LEN : ℕ := 5

def notification_key_map : List (String × NoPortsNotificationKey) :=
  [("", .NK_NONE), ("sshpublickey", .NK_SSHPUBLICKEY), ("ping", .NK_PING), ("ssh_request", .NK_SSH_REQUEST),
    ("npt_request", .NK_NPT_REQUEST), ("graceful_shutdown", .NK_GRACEFUL_SHUTDOWN)]

/-- The entries the loop compares the key with. -/
def compared : List (String × NoPortsNotificationKey) :=
  (notification_key_map.take NOPORTS_NOTIFICATION_KEYS_LEN).drop 1

/-- The string at `p`, once a NUL stands at `tailstart`. -/
def stringAt (key : List Char) (tailstart p : ℕ) : List Char :=
  if p ≤ tailstart then (key.take tailstart).drop p else key.drop p

/-- The parsed notification key. The byte behind `to` is skipped whatever it is; in a longer character, what
follows is no name. -/
def parsedKey (key head tail : List Char) : Option (List Char) :=
  match indexOf? tail key with
  | none => none
  | some tailstart =>
    let key' := stringAt key tailstart
    if (key' 0).length < head.length then none
    else if ¬head.isPrefixOf (key' 0) then none
    else if (key.drop head.length).head?.map Char.utf8Size = some 1 then some (key' (head.length + 1))
    else none

def notificationKey (key toAtsign device_name fromAtsign : String) : NoPortsNotificationKey :=
  match parsedKey key.toList toAtsign.toList (tailOf device_name fromAtsign) with
  | none => .NK_NONE
  | some name => ((compared.find? (·.1.toList == name)).map (·.2)).getD .NK_NONE

/-! ### The Dart daemon -/

/-- The message types the switch has a case for. -/
def messageTypes : List String :=
  ["privatekey", "sshpublickey", "sshd", "ping", "ssh_request", "npt_request", "relay_latency_request"]

/-- Any other message is only logged. -/
theorem dispatch_unknown {rt : SshnpdRequests.Runtime} {d : SshnpdRequests.SshnpdImpl}
    {n : SshnpdRequests.AtNotification} {a : SshnpdRequests.Answers} {messageType : String}
    {auth : Npp.NPAAuthCheckResponse} (h : messageType ∉ messageTypes) :
    d.dispatch rt n a messageType auth = .ok ⟨d.privateKey, []⟩ := by
  simp only [messageTypes, List.mem_cons, List.not_mem_nil, or_false, not_or] at h
  unfold SshnpdRequests.SshnpdImpl.dispatch
  split
  · exact absurd rfl h.1
  · exact absurd rfl h.2.1
  · exact absurd rfl h.2.2.1
  · exact absurd rfl h.2.2.2.1
  · exact absurd rfl h.2.2.2.2.1
  · exact absurd rfl h.2.2.2.2.2.1
  · exact absurd rfl h.2.2.2.2.2.2
  · rfl

/-- A key in lower case is made of characters `toLowerCase` leaves alone. -/
def InLowerCase (rt : SshnpdRequests.Runtime) (key : String) : Prop :=
  ∀ s : String, (∀ c ∈ s.toList, c ∈ key.toList) → rt.toLowerCase s = s

/-! ### Routing -/

/-- A notification is taken for a request of some kind exactly when its key is that of such a request. -/
def RoutedExactly {K : Type} (table : List (String × K)) (routed : K → Prop)
    (key toAtsign device fromAtsign : String) : Prop :=
  ∀ kind, routed kind ↔
    ∃ name, (name, kind) ∈ table ∧ key = requestKey toAtsign name device fromAtsign

def routedC (key toAtsign device fromAtsign : String) (kind : CDaemon.NotificationKey) : Prop :=
  kind ≠ .none ∧
    CDaemon.notificationKind (some key) (some toAtsign) (some device) (some fromAtsign) = kind

def routedArduino (key toAtsign device fromAtsign : String) (kind : NoPortsNotificationKey) : Prop :=
  kind ≠ .NK_NONE ∧ notificationKey key toAtsign device fromAtsign = kind

def routedDart (rt : SshnpdRequests.Runtime) (d : SshnpdRequests.SshnpdImpl)
    (n : SshnpdRequests.AtNotification) (messageType : String) : Prop :=
  messageType ∈ messageTypes ∧ d.messageType rt n = messageType

/-- The daemon's name for a message type is the type itself. -/
def messageKinds : List (String × String) := messageTypes.map fun name => (name, name)

/-! ### The conditions -/

/-- No tail begins inside `to` or right behind it. -/
def HeadClear (head tail key : List Char) : Prop := ∀ p ≤ head.length, ¬tail <+: key.drop p

/-- Where a known name stands behind `to` and one byte and the first tail ends it, the byte is `:` and nothing
follows the tail; and in the key of a request the first tail is the one behind its name. -/
def NameBounded (names : List String) (head tail key : List Char) : Prop :=
  ∀ name ∈ names, ∀ c rest, c.utf8Size = 1 → key = head ++ c :: (name.toList ++ tail ++ rest) →
    (HeadClear head tail key ↔ c = ':' ∧ rest = [])

/-- `s` is `t` with copies of `pat` put in, each where reading from the left finds it. -/
inductive Woven (pat : List Char) : List Char → List Char → Prop
  | nil : Woven pat [] []
  | copy {t s : List Char} : Woven pat t s → Woven pat t (pat ++ s)
  | char {c : Char} {t s : List Char} : ¬pat <+: c :: s → Woven pat t s → Woven pat (c :: t) (c :: s)

/-- `to:` stands once in the key, at its start, and the tail once behind it, at the end. -/
def OnceEach (head tail key : List Char) : Prop :=
  ∃ body, key = head ++ body ++ tail ∧ ¬head <:+: body ++ tail ∧
    ∀ p < body.length, ¬tail <+: (body ++ tail).drop p

/-- A key that is a known name, or a request's key, but for copies of `to:` and of the tail has each of them once. -/
def CopiesBounded (names : List String) (head tail key : List Char) : Prop :=
  ∀ name ∈ names, key = head ++ name.toList ++ tail ∨
    (∃ mid, Woven head mid key ∧ Woven tail name.toList mid) → OnceEach head tail key

/-! ### The name in a table -/

/-- A table gives its entry for a name it holds once. -/
theorem find?_entry {K : Type} {table : List (String × K)} (hnodup : (table.map Prod.fst).Nodup)
    {name : List Char} {kind : K} :
    (table.find? (·.1.toList == name)).map Prod.snd = some kind ↔ (String.ofList name, kind) ∈ table := by
  rw [Option.map_eq_some_iff]
  constructor
  · rintro ⟨⟨found, k⟩, hfind, rfl⟩
    have hname := List.find?_some hfind
    rw [beq_iff_eq] at hname
    rw [← hname, String.ofList_toList]
    exact List.mem_of_find?_eq_some hfind
  · intro hmem
    induction table with
    | nil => cases hmem
    | cons entry table ih =>
      rw [List.map_cons, List.nodup_cons] at hnodup
      rw [List.find?_cons]
      rcases List.mem_cons.mp hmem with rfl | hmem
      · exact ⟨(String.ofList name, kind), by simp, rfl⟩
      · have hne : (entry.1.toList == name) = false := by
          rw [beq_eq_false_iff_ne]
          intro heq
          apply hnodup.1
          rw [← String.ofList_toList (s := entry.1), heq]
          exact List.mem_map_of_mem (f := Prod.fst) hmem
        rw [hne]
        exact ih hnodup.2 hmem

/-! ### Where the tail stands -/

section Parse
variable {head tail key name : List Char}

/-- The name stands behind `to` and one byte, and ends at the first tail. -/
def NameFound (head tail key name : List Char) : Prop :=
  ∃ c rest, c.utf8Size = 1 ∧ key = head ++ c :: (name ++ tail ++ rest) ∧ HeadClear head tail key

theorem drop_head_append (c : Char) (s : List Char) (i : ℕ) :
    (head ++ c :: s).drop (head.length + 1 + i) = s.drop i := by
  rw [Nat.add_assoc, List.drop_length_add_append, Nat.add_comm 1 i, List.drop_succ_cons]

/-- A tail, which begins with a dot, does not begin inside a text without one. -/
theorem not_prefix_of_no_dot {tl s : List Char} {i : ℕ} (hdot : '.' ∉ name) (hi : i < name.length) :
    ¬('.' :: tl) <+: (name ++ s).drop i := by
  rintro ⟨rest, hrest⟩
  rw [List.drop_append_of_le_length (by omega), List.drop_eq_getElem_cons hi, List.cons_append,
    List.cons_append, List.cons.injEq] at hrest
  apply hdot
  rw [hrest.1]
  exact List.getElem_mem hi

theorem nameFound_iff (htail : ∃ tl, tail = '.' :: tl) (hdot : '.' ∉ name) :
    NameFound head tail key name ↔ ∃ t c, indexOf? tail key = some t ∧ head.length < t ∧ head <+: key ∧
      (key.take t).drop head.length = c :: name ∧ c.utf8Size = 1 := by
  constructor
  · rintro ⟨c, rest, hc, hkey, hclear⟩
    refine ⟨head.length + 1 + name.length, c, ?_, by omega, ?_, ?_, hc⟩
    · rw [indexOf?_eq_some]
      refine ⟨?_, ?_, fun q hq => ?_⟩
      · rw [hkey]
        simp only [List.length_append, List.length_cons]
        omega
      · rw [hkey, drop_head_append, List.append_assoc, List.drop_left]
        exact List.prefix_append tail rest
      · -- an earlier tail begins in the head, or inside the name
        by_cases hhead : q ≤ head.length
        · exact hclear q hhead
        · obtain ⟨i, rfl⟩ : ∃ i, q = head.length + 1 + i := ⟨q - (head.length + 1), by omega⟩
          obtain ⟨tl, rfl⟩ := htail
          rw [hkey, drop_head_append, List.append_assoc]
          exact not_prefix_of_no_dot hdot (by omega)
    · rw [hkey]
      exact List.prefix_append head _
    · have hsplit : key = (head ++ c :: name) ++ (tail ++ rest) := by rw [hkey]; simp
      have hlen : head.length + 1 + name.length = (head ++ c :: name).length := by
        rw [List.length_append, List.length_cons]
        omega
      rw [hsplit, hlen, List.take_left, List.drop_left]
  · rintro ⟨t, c, hindex, hlt, hhead, hname, hc⟩
    obtain ⟨hle, ⟨rest, hrest⟩, hfirst⟩ := indexOf?_eq_some.mp hindex
    obtain ⟨more, rfl⟩ := hhead
    refine ⟨c, rest, hc, ?_, fun p hp => hfirst p (by omega)⟩
    rw [List.take_append, List.take_of_length_le (by omega), List.drop_left] at hname
    calc head ++ more = head ++ (more.take (t - head.length) ++ (head ++ more).drop t) := by
          rw [List.drop_append, List.drop_eq_nil_of_le (by omega), List.nil_append, List.take_append_drop]
      _ = head ++ c :: (name ++ tail ++ rest) := by
          rw [hname, ← hrest, List.cons_append, List.append_assoc]

end Parse

/-! ### The C and the Arduino daemon -/

theorem tailOf_cons (device fromAtsign : String) :
    tailOf device fromAtsign = '.' :: (device ++ ".sshnp" ++ fromAtsign).toList := by
  rw [tailOf]
  simp only [String.toList_append]
  rfl

theorem requestKey_toList (toAtsign name device fromAtsign : String) :
    (requestKey toAtsign name device fromAtsign).toList =
      toAtsign.toList ++ ':' :: (name.toList ++ tailOf device fromAtsign) := by
  simp only [requestKey, tailOf, String.toList_append, List.append_assoc]
  rfl

theorem eq_requestKey_iff {key toAtsign name device fromAtsign : String} :
    key = requestKey toAtsign name device fromAtsign ↔
      key.toList = toAtsign.toList ++ ':' :: (name.toList ++ tailOf device fromAtsign) := by
  rw [← requestKey_toList]
  exact String.toList_inj.symm

/-- No name holds a dot, and none stands twice in the table. -/
structure NameTable {K : Type} (table : List (String × K)) : Prop where
  nodup : (table.map Prod.fst).Nodup
  noDot : ∀ name ∈ table.map Prod.fst, '.' ∉ name.toList

theorem noDot_of_all {names : List String} (h : (names.all fun name => !name.toList.contains '.') = true) :
    ∀ name ∈ names, '.' ∉ name.toList := by
  intro name hname
  have hdot := List.all_eq_true.mp h name hname
  simpa using hdot

theorem NameTable.c : NameTable CDaemon.notificationKeyMap := ⟨by decide, noDot_of_all (by decide)⟩

theorem NameTable.arduino : NameTable compared := ⟨by decide, noDot_of_all (by decide)⟩

theorem NameTable.dart : NameTable messageKinds := ⟨by decide, noDot_of_all (by decide)⟩

/-- What a daemon takes a key for, given where it reads the name. -/
theorem routed_iff {K : Type} {table : List (String × K)} (htable : NameTable table) {unknown kind : K}
    (hunknown : unknown ∉ table.map Prod.snd) {parsed : Option (List Char)} {head tail key : List Char}
    (hparsed : ∀ name, '.' ∉ name → (parsed = some name ↔ NameFound head tail key name)) :
    kind ≠ unknown ∧ (parsed.bind fun name =>
      (table.find? (·.1.toList == name)).map Prod.snd).getD unknown = kind ↔
      ∃ name, (name, kind) ∈ table ∧ NameFound head tail key name.toList := by
  constructor
  · rintro ⟨hkind, hrouted⟩
    cases hbind : parsed.bind fun name => (table.find? (·.1.toList == name)).map Prod.snd with
    | none =>
      rw [hbind] at hrouted
      exact absurd hrouted.symm hkind
    | some k =>
      rw [hbind] at hrouted
      obtain rfl : k = kind := hrouted
      obtain ⟨name, hname, hfind⟩ := Option.bind_eq_some_iff.mp hbind
      have hentry := (find?_entry htable.nodup).mp hfind
      have hdot := htable.noDot _ (List.mem_map_of_mem (f := Prod.fst) hentry)
      rw [String.toList_ofList] at hdot
      refine ⟨String.ofList name, hentry, ?_⟩
      rw [String.toList_ofList]
      exact (hparsed name hdot).mp hname
  · rintro ⟨name, hentry, hfound⟩
    have hdot := htable.noDot _ (List.mem_map_of_mem (f := Prod.fst) hentry)
    refine ⟨fun heq => hunknown ?_, ?_⟩
    · rw [← heq]
      exact List.mem_map_of_mem (f := Prod.snd) hentry
    · have hfind : (table.find? (·.1.toList == name.toList)).map Prod.snd = some kind := by
        apply (find?_entry htable.nodup).mpr
        rwa [String.ofList_toList]
      rw [(hparsed _ hdot).mpr hfound, Option.bind_some, hfind, Option.getD_some]

/-- The text the C daemon compares with the names. -/
def namePointed (key head tail : List Char) : Option (List Char) :=
  match indexOf? tail key with
  | none => none
  | some tailStart =>
    if tailStart ≤ head.length ∨ ¬head.isPrefixOf key then none
    else
      match (key.take tailStart).drop head.length with
      | skipped :: name => if skipped.utf8Size = 1 then some name else none
      | [] => none

theorem notificationKind_eq (key toAtsign device fromAtsign : String) :
    CDaemon.notificationKind (some key) (some toAtsign) (some device) (some fromAtsign) =
      ((namePointed key.toList toAtsign.toList (tailOf device fromAtsign)).bind fun name =>
        (CDaemon.notificationKeyMap.find? (·.1.toList == name)).map Prod.snd).getD .none := by
  simp only [CDaemon.notificationKind, namePointed, tailOf]
  cases indexOf? ("." ++ device ++ ".sshnp" ++ fromAtsign).toList key.toList with
  | none => rfl
  | some t =>
    dsimp only
    by_cases hhead : t ≤ toAtsign.toList.length ∨ ¬toAtsign.toList.isPrefixOf key.toList
    · rw [if_pos hhead, if_pos hhead]
      rfl
    · rw [if_neg hhead, if_neg hhead]
      cases (key.toList.take t).drop toAtsign.toList.length with
      | nil => rfl
      | cons c name =>
        dsimp only
        by_cases hc : c.utf8Size = 1
        · rw [if_pos hc, if_pos hc]
          rfl
        · rw [if_neg hc, if_neg hc]
          rfl

theorem namePointed_iff {head tail key name : List Char} (htail : ∃ tl, tail = '.' :: tl)
    (hdot : '.' ∉ name) : namePointed key head tail = some name ↔ NameFound head tail key name := by
  rw [nameFound_iff htail hdot, namePointed]
  constructor
  · intro h
    split at h
    · cases h
    · rename_i t hindex
      split at h
      · cases h
      · rename_i hhead
        simp only [not_or, not_le, not_not, List.isPrefixOf_iff_prefix] at hhead
        split at h
        · rename_i c rest hname
          split at h
          · rename_i hc
            rw [Option.some.inj h] at hname
            exact ⟨t, c, hindex, hhead.1, hhead.2, hname, hc⟩
          · cases h
        · cases h
  · rintro ⟨t, c, hindex, hlt, hhead, hname, hc⟩
    have hpre := List.isPrefixOf_iff_prefix.mpr hhead
    simp only [hindex, hname, hc, hpre, not_true_eq_false, or_false, if_neg (show ¬t ≤ head.length by omega),
      if_true]

theorem routedC_iff {key toAtsign device fromAtsign : String} {kind : CDaemon.NotificationKey} :
    routedC key toAtsign device fromAtsign kind ↔ ∃ name, (name, kind) ∈ CDaemon.notificationKeyMap ∧
      NameFound toAtsign.toList (tailOf device fromAtsign) key.toList name.toList := by
  rw [routedC, notificationKind_eq]
  apply routed_iff NameTable.c (by decide)
  intro name hdot
  exact namePointed_iff ⟨_, tailOf_cons device fromAtsign⟩ hdot

theorem notificationKey_eq (key toAtsign device fromAtsign : String) :
    notificationKey key toAtsign device fromAtsign =
      ((parsedKey key.toList toAtsign.toList (tailOf device fromAtsign)).bind fun name =>
        (compared.find? (·.1.toList == name)).map Prod.snd).getD .NK_NONE := by
  rw [notificationKey]
  split
  · rename_i hnone
    rw [hnone]
    rfl
  · rename_i name hsome
    rw [hsome]
    rfl

theorem stringAt_of_lt {key : List Char} {t p : ℕ} (h : t < p) : stringAt key t p = key.drop p :=
  if_neg (by omega)

theorem stringAt_of_le {key : List Char} {t p : ℕ} (h : p ≤ t) : stringAt key t p = (key.take t).drop p :=
  if_pos h

theorem parsedKey_iff {head tail key name : List Char} (htail : ∃ tl, tail = '.' :: tl ∧ '.' ∈ tl)
    (hdot : '.' ∉ name) : parsedKey key head tail = some name ↔ NameFound head tail key name := by
  obtain ⟨tl, htl, hsecond⟩ := htail
  rw [nameFound_iff ⟨tl, htl⟩ hdot, parsedKey]
  cases hindex : indexOf? tail key with
  | none => simp
  | some t =>
    obtain ⟨hle, ⟨rest, hrest⟩, -⟩ := indexOf?_eq_some.mp hindex
    have hstart : stringAt key t 0 = key.take t := by rw [stringAt_of_le (Nat.zero_le t), List.drop_zero]
    have hlength : (key.take t).length = t := List.length_take_of_le hle
    have hdropped : t < key.length := by
      have hlen := congrArg List.length hrest
      rw [htl, List.length_append, List.length_cons, List.length_drop] at hlen
      omega
    simp only [hstart, hlength, List.isPrefixOf_iff_prefix, Option.some.injEq]
    constructor
    · intro h
      split at h
      · cases h
      · rename_i hshort
        split at h
        · cases h
        · rename_i hhead
          split at h
          · rename_i hsize
            have hpre : head <+: key := (not_not.mp hhead).trans (List.take_prefix t key)
            have hin : head.length < key.length := by omega
            have hat : key.drop head.length = key[head.length] :: key.drop (head.length + 1) :=
              List.drop_eq_getElem_cons hin
            rw [hat, List.head?_cons, Option.map_some, Option.some.injEq] at hsize
            have hname := Option.some.inj h
            -- when nothing stands between `to` and the tail, the rest of the tail is read
            have hlt : head.length < t := by
              by_contra hnot
              have heq : t = head.length := by omega
              apply hdot
              rw [← hname, stringAt_of_lt (by omega), ← heq, ← List.drop_drop, ← hrest, htl]
              exact List.mem_append_left rest hsecond
            rw [stringAt_of_le (by omega)] at hname
            refine ⟨t, _, rfl, hlt, hpre, ?_, hsize⟩
            rw [List.drop_eq_getElem_cons (by omega), List.getElem_take, hname]
          · cases h
    · rintro ⟨t', c, rfl, hlt, hhead, hname, hc⟩
      have hpre : head <+: key.take t := (List.prefix_take_iff).mpr ⟨hhead, by omega⟩
      have hat : (key.drop head.length).head? = some c := by
        have h := congrArg List.head? hname
        rw [List.drop_take, List.head?_take, if_neg (by omega)] at h
        exact h
      have hrestName : stringAt key t (head.length + 1) = name := by
        rw [stringAt_of_le (by omega), ← List.drop_drop, hname]
        rfl
      simp only [hpre, hat, hc, hrestName, not_true_eq_false, if_false, Option.map_some, if_true,
        if_neg (show ¬t < head.length by omega)]

theorem routedArduino_iff {key toAtsign device fromAtsign : String} {kind : NoPortsNotificationKey} :
    routedArduino key toAtsign device fromAtsign kind ↔ ∃ name, (name, kind) ∈ compared ∧
      NameFound toAtsign.toList (tailOf device fromAtsign) key.toList name.toList := by
  rw [routedArduino, notificationKey_eq]
  apply routed_iff NameTable.arduino (by decide)
  intro name hdot
  refine parsedKey_iff ⟨_, tailOf_cons device fromAtsign, ?_⟩ hdot
  simp

theorem namesEnd_eq {name name' s s' : List Char} (h : '.' ∉ name) (h' : '.' ∉ name')
    (heq : name ++ '.' :: s = name' ++ '.' :: s') : name = name' ∧ s = s' := by
  induction name generalizing name' with
  | nil =>
    cases name' with
    | nil => exact ⟨rfl, (List.cons.inj heq).2⟩
    | cons d name' =>
      rw [(List.cons.inj heq).1] at h'
      exact absurd List.mem_cons_self h'
  | cons c name ih =>
    cases name' with
    | nil =>
      rw [← (List.cons.inj heq).1] at h
      exact absurd List.mem_cons_self h
    | cons d name' =>
      obtain ⟨rfl, htails⟩ := List.cons.inj heq
      obtain ⟨rfl, hs⟩ := ih (fun hin => h (List.mem_cons_of_mem c hin))
        (fun hin => h' (List.mem_cons_of_mem c hin)) htails
      exact ⟨rfl, hs⟩

/-- Where a name is read behind `to`, routing is exact when it is bounded on both sides. -/
theorem exactly_iff_bounded {K : Type} {table : List (String × K)} (htable : NameTable table)
    {routed : K → Prop} {key toAtsign device fromAtsign : String}
    (hrouted : ∀ kind, routed kind ↔ ∃ name, (name, kind) ∈ table ∧
      NameFound toAtsign.toList (tailOf device fromAtsign) key.toList name.toList) :
    RoutedExactly table routed key toAtsign device fromAtsign ↔
      NameBounded (table.map Prod.fst) toAtsign.toList (tailOf device fromAtsign) key.toList := by
  have hdot {name : String} {kind : K} (h : (name, kind) ∈ table) : '.' ∉ name.toList :=
    htable.noDot _ (List.mem_map_of_mem (f := Prod.fst) h)
  constructor
  · intro hexact name hname c rest hc hkey
    obtain ⟨⟨found, kind⟩, hentry, rfl⟩ := List.mem_map.mp hname
    constructor
    · intro hclear
      have hfound : routed kind := (hrouted kind).mpr ⟨_, hentry, c, rest, hc, hkey, hclear⟩
      obtain ⟨name', hentry', hshape⟩ := (hexact kind).mp hfound
      rw [eq_requestKey_iff, hkey, List.append_right_inj, List.cons.injEq, tailOf_cons,
        List.append_assoc, List.cons_append] at hshape
      obtain ⟨-, hrest⟩ := namesEnd_eq (hdot hentry) (hdot hentry') hshape.2
      exact ⟨hshape.1, List.append_right_eq_self.mp hrest⟩
    · rintro ⟨rfl, rfl⟩
      have hshape : key = requestKey toAtsign found device fromAtsign := by
        rw [eq_requestKey_iff, hkey, List.append_nil]
      obtain ⟨_, _, _, _, _, _, hclear⟩ := (hrouted kind).mp ((hexact kind).mpr ⟨_, hentry, hshape⟩)
      exact hclear
  · intro hbounded kind
    rw [hrouted]
    constructor
    · rintro ⟨name, hentry, c, rest, hc, hkey, hclear⟩
      have hname := List.mem_map_of_mem (f := Prod.fst) hentry
      obtain ⟨rfl, rfl⟩ := (hbounded name hname c rest hc hkey).mp hclear
      refine ⟨name, hentry, ?_⟩
      rw [eq_requestKey_iff, hkey, List.append_nil]
    · rintro ⟨name, hentry, hshape⟩
      have hname := List.mem_map_of_mem (f := Prod.fst) hentry
      rw [eq_requestKey_iff, ← List.append_nil (name.toList ++ _)] at hshape
      exact ⟨name, hentry, ':', [], rfl, hshape, (hbounded name hname ':' [] rfl hshape).mpr ⟨rfl, rfl⟩⟩

/-! ### Copies taken out -/

section Copies
variable {pat t s : List Char}

theorem removeAll_skip (pat : List Char) (k : ℕ) (s : List Char) :
    SshnpdRequests.removeAll pat k s = SshnpdRequests.removeAll pat 0 (s.drop k) := by
  induction k generalizing s with
  | zero => rw [List.drop_zero]
  | succ k ih =>
    cases s with
    | nil => rfl
    | cons c s => rw [SshnpdRequests.removeAll, ih, List.drop_succ_cons]

theorem removeAll_copy (hpat : pat ≠ []) (s : List Char) :
    SshnpdRequests.removeAll pat 0 (pat ++ s) = SshnpdRequests.removeAll pat 0 s := by
  obtain ⟨p, ps, rfl⟩ := List.exists_cons_of_ne_nil hpat
  have hpre : (p :: ps).isPrefixOf (p :: (ps ++ s)) = true :=
    List.isPrefixOf_iff_prefix.mpr (List.prefix_append (p :: ps) s)
  rw [List.cons_append, SshnpdRequests.removeAll, if_pos hpre, removeAll_skip, List.length_cons,
    Nat.add_sub_cancel, List.drop_left]

theorem removeAll_char {c : Char} (h : ¬pat <+: c :: s) :
    SshnpdRequests.removeAll pat 0 (c :: s) = c :: SshnpdRequests.removeAll pat 0 s := by
  rw [SshnpdRequests.removeAll, if_neg (by rwa [List.isPrefixOf_iff_prefix])]

/-- What the text says of `s` with the copies of `pat` taken out. -/
theorem woven_iff (hpat : pat ≠ []) : Woven pat t s ↔ SshnpdRequests.removeAll pat 0 s = t := by
  constructor
  · intro h
    induction h with
    | nil => rfl
    | copy _ ih => rw [removeAll_copy hpat, ih]
    | char hc _ ih => rw [removeAll_char hc, ih]
  · intro h
    induction hn : s.length using Nat.strongRecOn generalizing s t with
    | ind n ih =>
      cases s with
      | nil =>
        rw [← h]
        exact .nil
      | cons c s =>
        by_cases hpre : pat <+: c :: s
        · obtain ⟨rest, hrest⟩ := hpre
          have hlen : 0 < pat.length := List.length_pos_iff.mpr hpat
          rw [← hrest, List.length_append] at hn
          rw [← hrest, removeAll_copy hpat] at h
          rw [← hrest]
          exact .copy (ih rest.length (by omega) h rfl)
        · rw [removeAll_char hpre] at h
          rw [← h]
          rw [List.length_cons] at hn
          exact .char hpre (ih s.length (by omega) rfl rfl)

theorem Woven.unique (hpat : pat ≠ []) {t' : List Char} (h : Woven pat t s) (h' : Woven pat t' s) :
    t = t' := by
  rw [woven_iff hpat] at h h'
  rw [← h, ← h']

theorem Woven.of_copy (hpat : pat ≠ []) (h : Woven pat t (pat ++ s)) : Woven pat t s := by
  rw [woven_iff hpat] at h ⊢
  rwa [← removeAll_copy hpat]

theorem Woven.subset (h : Woven pat t s) : t ⊆ s := by
  induction h with
  | nil => exact List.Subset.refl []
  | copy _ ih => exact fun c hc => List.mem_append_right pat (ih hc)
  | char _ _ ih => exact List.cons_subset_cons _ ih

theorem Woven.length_le (h : Woven pat t s) : t.length ≤ s.length := by
  induction h with
  | nil => exact Nat.le_refl 0
  | copy _ ih => rw [List.length_append]; omega
  | char _ _ ih => simp only [List.length_cons]; omega

/-- A copy in the text is taken out of it. -/
theorem Woven.length_of_present (h : Woven pat t s) (hin : pat <:+: s) : t.length + pat.length ≤ s.length := by
  induction h with
  | nil =>
    rw [List.infix_nil.mp hin]
    exact Nat.le_refl 0
  | copy h _ =>
    have := h.length_le
    rw [List.length_append]
    omega
  | char hc _ ih =>
    have := ih ((List.infix_cons_iff.mp hin).resolve_left hc)
    simp only [List.length_cons]
    omega

theorem Woven.eq_of_absent (h : Woven pat t s) (hout : ¬pat <:+: s) : t = s := by
  induction h with
  | nil => rfl
  | copy _ _ => exact absurd (List.prefix_append pat _).isInfix hout
  | char hc _ ih =>
    rw [ih fun hin => hout (List.infix_cons_iff.mpr (Or.inr hin))]

/-- A text without copies is woven from itself. -/
theorem woven_self {a : List Char} (h : ∀ p < a.length, ¬pat <+: (a ++ s).drop p)
    (hs : Woven pat t s) : Woven pat (a ++ t) (a ++ s) := by
  induction a with
  | nil => exact hs
  | cons c a ih =>
    apply Woven.char
    · exact h 0 (by rw [List.length_cons]; omega)
    · apply ih
      intro p hp
      exact h (p + 1) (by rw [List.length_cons]; omega)

theorem not_prefix_drop_of_absent (h : ¬pat <:+: s) (p : ℕ) : ¬pat <+: s.drop p :=
  fun hpre => h (hpre.isInfix.trans (List.drop_suffix p s).isInfix)

/-- An end of the text that lacks the last character of `pat` stays. -/
theorem Woven.suffix {c : Char} {front ending : List Char} (hend : c ∉ ending)
    (h : Woven (front ++ [c]) t s) {x : List Char} (hs : s = x ++ ending) : ∃ y, t = y ++ ending := by
  induction h generalizing x with
  | nil => exact ⟨[], by rw [List.nil_append, (List.append_eq_nil_iff.mp hs.symm).2]⟩
  | copy _ ih =>
    rcases List.append_eq_append_iff.mp hs with ⟨a, rfl, ha⟩ | ⟨a, ha, hrest⟩
    · exact ih ha
    · -- the copy would reach into the ending
      cases a using List.reverseRecOn with
      | nil => exact ih (x := []) hrest.symm
      | append_singleton a d =>
        rw [← List.append_assoc] at ha
        have hcd : c = d := (List.append_inj_right' ha rfl |> List.singleton_inj.mp)
        apply absurd _ hend
        rw [hrest, hcd]
        exact List.mem_append_left _ (List.mem_append_right a (List.mem_singleton_self d))
  | char _ h ih =>
    cases x with
    | nil =>
      have hout : ¬front ++ [c] <:+: _ := fun hin => hend (by
        rw [List.nil_append] at hs
        rw [← hs]
        exact List.mem_cons_of_mem _ (hin.subset (List.mem_append_right front (List.mem_singleton_self c))))
      refine ⟨[], ?_⟩
      rw [h.eq_of_absent hout]
      exact hs
    | cons d x =>
      rw [List.cons_append, List.cons.injEq] at hs
      obtain ⟨y, rfl⟩ := ih hs.2
      exact ⟨_ :: y, rfl⟩

end Copies

/-! ### What is left of a key -/

section Dart
variable {head tail key : List Char}

theorem woven_of_absent {pat s : List Char} (h : ¬pat <:+: s) : Woven pat s s := by
  have hclear : ∀ p < s.length, ¬pat <+: (s ++ []).drop p := by
    intro p _
    rw [List.append_nil]
    exact not_prefix_drop_of_absent h p
  have hself := woven_self hclear .nil
  rwa [List.append_nil] at hself

/-- A key with one copy of each is left with what stands between them. -/
theorem OnceEach.woven (h : OnceEach head tail key) : ∃ body, key = head ++ body ++ tail ∧
    Woven head (body ++ tail) key ∧ Woven tail body (body ++ tail) := by
  obtain ⟨body, hkey, hhead, htail⟩ := h
  refine ⟨body, hkey, ?_, ?_⟩
  · rw [hkey, List.append_assoc]
    exact (woven_of_absent hhead).copy
  · have hend : Woven tail [] tail := by
      have h : Woven tail [] (tail ++ []) := .copy .nil
      rwa [List.append_nil] at h
    have h := woven_self htail hend
    rwa [List.append_nil] at h

/-- What the key of a request is left with. When that is the name, `to:` does not stand in it again: it could only
be taken out before the last dot of the tail, and with that dot a whole tail has to go. -/
theorem onceEach_of_request {front name before ending mid : List Char} {c : Char}
    (htail : ∃ tl, tail = '.' :: tl) (hending : tail = before ++ ending) (hc : c ∉ ending)
    (hdot : '.' ∈ ending) (hname : '.' ∉ name) (hkey : key = front ++ [c] ++ name ++ tail)
    (hmid : Woven (front ++ [c]) mid key) (hleft : Woven tail name mid) : OnceEach (front ++ [c]) tail key := by
  have hpat : front ++ [c] ≠ [] := by simp
  refine ⟨name, hkey, fun hagain => ?_, fun p hp => ?_⟩
  · rw [hkey, List.append_assoc] at hmid
    have hmid' := hmid.of_copy hpat
    have hshorter := hmid'.length_of_present hagain
    obtain ⟨y, rfl⟩ := hmid'.suffix hc (x := name ++ before) (by rw [hending, List.append_assoc])
    have htailIn : tail <:+: y ++ ending := by
      by_contra hout
      apply hname
      rw [hleft.eq_of_absent hout]
      exact List.mem_append_right y hdot
    have hwhole := hleft.length_of_present htailIn
    simp only [List.length_append, List.length_singleton] at hshorter hwhole
    omega
  · obtain ⟨tl, rfl⟩ := htail
    exact not_prefix_of_no_dot hname hp

/-- Where copies are taken out, routing is exact when each stands once. -/
theorem exactly_iff_copies {names : List String} {front before ending : List Char} {c : Char}
    (hnames : ∀ name ∈ names, '.' ∉ name.toList) (htail : ∃ tl, tail = '.' :: tl)
    (hending : tail = before ++ ending) (hc : c ∉ ending) (hdot : '.' ∈ ending) :
    (∀ name ∈ names, (∃ mid, Woven (front ++ [c]) mid key ∧ Woven tail name.toList mid) ↔
      key = front ++ [c] ++ name.toList ++ tail) ↔ CopiesBounded names (front ++ [c]) tail key := by
  have hhead : front ++ [c] ≠ [] := by simp
  have htailne : tail ≠ [] := by
    obtain ⟨tl, rfl⟩ := htail
    exact List.cons_ne_nil _ _
  constructor
  · intro hexact name hname hcase
    have hkey : key = front ++ [c] ++ name.toList ++ tail := by
      rcases hcase with hkey | hleft
      · exact hkey
      · exact (hexact name hname).mp hleft
    obtain ⟨mid, hmid, hleft⟩ := (hexact name hname).mpr hkey
    exact onceEach_of_request htail hending hc hdot (hnames name hname) hkey hmid hleft
  · intro hbounded name hname
    constructor
    · intro hleft
      obtain ⟨body, hkey, hmid, hbody⟩ := (hbounded name hname (Or.inr hleft)).woven
      obtain ⟨mid, hmid', hname'⟩ := hleft
      rw [hmid'.unique hhead hmid] at hname'
      rw [hkey, hname'.unique htailne hbody]
    · intro hshape
      obtain ⟨body, hkey, hmid, hbody⟩ := (hbounded name hname (Or.inl hshape)).woven
      have heq : body = name.toList := by
        rw [hshape] at hkey
        exact (List.append_cancel_left (List.append_cancel_right hkey)).symm
      exact ⟨_, hmid, by rwa [heq] at hbody ⊢⟩

end Dart

/-! ### The Dart daemon -/

section Daemon
variable {rt : SshnpdRequests.Runtime} {d : SshnpdRequests.SshnpdImpl} {n : SshnpdRequests.AtNotification}

theorem messageType_iff (hlower : InLowerCase rt n.key) (name : String) : d.messageType rt n = name ↔
    ∃ mid, Woven (n.toAtsign.toList ++ [':']) mid n.key.toList ∧
      Woven (tailOf d.device n.fromAtsign) name.toList mid := by
  have hhead : (n.toAtsign ++ ":").toList = n.toAtsign.toList ++ [':'] := by
    rw [String.toList_append]
    rfl
  have htail : ("." ++ d.device ++ "." ++ SshnpdRequests.DefaultArgs.namespace ++ n.fromAtsign).toList =
      tailOf d.device n.fromAtsign := by
    simp only [tailOf, SshnpdRequests.DefaultArgs.namespace, String.toList_append, List.append_assoc]
    rfl
  have hheadne : n.toAtsign.toList ++ [':'] ≠ [] := by simp
  have htailne : tailOf d.device n.fromAtsign ≠ [] := by
    rw [tailOf_cons]
    exact List.cons_ne_nil _ _
  generalize hmid : SshnpdRequests.removeAll (n.toAtsign.toList ++ [':']) 0 n.key.toList = mid
  generalize hleft : SshnpdRequests.removeAll (tailOf d.device n.fromAtsign) 0 mid = left
  have hwoven := (woven_iff hheadne).mpr hmid
  have hwoven' := (woven_iff htailne).mpr hleft
  have htype : d.messageType rt n = String.ofList left := by
    rw [SshnpdRequests.SshnpdImpl.messageType, hhead, htail, hmid, hleft]
    apply hlower
    intro c hc
    rw [String.toList_ofList] at hc
    exact hwoven.subset (hwoven'.subset hc)
  rw [htype]
  constructor
  · rintro rfl
    rw [String.toList_ofList]
    exact ⟨mid, hwoven, hwoven'⟩
  · rintro ⟨mid', hmid', hname⟩
    rw [hmid'.unique hheadne hwoven] at hname
    rw [← hname.unique htailne hwoven', String.ofList_toList]

theorem mem_messageKinds {name kind : String} :
    (name, kind) ∈ messageKinds ↔ name = kind ∧ kind ∈ messageTypes := by
  rw [messageKinds, List.mem_map]
  constructor
  · rintro ⟨found, hfound, heq⟩
    obtain ⟨rfl, rfl⟩ := Prod.mk.inj heq
    exact ⟨rfl, hfound⟩
  · rintro ⟨rfl, hname⟩
    exact ⟨name, hname, rfl⟩

theorem exactlyDart_iff (hlower : InLowerCase rt n.key) (hfrom : ':' ∉ n.fromAtsign.toList) :
    RoutedExactly messageKinds (routedDart rt d n) n.key n.toAtsign d.device n.fromAtsign ↔
      CopiesBounded messageTypes (n.toAtsign.toList ++ [':']) (tailOf d.device n.fromAtsign) n.key.toList := by
  have hnoDot : ∀ name ∈ messageTypes, '.' ∉ name.toList := noDot_of_all (by decide)
  have hending : tailOf d.device n.fromAtsign =
      ("." ++ d.device).toList ++ (".sshnp" ++ n.fromAtsign).toList := by
    simp only [tailOf, String.toList_append, List.append_assoc]
  have hcolon : ':' ∉ (".sshnp" ++ n.fromAtsign).toList := by
    rw [String.toList_append, List.mem_append, not_or]
    exact ⟨by decide, hfrom⟩
  have hdot : '.' ∈ (".sshnp" ++ n.fromAtsign).toList := by
    rw [String.toList_append]
    exact List.mem_append_left _ (by decide)
  rw [← exactly_iff_copies hnoDot ⟨_, tailOf_cons d.device n.fromAtsign⟩ hending hcolon hdot]
  constructor
  · intro hexact name hname
    rw [← messageType_iff hlower]
    have hentry := hexact name
    simp only [routedDart, hname, true_and, mem_messageKinds, and_assoc, exists_eq_left,
      eq_requestKey_iff] at hentry
    rw [hentry, List.append_assoc, List.append_assoc, List.singleton_append]
  · intro hexact kind
    simp only [routedDart, mem_messageKinds, and_assoc, exists_eq_left, eq_requestKey_iff]
    apply and_congr_right
    intro hkind
    rw [messageType_iff hlower, hexact kind hkind, List.append_assoc, List.append_assoc,
      List.singleton_append]

end Daemon

/-- Each daemon routes a notification exactly when the name in its key is bounded: for the C and the Arduino
daemon by the byte behind `to` and by the end of the key, for the Dart daemon by the only `to:` and the only tail. -/
theorem notification_routed_exactly_iff (rt : SshnpdRequests.Runtime) (d : SshnpdRequests.SshnpdImpl)
    (n : SshnpdRequests.AtNotification) :
    (RoutedExactly CDaemon.notificationKeyMap (routedC n.key n.toAtsign d.device n.fromAtsign)
        n.key n.toAtsign d.device n.fromAtsign ↔
      NameBounded (CDaemon.notificationKeyMap.map Prod.fst) n.toAtsign.toList (tailOf d.device n.fromAtsign)
        n.key.toList) ∧
    (RoutedExactly compared (routedArduino n.key n.toAtsign d.device n.fromAtsign)
        n.key n.toAtsign d.device n.fromAtsign ↔
      NameBounded (compared.map Prod.fst) n.toAtsign.toList (tailOf d.device n.fromAtsign) n.key.toList) ∧
    (InLowerCase rt n.key → ':' ∉ n.fromAtsign.toList →
      (RoutedExactly messageKinds (routedDart rt d n) n.key n.toAtsign d.device n.fromAtsign ↔
        CopiesBounded messageTypes (n.toAtsign.toList ++ [':']) (tailOf d.device n.fromAtsign) n.key.toList)) := by
  refine ⟨?_, ?_, fun hlower hfrom => exactlyDart_iff hlower hfrom⟩
  · exact exactly_iff_bounded NameTable.c fun _ => routedC_iff
  · exact exactly_iff_bounded NameTable.arduino fun _ => routedArduino_iff

/-! ### Keys that are misrouted -/

def sampleRuntime : SshnpdRequests.Runtime where
  toLowerCase := lowerAscii
  jsonDecode _ := .error (.format "json")
  intParse _ := .error (.format "int")
  toAtsign s := .ok s
  atKeyFromString _ := .ok ()

def sampleDaemon : SshnpdRequests.SshnpdImpl where
  device := "dev"
  deviceAtsign := "@d"
  managerAtsigns := ["@a"]
  policy := false
  strict := true
  requireEnrollmentSignature := false
  addSshPublicKeys := false
  permitOpen := []
  localSshdPort := 22
  elc := false
  privateKey := ""
  clientSessions := []

def sampleNotification (key : String) : SshnpdRequests.AtNotification := ⟨"1", key, "@a", "@d", none⟩

theorem RoutedExactly.key_mem {K : Type} {table : List (String × K)} {routed : K → Prop}
    {key toAtsign device fromAtsign : String} (h : RoutedExactly table routed key toAtsign device fromAtsign)
    {kind : K} (hkind : routed kind) :
    key ∈ table.map fun entry => requestKey toAtsign entry.1 device fromAtsign := by
  obtain ⟨name, hentry, hkey⟩ := (h kind).mp hkind
  exact List.mem_map.mpr ⟨(name, kind), hentry, hkey.symm⟩

/-- Text behind the first tail, another byte than `:` behind `to`, or a second `to:` in the middle of the name: the
notification is handled as a ping all the same. -/
theorem notification_misrouted :
    ¬RoutedExactly CDaemon.notificationKeyMap (routedC "@d:ping.dev.sshnp@a.x.sshnp@a" "@d" "dev" "@a")
        "@d:ping.dev.sshnp@a.x.sshnp@a" "@d" "dev" "@a" ∧
      ¬RoutedExactly compared (routedArduino "@d.ping.dev.sshnp@a" "@d" "dev" "@a")
        "@d.ping.dev.sshnp@a" "@d" "dev" "@a" ∧
      ¬RoutedExactly messageKinds (routedDart sampleRuntime sampleDaemon (sampleNotification "@d:pi@d:ng.dev.sshnp@a"))
        "@d:pi@d:ng.dev.sshnp@a" "@d" "dev" "@a" := by
  refine ⟨fun h => ?_, fun h => ?_, fun h => ?_⟩
  · have hkind : routedC "@d:ping.dev.sshnp@a.x.sshnp@a" "@d" "dev" "@a" .ping := ⟨by decide, by decide⟩
    have hmem := h.key_mem hkind
    revert hmem
    decide
  · have hkind : routedArduino "@d.ping.dev.sshnp@a" "@d" "dev" "@a" .NK_PING := ⟨by decide, by decide⟩
    have hmem := h.key_mem hkind
    revert hmem
    decide
  · have hkind : routedDart sampleRuntime sampleDaemon (sampleNotification "@d:pi@d:ng.dev.sshnp@a") "ping" :=
      ⟨by decide, by decide⟩
    have hmem := h.key_mem hkind
    revert hmem
    decide

theorem sample_inLowerCase : InLowerCase sampleRuntime "@d:ping.dev.sshnp@a" := by
  intro s hs
  have hkey : ("@d:ping.dev.sshnp@a".toList.all fun c => c.toLower == c) = true := by decide
  have hlower : ∀ c ∈ s.toList, c.toLower = c := by
    intro c hc
    exact eq_of_beq (List.all_eq_true.mp hkey c (hs c hc))
  change lowerAscii s = s
  rw [lowerAscii, List.map_congr_left hlower, List.map_id', String.ofList_toList]

theorem notification_routed_exactly_sample :
    InLowerCase sampleRuntime "@d:ping.dev.sshnp@a" ∧
      (RoutedExactly messageKinds (routedDart sampleRuntime sampleDaemon (sampleNotification "@d:ping.dev.sshnp@a"))
          "@d:ping.dev.sshnp@a" "@d" "dev" "@a" ↔
        CopiesBounded messageTypes ("@d".toList ++ [':']) (tailOf "dev" "@a") "@d:ping.dev.sshnp@a".toList) :=
  ⟨sample_inLowerCase, (notification_routed_exactly_iff sampleRuntime sampleDaemon
    (sampleNotification "@d:ping.dev.sshnp@a")).2.2 sample_inLowerCase (by decide)⟩

end NoPorts.NotificationRouting
