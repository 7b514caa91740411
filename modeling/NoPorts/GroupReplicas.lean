import NoPorts.Lib.Machine
import NoPorts.Lib.Replica
import NoPorts.EnrollmentSignature
import NoPorts.GroupPolicies
import Mathlib.Tactic.IntervalCases

/-! The instances of the policy service that store their user groups at one atServer. -/
namespace NoPorts.GroupReplicas
open Lib

/-! ### Ids -/

/-- The value of a digit of the radix, which is at most 16. -/
def digit? (radix : ℕ) (c : Char) : Option ℕ := ("0123456789abcdef".toList.take radix).idxOf? c.toLower

def digits? (radix : ℕ) (cs : List Char) : Option ℕ :=
  if cs = [] then none else cs.foldlM (fun n c => (digit? radix c).map (radix * n + ·)) 0

/-- An `int` has 64 bits. -/
def wrap (i : ℤ) : ℤ := i.bmod 18446744073709551616

def intMax : ℤ := 9223372036854775807

/-- The digits of `int.parse` after their sign. -/
def intDigits (sign : ℤ) (cs : List Char) : Option ℤ :=
  match cs with
  | '0' :: 'x' :: hex | '0' :: 'X' :: hex =>
    (digits? 16 hex).bind fun n => if n < 18446744073709551616 then some (wrap (sign * n)) else none
  | cs => (digits? 10 cs).bind fun n => if wrap (sign * n) = sign * n then some (sign * n) else none

/-- `int.parse`, `none` where it throws. -/
def intParse (source : String) : Option ℤ :=
  match (Signing.trim source).toList with
  | '-' :: cs => intDigits (-1) cs
  | '+' :: cs => intDigits 1 cs
  | cs => intDigits 1 cs

structure UserGroup extends GroupPolicies.UserGroup where
  id : Option String
  name : String
  description : String
  deriving DecidableEq, Repr

/-- `_maxGroupId`, `none` where it throws. -/
def maxGroupId (groups : Table String UserGroup) : Option ℤ :=
  groups.values.foldlM (fun i g => (g.id.bind intParse).map fun gid => if gid > i then gid else i) 0

/-- The id of a new group. -/
def nextId (groups : Table String UserGroup) : Option String :=
  (maxGroupId groups).map fun i => toString (wrap (i + 1))

/-! ### Keys and notifications -/

/-- The policy atSign, and the text of what `AtKey.fromString` reads. -/
structure PolicyAtsign where
  text : String
  noColon : ':' ∉ text.toList
  fromString : String → String

variable (currentAtSign : PolicyAtsign)

/-- `_groupKey` -/
def groupKey (id : String) : String := id ++ ".groups.policy.sshnp" ++ currentAtSign.text

/-- `_groupAtKey` -/
def groupAtKey (id : String) : String := currentAtSign.fromString (groupKey currentAtSign id)

structure AtNotification where
  key : String
  /-- `none` of a delete. -/
  value : Option UserGroup

/-- What each change of a group is told with. -/
def notification (id : String) (value : Option UserGroup) : AtNotification :=
  ⟨currentAtSign.fromString (currentAtSign.text ++ ":" ++ groupAtKey currentAtSign id), value⟩

/-- The id in a notification's key, `none` where reading it throws. -/
def AtNotification.groupId (n : AtNotification) : Option String :=
  (n.key.toList.splitOn ':')[1]?.bind fun part => (part.splitOn '.').head?.map String.ofList

/-- What the listener enters of a notification, if anything. -/
def AtNotification.entry (n : AtNotification) : Option (String × Option UserGroup) := n.groupId.map (·, n.value)

/-! ### The calls -/

inductive Change where
  | create (group : UserGroup)
  | update (group : UserGroup)
  | delete
  deriving DecidableEq, Repr

/-- What it leaves under the id. -/
def Change.value : Change → Option UserGroup
  | create group => some group
  | update group => some group
  | delete => none

inductive Returned where
  | group (group : UserGroup)
  | nothing
  | removed (any : Bool)
  deriving DecidableEq, Repr

/-- Where a call is. -/
inductive Await where
  /-- At its `put` or `delete`. -/
  | remote
  /-- At its `notify`. -/
  | notify
  /-- That is done, and what follows it is yet to run. -/
  | rest
  | completed (returned : Returned)
  deriving DecidableEq, Repr

variable {ι : Type*}

/-- A call of `createUserGroup`, `updateUserGroup` or `deleteUserGroup` at the instance `service`. -/
structure Call (ι : Type*) where
  service : ι
  id : String
  change : Change
  await : Await

namespace Call

def InProgress (c : Call ι) : Prop := ∀ returned, c.await ≠ .completed returned

/-- What a call returns that finds `groups` when it ends. -/
def returned (c : Call ι) (groups : Table String UserGroup) : Returned :=
  match c.change with
  | .create group => .group group
  | .update _ => .nothing
  | .delete => .removed (groups.get? c.id).isSome

end Call

structure Services (ι : Type*) where
  /-- At the atServer, by the ids in the keys. -/
  stored : Table String UserGroup
  sent : List AtNotification
  groups : ι → Table String UserGroup
  /-- How many of `sent` each instance has handled. -/
  handled : ι → ℕ
  calls : List (Call ι)

inductive Event (ι : Type*) where
  | createUserGroup (service : ι) (group : UserGroup)
  | updateUserGroup (service : ι) (group : UserGroup)
  | deleteUserGroup (service : ι) (id : String)
  /-- The call of this number goes on to its next await. -/
  | resume (n : ℕ)
  /-- The instance handles the next notification. -/
  | handle (service : ι)

namespace Services

/-- Every instance has loaded what is stored. -/
def start (stored : Table String UserGroup) : Services ι := ⟨stored, [], fun _ => stored, fun _ => 0, []⟩

variable (s : Services ι)

def begin (service : ι) (id : String) (change : Change) : Services ι :=
  { s with calls := s.calls ++ [⟨service, id, change, .remote⟩] }

/-- A call that throws does so here, and leaves everything as it is. -/
def createUserGroup (service : ι) (group : UserGroup) : Services ι :=
  match group.id, nextId (s.groups service) with
  | none, some id => s.begin service id (.create { group with id := some id })
  | _, _ => s

def updateUserGroup (service : ι) (group : UserGroup) : Services ι :=
  match group.id with
  | some id => s.begin service id (.update group)
  | none => s

def deleteUserGroup (service : ι) (id : String) : Services ι := s.begin service id .delete

variable [DecidableEq ι]

def resume (n : ℕ) : Option (Services ι) :=
  s.calls[n]?.bind fun c =>
    match c.await with
    | .remote => some
        { s with
          stored := s.stored.write c.id c.change.value
          calls := s.calls.set n { c with await := .notify } }
    | .notify => some
        { s with
          sent := s.sent ++ [notification currentAtSign c.id c.change.value]
          calls := s.calls.set n { c with await := .rest } }
    | .rest => some
        { s with
          groups := Function.update s.groups c.service ((s.groups c.service).write c.id c.change.value)
          calls := s.calls.set n { c with await := .completed (c.returned (s.groups c.service)) } }
    | .completed _ => none

def handle (service : ι) : Option (Services ι) :=
  s.sent[s.handled service]?.map fun n =>
    { s with
      groups := Function.update s.groups service ((s.groups service).writes n.entry.toList)
      handled := Function.update s.handled service (s.handled service + 1) }

end Services

def groupReplicas [DecidableEq ι] : Machine (Services ι) (Event ι) where
  step s
    | .createUserGroup service group => some (s.createUserGroup service group)
    | .updateUserGroup service group => some (s.updateUserGroup service group)
    | .deleteUserGroup service id => some (s.deleteUserGroup service id)
    | .resume n => s.resume currentAtSign n
    | .handle service => s.handle service

/-! ### No group is lost -/

/-- No call is in progress, and every notification is handled. -/
structure Services.Settled (s : Services ι) : Prop where
  calls : ∀ c ∈ s.calls, ¬c.InProgress
  handled : ∀ i, s.sent.length ≤ s.handled i

/-- The ids that creates return are distinct; once all is settled, every instance holds what is stored, and of each
group that was created, unless a later call deleted it, the atServer holds the record that it was created with or a
later call gave it. -/
structure Services.Kept (s : Services ι) : Prop where
  distinct : ∀ (m n : ℕ) (c d : Call ι) (g h : UserGroup), s.calls[m]? = some c → s.calls[n]? = some d → m ≠ n →
    c.await = .completed (.group g) → d.await = .completed (.group h) → g.id ≠ h.id
  same : s.Settled → ∀ i id, (s.groups i).get? id = s.stored.get? id
  held : s.Settled → ∀ (m : ℕ) (c : Call ι) (g : UserGroup), s.calls[m]? = some c → c.await = .completed (.group g) →
    (∀ n d, m < n → s.calls[n]? = some d → d.id = c.id → d.change ≠ .delete) →
      g.id = some c.id ∧ ∃ n d, m ≤ n ∧ s.calls[n]? = some d ∧ d.id = c.id ∧ d.change.value.isSome ∧
        s.stored.get? c.id = d.change.value

/-- The keys made of the id are kept as they are written: an `AtKey` has its letters in lower case. -/
structure KeptByAtKey (id : String) : Prop where
  group : groupAtKey currentAtSign id = groupKey currentAtSign id
  notified : currentAtSign.fromString (currentAtSign.text ++ ":" ++ groupKey currentAtSign id) =
    currentAtSign.text ++ ":" ++ groupKey currentAtSign id

/-- An id that a notification's key is read back as. -/
structure Plain (id : String) : Prop extends KeptByAtKey currentAtSign id where
  noDot : '.' ∉ id.toList
  noColon : ':' ∉ id.toList

/-- No call about the id is in progress. -/
def Services.Free (s : Services ι) (id : String) : Prop := ∀ c ∈ s.calls, c.id = id → ¬c.InProgress

/-- The instance has a group with an id at least as high as those of the calls in progress and those that creates ever
took, and not the highest that an `int` can be. -/
def Services.UpToDate (s : Services ι) (service : ι) : Prop :=
  ∀ i, maxGroupId (s.groups service) = some i → i < intMax ∧
    ∀ c ∈ s.calls, (c.InProgress ∨ ∃ group, c.change = .create group) →
      ∀ gid, intParse c.id = some gid → gid ≤ i

/-- A call starts when no other is in progress about its id, and a create where all ids before are known of. -/
def Allowed (s : Services ι) : Event ι → Prop
  | .createUserGroup service group => group.id = none → s.UpToDate service
  | .updateUserGroup _ group => ∀ id, group.id = some id → Plain currentAtSign id ∧ s.Free id
  | .deleteUserGroup _ id => Plain currentAtSign id ∧ s.Free id
  | .resume _ => True
  | .handle _ => True

variable {currentAtSign}

/-! ### The ids that creates take -/

theorem digit_bounds {c : Char} (hc : c.isDigit = true) : 48 ≤ c.toNat ∧ c.toNat ≤ 57 := by
  simpa [Char.isDigit, UInt32.le_iff_toNat_le] using hc

theorem digit?_ten {c : Char} (hc : c.isDigit = true) : digit? 10 c = some (c.toNat - 48) := by
  have hof : c = Char.ofNat c.toNat := (Char.ofNat_toNat c).symm
  obtain ⟨hlow, hhigh⟩ := digit_bounds hc
  rw [hof]
  generalize c.toNat = n at hlow hhigh
  interval_cases n <;> decide

theorem digits?_toString (n : ℕ) : digits? 10 (toString n).toList = some n := by
  have hfold (cs : List Char) (hcs : ∀ c ∈ cs, c.isDigit = true) (m : ℕ) :
      cs.foldlM (fun n c => (digit? 10 c).map (10 * n + ·)) m =
        some (cs.foldl (fun n c => 10 * n + (c.toNat - 48)) m) := by
    induction cs generalizing m with
    | nil => rfl
    | cons c cs ih =>
      obtain ⟨hc, hcs⟩ := List.forall_mem_cons.mp hcs
      rw [List.foldlM_cons, digit?_ten hc, Option.map_some, List.foldl_cons]
      exact ih hcs _
  rw [digits?, if_neg (toString_ne_nil n), hfold _ (isDigit_of_mem_toString n), foldl_toString]

theorem wrap_eq {i : ℤ} (hlow : 0 ≤ i) (hhigh : i ≤ intMax) : wrap i = i := by
  unfold intMax at hhigh
  rw [wrap, Int.bmod_eq_of_le] <;> omega

theorem trim_toString (n : ℕ) : Signing.trim (toString n) = toString n := by
  rw [Signing.trim, trimBy_eq_self, String.ofList_toList]
  intro c hc
  obtain ⟨hlow, hhigh⟩ := digit_bounds (isDigit_of_mem_toString n c hc)
  simp only [Signing.isWhitespace, Bool.or_eq_false_iff, Bool.and_eq_false_iff, decide_eq_false_iff_not, beq_eq_false_iff_ne]
  omega

theorem not_mem_toString {x : Char} (hx : x.isDigit = false) (n : ℕ) : x ∉ (toString n).toList := by
  intro hmem
  rw [isDigit_of_mem_toString n x hmem] at hx
  cases hx

theorem intDigits_toString {sign : ℤ} {n : ℕ} (h : wrap (sign * n) = sign * n) :
    intDigits sign (toString n).toList = some (sign * n) := by
  have hvalue : ((digits? 10 (toString n).toList).bind fun m =>
      if wrap (sign * (m : ℤ)) = sign * m then some (sign * (m : ℤ)) else none) = some (sign * (n : ℤ)) := by
    rw [digits?_toString, Option.bind_some, if_pos h]
  have hx := not_mem_toString (x := 'x') rfl n
  have hX := not_mem_toString (x := 'X') rfl n
  generalize (toString n).toList = cs at hvalue hx hX
  unfold intDigits
  split
  · exact absurd (by simp) hx
  · exact absurd (by simp) hX
  · exact hvalue

/-- The text of a number is read back as the number. -/
theorem intParse_toString {n : ℕ} (hn : (n : ℤ) ≤ intMax) : intParse (toString n) = some (n : ℤ) := by
  have hnumber : intDigits 1 (toString n).toList = some (n : ℤ) := by
    rw [intDigits_toString] <;> rw [one_mul]
    exact wrap_eq (Int.natCast_nonneg n) hn
  have hminus := not_mem_toString (x := '-') rfl n
  have hplus := not_mem_toString (x := '+') rfl n
  rw [intParse, trim_toString]
  generalize (toString n).toList = cs at hnumber hminus hplus
  split
  · exact absurd (by simp) hminus
  · exact absurd (by simp) hplus
  · exact hnumber

theorem maxGroupId_nonneg {groups : Table String UserGroup} {i : ℤ} (h : maxGroupId groups = some i) : 0 ≤ i := by
  have hfold (gs : List UserGroup) (m i : ℤ) (hm : 0 ≤ m)
      (h : gs.foldlM (fun i g => (g.id.bind intParse).map fun gid => if gid > i then gid else i) m = some i) : 0 ≤ i := by
    induction gs generalizing m with
    | nil =>
      obtain rfl := Option.some.inj h
      exact hm
    | cons g gs ih =>
      rw [List.foldlM_cons] at h
      obtain ⟨m', hm', h⟩ := Option.bind_eq_some_iff.mp h
      obtain ⟨gid, -, rfl⟩ := Option.map_eq_some_iff.mp hm'
      refine ih _ ?_ h
      split <;> omega
  exact hfold groups.values 0 i le_rfl h

/-- Where the instance is up to date, the next id is one of no create and of no call in progress, and it is plain. -/
theorem Services.UpToDate.next {s : Services ι} {service : ι} (h : s.UpToDate service) {id : String}
    (hid : nextId (s.groups service) = some id) (hnumbers : ∀ n : ℕ, KeptByAtKey currentAtSign (toString n)) :
    Plain currentAtSign id ∧ ∀ c ∈ s.calls, (c.InProgress ∨ ∃ group, c.change = .create group) → c.id ≠ id := by
  obtain ⟨i, hi, rfl⟩ := Option.map_eq_some_iff.mp hid
  obtain ⟨hmax, hbefore⟩ := h i hi
  have hnonneg := maxGroupId_nonneg hi
  obtain ⟨n, hn⟩ := Int.eq_ofNat_of_zero_le (show 0 ≤ i + 1 by omega)
  have htext : toString (wrap (i + 1)) = toString n := by
    rw [wrap_eq (by omega) (by omega), hn]
    rfl
  rw [htext]
  refine ⟨⟨hnumbers n, fun hdot => ?_, fun hcolon => ?_⟩, ?_⟩
  · cases isDigit_of_mem_toString n _ hdot
  · cases isDigit_of_mem_toString n _ hcolon
  · intro c hc hbusy heq
    have hle := hbefore c hc hbusy n (by rw [heq, intParse_toString (by omega)])
    omega

/-! ### The invariant -/

theorem entry_notification {id : String} (h : Plain currentAtSign id) (value : Option UserGroup) :
    (notification currentAtSign id value).entry = some (id, value) := by
  have hkey : (notification currentAtSign id value).key.toList =
      currentAtSign.text.toList ++ ':' :: (id.toList ++ '.' :: ("groups.policy.sshnp".toList ++ currentAtSign.text.toList)) := by
    rw [notification, h.group, h.notified]
    simp [groupKey]
  have hrest : ':' ∉ id.toList ++ '.' :: ("groups.policy.sshnp".toList ++ currentAtSign.text.toList) := by
    simpa [h.noColon] using currentAtSign.noColon
  rw [AtNotification.entry, AtNotification.groupId, hkey, List.splitOn_append_cons_self,
    List.splitOn_eq_singleton currentAtSign.noColon, List.splitOn_eq_singleton hrest]
  simp only [List.singleton_append, List.getElem?_cons_succ, List.getElem?_cons_zero, Option.bind_some]
  rw [List.splitOn_append_cons_self, List.splitOn_eq_singleton h.noDot]
  simp [notification]

/-- What a list of notifications enters. -/
def heard (ns : List AtNotification) : List (String × Option UserGroup) := ns.filterMap AtNotification.entry

/-- What the calls are to each other. -/
structure Orderly (currentAtSign : PolicyAtsign) (calls : List (Call ι)) : Prop where
  plain : ∀ c ∈ calls, c.InProgress → Plain currentAtSign c.id
  /-- Of the calls about one id all but the last are completed. -/
  apart : ∀ (m n : ℕ) (c d : Call ι), calls[m]? = some c → calls[n]? = some d → m < n → c.id = d.id → ¬c.InProgress
  fresh : ∀ (m n : ℕ) (c d : Call ι) (g h : UserGroup), calls[m]? = some c → calls[n]? = some d → m < n →
    c.change = .create g → d.change = .create h → c.id ≠ d.id
  named : ∀ c ∈ calls, ∀ g, c.change.value = some g → g.id = some c.id
  returned : ∀ c ∈ calls, ∀ g, c.await = .completed (.group g) → c.change = .create g

namespace Orderly
variable {calls : List (Call ι)}

theorem nil : Orderly currentAtSign ([] : List (Call ι)) := by constructor <;> simp

theorem begin (h : Orderly currentAtSign calls) {service : ι} {id : String} {change : Change} (hplain : Plain currentAtSign id)
    (hfree : ∀ c ∈ calls, c.id = id → ¬c.InProgress)
    (hfresh : ∀ g, change = .create g → ∀ c ∈ calls, ∀ f, c.change = .create f → c.id ≠ id)
    (hnamed : ∀ g, change.value = some g → g.id = some id) : Orderly currentAtSign (calls ++ [⟨service, id, change, .remote⟩]) := by
  constructor
  · intro c hc hbusy
    rcases List.mem_append.mp hc with hc | hc
    · exact h.plain c hc hbusy
    · rwa [List.mem_singleton.mp hc]
  · intro m n c d hc hd hlt hid
    rcases getElem?_concat_cases hd with hd | ⟨rfl, rfl⟩
    · rcases getElem?_concat_cases hc with hc | ⟨rfl, rfl⟩
      · exact h.apart m n c d hc hd hlt hid
      · have := (List.getElem?_eq_some_iff.mp hd).1
        omega
    · rcases getElem?_concat_cases hc with hc | ⟨rfl, rfl⟩
      · exact hfree c (List.mem_of_getElem? hc) hid
      · exact absurd hlt (Nat.lt_irrefl _)
  · intro m n c d f g hc hd hlt hcreate hcreate'
    rcases getElem?_concat_cases hd with hd | ⟨rfl, rfl⟩
    · rcases getElem?_concat_cases hc with hc | ⟨rfl, rfl⟩
      · exact h.fresh m n c d f g hc hd hlt hcreate hcreate'
      · have := (List.getElem?_eq_some_iff.mp hd).1
        omega
    · rcases getElem?_concat_cases hc with hc | ⟨rfl, rfl⟩
      · exact hfresh g hcreate' c (List.mem_of_getElem? hc) f hcreate
      · exact absurd hlt (Nat.lt_irrefl _)
  · intro c hc g hg
    rcases List.mem_append.mp hc with hc | hc
    · exact h.named c hc g hg
    · rw [List.mem_singleton.mp hc] at hg ⊢
      exact hnamed g hg
  · intro c hc g hg
    rcases List.mem_append.mp hc with hc | hc
    · exact h.returned c hc g hg
    · rw [List.mem_singleton.mp hc] at hg
      cases hg

/-- Only the last call about an id can be in progress. -/
theorem le_of_inProgress (h : Orderly currentAtSign calls) {m n : ℕ} {c d : Call ι} (hc : calls[n]? = some c) (hbusy : c.InProgress)
    (hd : calls[m]? = some d) (hid : d.id = c.id) : m ≤ n := by
  by_contra hlt
  exact h.apart n m c d hc hd (Nat.lt_of_not_le hlt) hid.symm hbusy

theorem eq_of_inProgress (h : Orderly currentAtSign calls) {m n : ℕ} {c d : Call ι} (hc : calls[n]? = some c) (hbusy : c.InProgress)
    (hd : calls[m]? = some d) (hbusy' : d.InProgress) (hid : d.id = c.id) : m = n :=
  Nat.le_antisymm (h.le_of_inProgress hc hbusy hd hid) (h.le_of_inProgress hd hbusy' hc hid.symm)

/-- A call that goes on stands where it was. -/
theorem before (m n : ℕ) (c : Call ι) {a : Await} {d : Call ι} (hc : calls[n]? = some c)
    (hd : (calls.set n { c with await := a })[m]? = some d) :
    ∃ d₀, calls[m]? = some d₀ ∧ d.id = d₀.id ∧ d.change = d₀.change ∧ d.service = d₀.service ∧
      (m = n ∧ d₀ = c ∧ d.await = a ∨ m ≠ n ∧ d₀ = d) := by
  rcases getElem?_set_cases hd with ⟨rfl, rfl⟩ | ⟨hne, hd⟩
  · exact ⟨c, hc, rfl, rfl, rfl, .inl ⟨rfl, rfl, rfl⟩⟩
  · exact ⟨d, hd, rfl, rfl, rfl, .inr ⟨hne, rfl⟩⟩

theorem advance (h : Orderly currentAtSign calls) {n : ℕ} {c : Call ι} (hc : calls[n]? = some c) (hbusy : c.InProgress) {a : Await}
    (ha : ∀ g, a = .completed (.group g) → c.change = .create g) : Orderly currentAtSign (calls.set n { c with await := a }) := by
  constructor
  · intro d hd hbusy'
    obtain ⟨m, hd⟩ := List.getElem?_of_mem hd
    obtain ⟨d₀, hd₀, hid, -, -, ⟨-, rfl, -⟩ | ⟨-, rfl⟩⟩ := before m n c hc hd
    · rw [hid]
      exact h.plain d₀ (List.mem_of_getElem? hd₀) hbusy
    · exact h.plain d₀ (List.mem_of_getElem? hd₀) hbusy'
  · intro k m d e hd he hlt hid
    obtain ⟨d₀, hd₀, hid₀, -, -, hcases⟩ := before k n c hc hd
    obtain ⟨e₀, he₀, hid₁, -⟩ := before m n c hc he
    have hdone := h.apart k m d₀ e₀ hd₀ he₀ hlt (by rw [← hid₀, hid, hid₁])
    rcases hcases with ⟨-, rfl, -⟩ | ⟨-, rfl⟩
    · exact absurd hbusy hdone
    · exact hdone
  · intro k m d e f g hd he hlt hcreate hcreate'
    obtain ⟨d₀, hd₀, hid₀, hchange₀, -⟩ := before k n c hc hd
    obtain ⟨e₀, he₀, hid₁, hchange₁, -⟩ := before m n c hc he
    rw [hid₀, hid₁]
    exact h.fresh k m d₀ e₀ f g hd₀ he₀ hlt (hchange₀ ▸ hcreate) (hchange₁ ▸ hcreate')
  · intro d hd g hg
    obtain ⟨m, hd⟩ := List.getElem?_of_mem hd
    obtain ⟨d₀, hd₀, hid, hchange, -⟩ := before m n c hc hd
    rw [hid]
    exact h.named d₀ (List.mem_of_getElem? hd₀) g (hchange ▸ hg)
  · intro d hd g hg
    obtain ⟨m, hd⟩ := List.getElem?_of_mem hd
    obtain ⟨d₀, hd₀, -, hchange, -, ⟨-, rfl, hawait⟩ | ⟨-, rfl⟩⟩ := before m n c hc hd
    · rw [hchange]
      exact ha g (hawait ▸ hg)
    · exact h.returned d₀ (List.mem_of_getElem? hd₀) g hg

end Orderly

/-- `loaded` is what was stored at first. -/
structure Inv (currentAtSign : PolicyAtsign) (loaded : Table String UserGroup) (s : Services ι) : Prop where
  orderly : Orderly currentAtSign s.calls
  behind : ∀ i, s.handled i ≤ s.sent.length
  /-- What an instance has comes to what the notifications say, by those it hasn't handled. -/
  comes : ∀ i id, ((s.groups i).writes (heard (s.sent.drop (s.handled i)))).get? id =
    (loaded.writes (heard s.sent)).get? id
  told : ∀ c ∈ s.calls, c.await = .rest → (loaded.writes (heard s.sent)).get? c.id = c.change.value
  put : ∀ c ∈ s.calls, c.await = .notify → s.stored.get? c.id = c.change.value
  /-- So does what is stored, but for what is yet to be told. -/
  stored : ∀ id, (∀ c ∈ s.calls, c.id = id → c.await ≠ .notify) →
    s.stored.get? id = (loaded.writes (heard s.sent)).get? id
  last : ∀ (m : ℕ) (c : Call ι), s.calls[m]? = some c → c.await ≠ .remote →
    ∃ n d, m ≤ n ∧ s.calls[n]? = some d ∧ d.id = c.id ∧ s.stored.get? c.id = d.change.value

namespace Inv
variable {loaded : Table String UserGroup} {s t : Services ι}

theorem start (loaded : Table String UserGroup) : Inv currentAtSign loaded (Services.start loaded : Services ι) where
  orderly := Orderly.nil
  behind := fun _ => Nat.le_refl _
  comes := fun _ _ => rfl
  told := fun _ hc => absurd hc List.not_mem_nil
  put := fun _ hc => absurd hc List.not_mem_nil
  stored := fun _ _ => rfl
  last := fun _ _ hc => by cases hc

theorem begin (h : Inv currentAtSign loaded s) {service : ι} {id : String} {change : Change} (hplain : Plain currentAtSign id) (hfree : s.Free id)
    (hfresh : ∀ g, change = .create g → ∀ c ∈ s.calls, ∀ f, c.change = .create f → c.id ≠ id)
    (hnamed : ∀ g, change.value = some g → g.id = some id) : Inv currentAtSign loaded (s.begin service id change) := by
  have hold {c : Call ι} (hc : c ∈ (s.begin service id change).calls) (hawait : c.await ≠ .remote) : c ∈ s.calls := by
    rcases List.mem_append.mp hc with hc | hc
    · exact hc
    · rw [List.mem_singleton.mp hc] at hawait
      exact absurd rfl hawait
  refine { h with orderly := h.orderly.begin hplain hfree hfresh hnamed, told := ?_, put := ?_, stored := ?_, last := ?_ }
  · intro c hc hawait
    exact h.told c (hold hc (by rw [hawait]; simp)) hawait
  · intro c hc hawait
    exact h.put c (hold hc (by rw [hawait]; simp)) hawait
  · intro id' hnone
    exact h.stored id' fun c hc => hnone c (List.mem_append_left _ hc)
  · intro m c hc hawait
    rcases getElem?_concat_cases hc with hc | ⟨-, rfl⟩
    · obtain ⟨n, d, hle, hd, hid, hstored⟩ := h.last m c hc hawait
      refine ⟨n, d, hle, ?_, hid, hstored⟩
      exact (List.getElem?_append_left (List.getElem?_eq_some_iff.mp hd).1).trans hd
    · exact absurd rfl hawait

variable {n : ℕ} {c : Call ι} (hc : s.calls[n]? = some c)
include hc

/-- As it goes on a call that has been stored keeps `last`, while nothing else is stored. -/
theorem last_advance (h : Inv currentAtSign loaded s) (hawait : c.await ≠ .remote) (a : Await) (m : ℕ) (d : Call ι)
    (hd : (s.calls.set n { c with await := a })[m]? = some d) (hd' : d.await ≠ .remote) :
    ∃ k e, m ≤ k ∧ (s.calls.set n { c with await := a })[k]? = some e ∧ e.id = d.id ∧
      s.stored.get? d.id = e.change.value := by
  obtain ⟨d₀, hd₀, hid, -, -, hcases⟩ := Orderly.before m n c hc hd
  have hremote : d₀.await ≠ .remote := by
    rcases hcases with ⟨-, rfl, -⟩ | ⟨-, rfl⟩
    · exact hawait
    · exact hd'
  obtain ⟨k, e, hle, he, hid', hstored⟩ := h.last m d₀ hd₀ hremote
  rw [hid]
  by_cases hk : k = n
  · subst hk
    obtain rfl := Option.some.inj (hc.symm.trans he)
    exact ⟨k, _, hle, List.getElem?_set_self (List.getElem?_eq_some_iff.mp hc).1, hid', hstored⟩
  · refine ⟨k, e, hle, ?_, hid', hstored⟩
    rw [List.getElem?_set_ne fun h => hk h.symm]
    exact he

/-- The calls that were and are at an await that the call isn't at now. -/
theorem of_advance {a : Await} {d : Call ι} (hd : d ∈ s.calls.set n { c with await := a }) (hne : d.await ≠ a) :
    ∃ m, m ≠ n ∧ s.calls[m]? = some d := by
  obtain ⟨m, hd⟩ := List.getElem?_of_mem hd
  obtain ⟨d₀, hd₀, -, -, -, ⟨-, -, hawait⟩ | ⟨hmn, rfl⟩⟩ := Orderly.before m n c hc hd
  · exact absurd hawait hne
  · exact ⟨m, hmn, hd₀⟩

theorem to_advance {a : Await} {d : Call ι} (hd : d ∈ s.calls) (hne : d.await ≠ c.await) :
    d ∈ s.calls.set n { c with await := a } := by
  obtain ⟨m, hd⟩ := List.getElem?_of_mem hd
  have hmn : n ≠ m := by
    rintro rfl
    obtain rfl := Option.some.inj (hc.symm.trans hd)
    exact hne rfl
  refine List.mem_of_getElem? (i := m) ?_
  rw [List.getElem?_set_ne hmn]
  exact hd

/-- Another call in progress is about another id. -/
theorem id_ne (h : Inv currentAtSign loaded s) (hbusy : c.InProgress) {m : ℕ} {d : Call ι} (hmn : m ≠ n) (hd : s.calls[m]? = some d)
    (hbusy' : d.InProgress) : d.id ≠ c.id :=
  fun hid => hmn (h.orderly.eq_of_inProgress hc hbusy hd hbusy' hid)

theorem resume_remote (h : Inv currentAtSign loaded s) (hawait : c.await = .remote) :
    Inv currentAtSign loaded
      { s with stored := s.stored.write c.id c.change.value, calls := s.calls.set n { c with await := .notify } } := by
  have hbusy : c.InProgress := fun _ => by rw [hawait]; simp
  have hself : { c with await := Await.notify } ∈ s.calls.set n { c with await := .notify } :=
    List.mem_of_getElem? (List.getElem?_set_self (List.getElem?_eq_some_iff.mp hc).1)
  refine { h with orderly := h.orderly.advance hc hbusy (fun _ h => by cases h), told := ?_, put := ?_, stored := ?_, last := ?_ }
  · intro d hd hrest
    obtain ⟨m, -, hd⟩ := of_advance hc hd (by rw [hrest]; simp)
    exact h.told d (List.mem_of_getElem? hd) hrest
  · intro d hd hnotify
    rw [Table.get?_write]
    obtain ⟨m, hd⟩ := List.getElem?_of_mem hd
    obtain ⟨d₀, hd₀, hid, hchange, -, ⟨-, rfl, -⟩ | ⟨hmn, rfl⟩⟩ := Orderly.before m n c hc hd
    · rw [hid, if_pos rfl, hchange]
    · rw [if_neg (id_ne hc h hbusy hmn hd₀ fun _ => by rw [hnotify]; simp)]
      exact h.put d₀ (List.mem_of_getElem? hd₀) hnotify
  · intro id hnone
    have hid : id ≠ c.id := fun hid => hnone _ hself hid.symm rfl
    rw [Table.get?_write, if_neg hid]
    refine h.stored id fun d hd hdid hnotify => ?_
    exact hnone d (to_advance hc hd (by rw [hnotify, hawait]; simp)) hdid hnotify
  · intro m d hd hremote
    rw [Table.get?_write]
    obtain ⟨d₀, hd₀, hid, -, -, hcases⟩ := Orderly.before m n c hc hd
    by_cases hdc : d.id = c.id
    · rw [if_pos hdc]
      exact ⟨n, _, h.orderly.le_of_inProgress hc hbusy hd₀ (hid ▸ hdc),
        List.getElem?_set_self (List.getElem?_eq_some_iff.mp hc).1, hdc.symm, rfl⟩
    · rw [if_neg hdc]
      obtain ⟨-, rfl, -⟩ | ⟨-, rfl⟩ := hcases
      · exact absurd hid hdc
      obtain ⟨k, e, hle, he, hide, hstored⟩ := h.last m d₀ hd₀ hremote
      refine ⟨k, e, hle, ?_, hide, hstored⟩
      rw [List.getElem?_set_ne, he]
      rintro rfl
      obtain rfl := Option.some.inj (hc.symm.trans he)
      exact hdc hide.symm

theorem resume_notify (h : Inv currentAtSign loaded s) (hawait : c.await = .notify) :
    Inv currentAtSign loaded
      { s with
        sent := s.sent ++ [notification currentAtSign c.id c.change.value]
        calls := s.calls.set n { c with await := .rest } } := by
  have hbusy : c.InProgress := fun _ => by rw [hawait]; simp
  have hheard (ns : List AtNotification) : heard (ns ++ [notification currentAtSign c.id c.change.value]) =
      heard ns ++ [(c.id, c.change.value)] := by
    rw [heard, List.filterMap_append, List.filterMap_cons, entry_notification
      (h.orderly.plain c (List.mem_of_getElem? hc) hbusy)]
    rfl
  refine ⟨h.orderly.advance hc hbusy (fun _ h => by cases h), ?_, ?_, ?_, ?_, ?_,
    last_advance hc h (by rw [hawait]; simp) _⟩
  · intro i
    rw [List.length_append]
    exact Nat.le_add_right_of_le (h.behind i)
  · intro i id
    have hdrop : (s.sent ++ [notification currentAtSign c.id c.change.value]).drop (s.handled i) =
        s.sent.drop (s.handled i) ++ [notification currentAtSign c.id c.change.value] :=
      List.drop_append_of_le_length (h.behind i)
    rw [hdrop, hheard, hheard, Table.writes_concat, Table.writes_concat, Table.get?_write, Table.get?_write, h.comes]
  · intro d hd hrest
    rw [hheard, Table.writes_concat, Table.get?_write]
    obtain ⟨m, hd⟩ := List.getElem?_of_mem hd
    obtain ⟨d₀, hd₀, hid, hchange, -, ⟨-, rfl, -⟩ | ⟨hmn, rfl⟩⟩ := Orderly.before m n c hc hd
    · rw [hid, if_pos rfl, hchange]
    · rw [if_neg (id_ne hc h hbusy hmn hd₀ fun _ => by rw [hrest]; simp)]
      exact h.told d₀ (List.mem_of_getElem? hd₀) hrest
  · intro d hd hnotify
    obtain ⟨m, -, hd⟩ := of_advance hc hd (by rw [hnotify]; simp)
    exact h.put d (List.mem_of_getElem? hd) hnotify
  · intro id hnone
    rw [hheard, Table.writes_concat, Table.get?_write]
    by_cases hid : id = c.id
    · rw [if_pos hid, hid]
      exact h.put c (List.mem_of_getElem? hc) hawait
    · rw [if_neg hid]
      refine h.stored id fun d hd hdid hnotify => ?_
      obtain ⟨m, hd⟩ := List.getElem?_of_mem hd
      by_cases hmn : m = n
      · subst hmn
        obtain rfl := Option.some.inj (hc.symm.trans hd)
        exact hid hdid.symm
      · refine hnone d (List.mem_of_getElem? (i := m) ?_) hdid hnotify
        rw [List.getElem?_set_ne fun h => hmn h.symm]
        exact hd

theorem resume_rest [DecidableEq ι] (h : Inv currentAtSign loaded s) (hawait : c.await = .rest) (returned : Returned)
    (hreturned : ∀ g, returned = .group g → c.change = .create g) :
    Inv currentAtSign loaded
      { s with
        groups := Function.update s.groups c.service ((s.groups c.service).write c.id c.change.value)
        calls := s.calls.set n { c with await := .completed returned } } := by
  have hbusy : c.InProgress := fun _ => by rw [hawait]; simp
  refine { h with
    orderly := h.orderly.advance hc hbusy (fun g hg => hreturned g (by injection hg)), comes := ?_, told := ?_, put := ?_,
    stored := ?_, last := last_advance hc h (by rw [hawait]; simp) _ }
  · intro i id
    by_cases hi : i = c.service
    · subst hi
      dsimp only
      rw [Function.update_self]
      exact Table.get?_writes_write (h.comes c.service) (h.told c (List.mem_of_getElem? hc) hawait) id
    · dsimp only
      rw [Function.update_of_ne hi]
      exact h.comes i id
  · intro d hd hrest
    obtain ⟨m, -, hd⟩ := of_advance hc hd (by rw [hrest]; simp)
    exact h.told d (List.mem_of_getElem? hd) hrest
  · intro d hd hnotify
    obtain ⟨m, -, hd⟩ := of_advance hc hd (by rw [hnotify]; simp)
    exact h.put d (List.mem_of_getElem? hd) hnotify
  · intro id hnone
    refine h.stored id fun d hd hdid hnotify => ?_
    exact hnone d (to_advance hc hd (by rw [hnotify, hawait]; simp)) hdid hnotify

omit hc

theorem resume [DecidableEq ι] (h : Inv currentAtSign loaded s) (hstep : s.resume currentAtSign n = some t) : Inv currentAtSign loaded t := by
  obtain ⟨c, hc, hstep⟩ := Option.bind_eq_some_iff.mp hstep
  cases hawait : c.await with
  | remote =>
    simp only [hawait, Option.some.injEq] at hstep
    rw [← hstep]
    exact h.resume_remote hc hawait
  | notify =>
    simp only [hawait, Option.some.injEq] at hstep
    rw [← hstep]
    exact h.resume_notify hc hawait
  | rest =>
    simp only [hawait, Option.some.injEq] at hstep
    rw [← hstep]
    refine h.resume_rest hc hawait _ fun g hg => ?_
    unfold Call.returned at hg
    split at hg
    · rename_i hchange
      rw [hchange]
      injection hg with hg
      rw [hg]
    · cases hg
    · cases hg
  | completed returned => simp only [hawait, reduceCtorEq] at hstep

theorem handle [DecidableEq ι] (h : Inv currentAtSign loaded s) {i : ι} (hstep : s.handle i = some t) : Inv currentAtSign loaded t := by
  obtain ⟨x, hx, rfl⟩ := Option.map_eq_some_iff.mp hstep
  have hlt := (List.getElem?_eq_some_iff.mp hx).1
  refine { h with behind := ?_, comes := ?_ }
  · intro j
    dsimp only
    by_cases hj : j = i
    · subst hj
      rw [Function.update_self]
      exact hlt
    · rw [Function.update_of_ne hj]
      exact h.behind j
  · intro j id
    dsimp only
    by_cases hj : j = i
    · subst hj
      have hdrop : heard (s.sent.drop (s.handled j)) = x.entry.toList ++ heard (s.sent.drop (s.handled j + 1)) := by
        rw [List.drop_eq_getElem_cons hlt, (List.getElem?_eq_some_iff.mp hx).2, heard, List.filterMap_cons]
        cases x.entry <;> rfl
      rw [Function.update_self, Function.update_self, ← Table.writes_append, ← hdrop]
      exact h.comes j id
    · rw [Function.update_of_ne hj, Function.update_of_ne hj]
      exact h.comes j id

end Inv

theorem Inv.same_of_settled {loaded : Table String UserGroup} {s : Services ι} (h : Inv currentAtSign loaded s) (hsettled : s.Settled)
    (i : ι) (id : String) : (s.groups i).get? id = s.stored.get? id := by
  have hnone : s.sent.drop (s.handled i) = [] := List.drop_eq_nil_of_le (hsettled.handled i)
  have hcomes := h.comes i id
  rw [hnone] at hcomes
  rw [h.stored id fun c hc _ hnotify => hsettled.calls c hc fun _ => by rw [hnotify]; simp, ← hcomes]
  rfl

/-- A group that was created and not deleted by a later call is stored. -/
theorem Inv.held {loaded : Table String UserGroup} {s : Services ι} (h : Inv currentAtSign loaded s) {m : ℕ} {c : Call ι} {g : UserGroup}
    (hc : s.calls[m]? = some c) (hcreate : c.change = .create g) (hawait : c.await ≠ .remote)
    (hkept : ∀ n d, m < n → s.calls[n]? = some d → d.id = c.id → d.change ≠ .delete) :
    ∃ n d, m ≤ n ∧ s.calls[n]? = some d ∧ d.id = c.id ∧ d.change.value.isSome ∧ s.stored.get? c.id = d.change.value := by
  obtain ⟨n, d, hle, hd, hid, hstored⟩ := h.last m c hc hawait
  refine ⟨n, d, hle, hd, hid, ?_, hstored⟩
  rcases Nat.eq_or_lt_of_le hle with rfl | hlt
  · obtain rfl := Option.some.inj (hc.symm.trans hd)
    rw [hcreate]
    rfl
  · have hchange := hkept n d hlt hd hid
    cases hvalue : d.change with
    | create g => rfl
    | update g => rfl
    | delete => exact absurd hvalue hchange

theorem le_maxGroupId {groups : Table String UserGroup} {i gid : ℤ} {g : UserGroup} {id : String}
    (h : maxGroupId groups = some i) (hg : g ∈ groups.values) (hid : g.id = some id) (hgid : intParse id = some gid) :
    gid ≤ i := by
  have hfold (gs : List UserGroup) (m i : ℤ)
      (h : gs.foldlM (fun i g => (g.id.bind intParse).map fun gid => if gid > i then gid else i) m = some i) :
      m ≤ i ∧ (g ∈ gs → gid ≤ i) := by
    induction gs generalizing m with
    | nil =>
      obtain rfl := Option.some.inj h
      exact ⟨le_rfl, fun hg => absurd hg List.not_mem_nil⟩
    | cons f gs ih =>
      rw [List.foldlM_cons] at h
      obtain ⟨m', hm', h⟩ := Option.bind_eq_some_iff.mp h
      obtain ⟨fid, hfid, rfl⟩ := Option.map_eq_some_iff.mp hm'
      obtain ⟨hle, hmem⟩ := ih _ h
      refine ⟨by split at hle <;> omega, fun hg => ?_⟩
      rcases List.mem_cons.mp hg with rfl | hg
      · rw [hid, Option.bind_some, hgid] at hfid
        obtain rfl := Option.some.inj hfid
        split at hle <;> omega
      · exact hmem hg
  exact (hfold groups.values 0 i h).2 hg

/-- Once all is settled an instance is up to date, unless the group of the highest id a create took was deleted since
or the ids are used up. -/
theorem Inv.upToDate {loaded : Table String UserGroup} {s : Services ι} (h : Inv currentAtSign loaded s) (hsettled : s.Settled)
    {service : ι} (hmax : ∀ i, maxGroupId (s.groups service) = some i → i < intMax)
    (hhigh : ∀ c ∈ s.calls, (∃ g, c.change = .create g) → ∀ gid, intParse c.id = some gid →
      ∃ (m : ℕ) (d : Call ι), s.calls[m]? = some d ∧ (∃ g, d.change = .create g) ∧
        (∀ n e, m < n → s.calls[n]? = some e → e.id = d.id → e.change ≠ .delete) ∧
          ∃ did, intParse d.id = some did ∧ gid ≤ did) : s.UpToDate service := by
  intro i hi
  refine ⟨hmax i hi, fun c hc hbusy gid hgid => ?_⟩
  obtain ⟨m, d, hd, ⟨g, hcreate⟩, hkept, did, hdid, hle⟩ :=
    hhigh c hc (hbusy.resolve_left (hsettled.calls c hc)) gid hgid
  have hremote : d.await ≠ .remote := by
    intro hawait
    exact hsettled.calls d (List.mem_of_getElem? hd) fun _ => by rw [hawait]; simp
  obtain ⟨n, e, -, he, hid, hsome, hstored⟩ := h.held hd hcreate hremote hkept
  obtain ⟨f, hf⟩ := Option.isSome_iff_exists.mp hsome
  have hheld : (s.groups service).get? d.id = some f := by
    rw [h.same_of_settled hsettled, hstored, hf]
  have hmem : f ∈ (s.groups service).values :=
    List.mem_map_of_mem (f := Prod.snd) (Table.mem_entries_iff.mpr hheld)
  have hnamed := h.orderly.named e (List.mem_of_getElem? he) f hf
  exact hle.trans (le_maxGroupId hi hmem hnamed (hid ▸ hdid))

theorem Inv.kept {loaded : Table String UserGroup} {s : Services ι} (h : Inv currentAtSign loaded s) : s.Kept := by
  have hcreate {m : ℕ} {c : Call ι} {g : UserGroup} (hc : s.calls[m]? = some c) (hawait : c.await = .completed (.group g)) :
      c.change = .create g ∧ g.id = some c.id := by
    have hchange := h.orderly.returned c (List.mem_of_getElem? hc) g hawait
    exact ⟨hchange, h.orderly.named c (List.mem_of_getElem? hc) g (by rw [hchange]; rfl)⟩
  refine ⟨?_, fun hsettled => h.same_of_settled hsettled, ?_⟩
  · intro m n c d g f hc hd hne hc' hd'
    obtain ⟨hcg, hgid⟩ := hcreate hc hc'
    obtain ⟨hdf, hfid⟩ := hcreate hd hd'
    rw [hgid, hfid, ne_eq, Option.some.injEq]
    rcases Nat.lt_or_gt_of_ne hne with hlt | hgt
    · exact h.orderly.fresh m n c d g f hc hd hlt hcg hdf
    · exact fun heq => h.orderly.fresh n m d c f g hd hc hgt hdf hcg heq.symm
  · intro _ m c g hc hawait hkept
    obtain ⟨hchange, hgid⟩ := hcreate hc hawait
    exact ⟨hgid, h.held hc hchange (by rw [hawait]; simp) hkept⟩

variable [DecidableEq ι]

theorem Inv.step {loaded : Table String UserGroup} {s t : Services ι} {e : Event ι} (h : Inv currentAtSign loaded s) (hallowed : Allowed currentAtSign s e)
    (hnumbers : ∀ n : ℕ, KeptByAtKey currentAtSign (toString n))
    (hstep : (groupReplicas currentAtSign).step s e = some t) : Inv currentAtSign loaded t := by
  cases e with
  | createUserGroup service group =>
    obtain rfl := Option.some.inj hstep
    unfold Services.createUserGroup
    split
    · rename_i id hgroup hnext
      obtain ⟨hplain, hother⟩ := (hallowed hgroup).next hnext hnumbers
      refine h.begin hplain ?_ ?_ ?_
      · exact fun c hc hid hbusy => hother c hc (.inl hbusy) hid
      · exact fun _ _ c hc f hf => hother c hc (.inr ⟨f, hf⟩)
      · intro g hg
        rw [← Option.some.inj hg]
    · exact h
  | updateUserGroup service group =>
    obtain rfl := Option.some.inj hstep
    unfold Services.updateUserGroup
    split
    · rename_i id hid
      obtain ⟨hplain, hfree⟩ := hallowed id hid
      refine h.begin hplain hfree (fun g hg => by cases hg) fun g hg => ?_
      rw [← Option.some.inj hg]
      exact hid
    · exact h
  | deleteUserGroup service id =>
    obtain rfl := Option.some.inj hstep
    exact h.begin hallowed.1 hallowed.2 (fun g hg => by cases hg) fun g hg => by cases hg
  | resume n => exact h.resume hstep
  | handle service => exact h.handle hstep

/-- Where every call is allowed, no group is lost, whatever the instances and however the calls and the
notifications come between each other. -/
theorem kept_of_allowed (currentAtSign : PolicyAtsign) (hnumbers : ∀ n : ℕ, KeptByAtKey currentAtSign (toString n))
    {loaded : Table String UserGroup} {es : List (Event ι)} {t : Services ι}
    (hallowed : (groupReplicas currentAtSign).Meets (Allowed currentAtSign) (Services.start loaded) es)
    (hrun : (groupReplicas currentAtSign).run (Services.start loaded) es = some t) : t.Kept :=
  ((groupReplicas currentAtSign).invariant_of_meets (I := Inv currentAtSign loaded) (fun _ _ _ hi hg hs => hi.step hg hnumbers hs)
    (Inv.start loaded) hallowed hrun).kept

def policyAtsign : PolicyAtsign := ⟨"@policy", by decide, lowerAscii⟩

theorem keptByAtKey_number (n : ℕ) : KeptByAtKey policyAtsign (toString n) := by
  have hkey : ∀ c ∈ (groupKey policyAtsign (toString n)).toList, c.isUpper = false := by
    intro c hc
    rw [groupKey, String.append_assoc, String.toList_append] at hc
    rcases List.mem_append.mp hc with hc | hc
    · obtain ⟨hlow, hhigh⟩ := digit_bounds (isDigit_of_mem_toString n c hc)
      refine decide_eq_false fun hupper => ?_
      have hletter : 65 ≤ c.toNat := UInt32.le_iff_toNat_le.mp hupper.1
      omega
    · have hall : (".groups.policy.sshnp" ++ policyAtsign.text).toList.all (!·.isUpper) = true := by decide
      simpa using List.all_eq_true.mp hall c hc
  have hgroup := lowerAscii_eq_self hkey
  refine ⟨hgroup, lowerAscii_eq_self fun c hc => ?_⟩
  rw [String.toList_append] at hc
  rcases List.mem_append.mp hc with hc | hc
  · have hall : (policyAtsign.text ++ ":").toList.all (!·.isUpper) = true := by decide
    simpa using List.all_eq_true.mp hall c hc
  · exact hkey c hc

def newGroup (name : String) : UserGroup :=
  { userAtSigns := ["@bob"], daemonAtSigns := [], devices := [], deviceGroups := [], id := none, name, description := "" }

/-- Two instances create one after the other. -/
def oneByOne : List (Event Bool) :=
  [.createUserGroup true (newGroup "a"), .resume 0, .resume 0, .resume 0, .handle false,
    .createUserGroup false (newGroup "b"), .resume 1, .handle true, .resume 1, .resume 1, .handle false, .handle true]

/-- One instance begins to create before its other create has gone on. -/
def overlapping : List (Event Unit) :=
  [.createUserGroup () (newGroup "a"), .createUserGroup () (newGroup "b"), .resume 0, .resume 0, .resume 0, .resume 1,
    .resume 1, .resume 1, .handle (), .handle ()]

theorem kept_of_allowed_oneByOne : ∃ t, (groupReplicas policyAtsign).run (Services.start .empty) oneByOne = some t ∧
    t.stored.keys = ["1", "2"] ∧ t.Kept := by
  have hmeets : (groupReplicas policyAtsign).Meets (Allowed policyAtsign) (Services.start .empty) oneByOne := by
    apply Machine.meets_cons _ ?_ rfl
    · apply Machine.meets_cons _ trivial rfl
      apply Machine.meets_cons _ trivial rfl
      apply Machine.meets_cons _ trivial rfl
      apply Machine.meets_cons _ trivial rfl
      apply Machine.meets_cons _ ?_ rfl
      · apply Machine.meets_cons _ trivial rfl
        apply Machine.meets_cons _ trivial rfl
        apply Machine.meets_cons _ trivial rfl
        apply Machine.meets_cons _ trivial rfl
        apply Machine.meets_cons _ trivial rfl
        exact Machine.meets_cons _ trivial rfl trivial
      · intro _ i hi
        obtain rfl : 1 = i := Option.some.inj ((by decide +kernel : some 1 = maxGroupId _).trans hi)
        refine ⟨by decide, fun c hc _ gid hgid => ?_⟩
        obtain rfl := List.mem_singleton.mp hc
        obtain rfl : 1 = gid := Option.some.inj ((by decide +kernel : some 1 = intParse _).trans hgid)
        exact le_rfl
    · intro _ i hi
      obtain rfl : 0 = i := Option.some.inj hi
      exact ⟨by decide, fun c hc => absurd hc List.not_mem_nil⟩
  obtain ⟨t, ht⟩ : ∃ t, (groupReplicas policyAtsign).run (Services.start .empty) oneByOne = some t := ⟨_, rfl⟩
  refine ⟨t, ht, ?_, kept_of_allowed policyAtsign keptByAtKey_number hmeets ht⟩
  obtain rfl := Option.some.inj ht
  decide +kernel

/-- Both creates take the id 1, and the first one's group is nowhere. -/
theorem overlapping_lost : ∃ t, (groupReplicas policyAtsign).run (Services.start .empty) overlapping = some t ∧
    t.stored.values.map UserGroup.name = ["b"] ∧ ¬t.Kept := by
  obtain ⟨t, ht⟩ : ∃ t, (groupReplicas policyAtsign).run (Services.start .empty) overlapping = some t := ⟨_, rfl⟩
  refine ⟨t, ht, ?_, fun h => ?_⟩
  · obtain rfl := Option.some.inj ht
    decide +kernel
  · obtain rfl := Option.some.inj ht
    exact h.distinct 0 1 _ _ _ _ rfl rfl (by decide) rfl rfl (by decide +kernel)

end NoPorts.GroupReplicas
