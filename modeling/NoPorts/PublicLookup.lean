import Mathlib.Logic.Function.Basic
import NoPorts.Lib.Machine
import NoPorts.Lib.Semaphore
import NoPorts.Lib.Text

/-! The lookups of one `DirectPublicLookup`: how many ask an atServer at once, and in what order. -/
namespace NoPorts.PublicLookup
open Lib

/-- `_Slots`: its completers are the lookups that wait for them. -/
abbrev Slots := Semaphore ℕ

inductive LookupError where
  | argumentError (value name message : String)
  /-- What `_get` threw. -/
  | get (error : String)
  deriving DecidableEq, Repr

/-- A lookup past its arguments: `slots` is the object it found for its atSign. -/
structure Lookup where
  atSign : String
  key : String
  slots : ℕ
  deriving DecidableEq, Repr

/-- What a lookup awaits. -/
inductive Await where
  /-- Its turn for a slot of its atSign. -/
  | slots
  /-- `slots.acquire()`, which has its slot. -/
  | slotsTaken
  /-- Its turn for a slot of all. -/
  | all
  /-- `_all.acquire()`, which has its slot. -/
  | allTaken
  | get
  deriving DecidableEq, Repr

inductive Task where
  | call (uri : String)
  | running (l : Lookup) (a : Await)
  | finished (result : Except LookupError (Option String))

/-- The fields of a `DirectPublicLookup`, the `_Slots` made so far, and its lookups. -/
structure DirectPublicLookup where
  made : ℕ
  slots : ℕ → Slots
  byAtSign : String → Option ℕ
  all : Slots
  tasks : List Task

/-- The atSign and the key of `public:<key>@<atSign>`. -/
def recordOf (uri : String) : Option (String × String) :=
  (stripPrefix? "public:".toList uri.toList).bind fun rest =>
    if '@' ∈ rest then
      some (String.ofList ('@' :: (rest.reverse.takeWhile (· ≠ '@')).reverse),
        String.ofList (rest.reverse.dropWhile (· ≠ '@')).tail.reverse)
    else none

/-- A completed completer lets its lookup go on. -/
def Task.granted : Task → Task
  | .running l .slots => .running l .slotsTaken
  | .running l .all => .running l .allTaken
  | task => task

namespace DirectPublicLookup
variable (maxPerAtSign maxConcurrent : ℕ) (s : DirectPublicLookup)

def setTask (i : ℕ) (task : Task) : DirectPublicLookup := { s with tasks := s.tasks.set i task }

/-- `_byAtSign.putIfAbsent` -/
def putIfAbsent (atSign : String) : ℕ × DirectPublicLookup :=
  match s.byAtSign atSign with
  | some o => (o, s)
  | none =>
    (s.made, { s with
      made := s.made + 1
      slots := Function.update s.slots s.made .unused
      byAtSign := Function.update s.byAtSign atSign (some s.made) })

def acquireSlots (i : ℕ) (l : Lookup) : DirectPublicLookup :=
  let (taken, slots) := (s.slots l.slots).acquire maxPerAtSign i
  { s with
    slots := Function.update s.slots l.slots slots
    tasks := s.tasks.set i (.running l (if taken then .slotsTaken else .slots)) }

def acquireAll (i : ℕ) (l : Lookup) : DirectPublicLookup :=
  let (taken, all) := s.all.acquire maxConcurrent i
  { s with
    all := all
    tasks := s.tasks.set i (.running l (if taken then .allTaken else .all)) }

/-- The inner `finally`, behind which the lookup has the slot of its atSign alone. -/
def releaseAll (i : ℕ) (l : Lookup) : DirectPublicLookup :=
  let (next, all) := s.all.release
  { s with
    all := all
    tasks := (Semaphore.wake Task.granted s.tasks next).set i (.running l .slotsTaken) }

/-- The outer `finally`. -/
def releaseSlots (i : ℕ) (l : Lookup) (result : Except LookupError (Option String)) :
    DirectPublicLookup :=
  let (next, slots) := (s.slots l.slots).release
  { s with
    slots := Function.update s.slots l.slots slots
    byAtSign := if slots.idle then Function.update s.byAtSign l.atSign none else s.byAtSign
    tasks := (Semaphore.wake Task.granted s.tasks next).set i (.finished result) }

/-- `lookupDirect`, to its first await. -/
def lookupDirect (i : ℕ) (uri : String) : DirectPublicLookup :=
  match recordOf uri with
  | none =>
    s.setTask i (.finished (.error (.argumentError uri "uri" "is not public:<key>@<atSign>")))
  | some (atSign, key) =>
    let (o, s) := s.putIfAbsent atSign
    s.acquireSlots maxPerAtSign i ⟨atSign, key, o⟩

/-- Lookup `i` goes on to its next await; `outcome` is what its `_get` comes to. -/
def resume (e : ℕ × Except String (Option String)) : Option DirectPublicLookup :=
  match s.tasks[e.1]? with
  | some (.call uri) => some (s.lookupDirect maxPerAtSign e.1 uri)
  | some (.running l .slotsTaken) => some (s.acquireAll maxConcurrent e.1 l)
  | some (.running l .allTaken) => some (s.setTask e.1 (.running l .get))
  | some (.running l .get) =>
    some ((s.releaseAll e.1 l).releaseSlots e.1 l (e.2.mapError .get))
  | _ => none

def lookups : Machine DirectPublicLookup (ℕ × Except String (Option String)) :=
  ⟨resume maxPerAtSign maxConcurrent⟩

/-- Any lookups at all, none of them begun yet. -/
def before (uris : List String) : DirectPublicLookup :=
  ⟨0, fun _ => .unused, fun _ => none, .unused, uris.map .call⟩

end DirectPublicLookup

/-! ### What is claimed of a run -/

namespace Task

def isRunning : Task → Bool
  | running _ _ => true
  | _ => false

def isGet : Task → Bool
  | running _ .get => true
  | _ => false

/-- It asks the atServer of an atSign, in any spelling. -/
def getsFrom (fold : String → String) (atSign : String) : Task → Bool
  | running l .get => fold l.atSign == fold atSign
  | _ => false

def holdsAll : Task → Bool
  | running _ .allTaken | running _ .get => true
  | _ => false

/-- It has a slot of an atSign. -/
def holdsSlotOf (atSign : String) : Task → Bool
  | running l a => l.atSign == atSign && a != .slots
  | _ => false

/-- Its wait for a slot of its atSign is over. -/
def served : Task → Bool
  | call _ | running _ .slots => false
  | _ => true

end Task

namespace DirectPublicLookup
variable (fold : String → String) (maxPerAtSign maxConcurrent : ℕ)

/-- The slots of an atSign that are held. -/
def heldOf (s : DirectPublicLookup) (atSign : String) : ℕ :=
  match s.byAtSign atSign with
  | some o => (s.slots o).held
  | none => 0

/-- What a run has kept when it gets to `t`; `fold` maps the spellings of an atSign to one. -/
structure Limited (uris : List String) (es : List (ℕ × Except String (Option String)))
    (t : DirectPublicLookup) : Prop where
  perAtSign : ∀ atSign, t.tasks.countP (Task.getsFrom fold atSign) ≤ maxPerAtSign
  inAll : t.tasks.countP Task.isGet ≤ maxConcurrent
  turns : ∀ pre post u, es = pre ++ post →
    (lookups maxPerAtSign maxConcurrent).run (before uris) pre = some u →
      ∀ (i j : ℕ) l uri atSign key, u.tasks[i]? = some (.running l .slots) →
        u.tasks[j]? = some (.call uri) → recordOf uri = some (atSign, key) →
          fold l.atSign = fold atSign → (t.tasks[j]?).any Task.served = true →
            (t.tasks[i]?).any Task.served = true
  givenBack : t.all.held = t.tasks.countP Task.holdsAll ∧
    ∀ atSign, t.heldOf atSign = t.tasks.countP (Task.holdsSlotOf atSign)
  entries : (∀ task ∈ t.tasks, task.isRunning = false) → ∀ atSign, t.byAtSign atSign = none

/-- A lookup begins only while all that are running spell its atSign as it does. -/
def SpelledAlike (s : DirectPublicLookup) (e : ℕ × Except String (Option String)) : Prop :=
  ∀ uri atSign key, s.tasks[e.1]? = some (.call uri) → recordOf uri = some (atSign, key) →
    ∀ l a, .running l a ∈ s.tasks → fold l.atSign = fold atSign → l.atSign = atSign

/-! ### One step -/

end DirectPublicLookup

/-- It has a slot of the object. -/
def Task.holdsSlot (o : ℕ) : Task → Bool
  | .running l a => l.slots == o && a != .slots
  | _ => false

def Task.waitsSlot (o : ℕ) : Task → Bool
  | .running l .slots => l.slots == o
  | _ => false

def Task.waitsAll : Task → Bool
  | .running _ .all => true
  | _ => false

namespace DirectPublicLookup

/-- The lookups running, the slots they have and wait for, and the entries of their atSigns. -/
structure Kept (maxPerAtSign maxConcurrent : ℕ) (s : DirectPublicLookup) : Prop where
  all : s.all.Tracks maxConcurrent Task.holdsAll Task.waitsAll s.tasks
  slots : ∀ o, (s.slots o).Tracks maxPerAtSign (Task.holdsSlot o) (Task.waitsSlot o) s.tasks
  named : ∀ l a, .running l a ∈ s.tasks → s.byAtSign l.atSign = some l.slots
  made : ∀ atSign o, s.byAtSign atSign = some o → o < s.made
  one : ∀ atSign other o, s.byAtSign atSign = some o → s.byAtSign other = some o → atSign = other
  entries : ∀ atSign o, s.byAtSign atSign = some o → (s.slots o).idle = false

variable {maxPerAtSign maxConcurrent : ℕ} {s : DirectPublicLookup} {i : ℕ} {l : Lookup}

/-! Where a task is, by what it counts as. -/

theorem eq_of_waitsSlot {o : ℕ} {task : Task} (h : task.waitsSlot o = true) :
    ∃ l, task = .running l .slots ∧ l.slots = o := by
  rcases task with uri | ⟨l, _ | _ | _ | _ | _⟩ | result <;> try cases h
  exact ⟨l, rfl, beq_iff_eq.mp h⟩

theorem eq_of_waitsAll {task : Task} (h : task.waitsAll = true) : ∃ l, task = .running l .all := by
  rcases task with uri | ⟨l, _ | _ | _ | _ | _⟩ | result <;> cases h
  exact ⟨l, rfl⟩

theorem eq_of_getsFrom {fold : String → String} {atSign : String} {task : Task}
    (h : task.getsFrom fold atSign = true) :
    ∃ l, task = .running l .get ∧ fold l.atSign = fold atSign := by
  rcases task with uri | ⟨l, _ | _ | _ | _ | _⟩ | result <;> try cases h
  exact ⟨l, rfl, beq_iff_eq.mp h⟩

/-- A task that is woken stays as it is, or had waited. -/
theorem granted_cases (task : Task) : task.granted = task ∨
    ∃ l, task = .running l .slots ∧ task.granted = .running l .slotsTaken ∨
      task = .running l .all ∧ task.granted = .running l .allTaken := by
  rcases task with uri | ⟨l, _ | _ | _ | _ | _⟩ | result
  · exact Or.inl rfl
  · exact Or.inr ⟨l, Or.inl ⟨rfl, rfl⟩⟩
  · exact Or.inl rfl
  · exact Or.inr ⟨l, Or.inr ⟨rfl, rfl⟩⟩
  all_goals exact Or.inl rfl

theorem putIfAbsent_tasks (atSign : String) : (s.putIfAbsent atSign).2.tasks = s.tasks := by
  unfold putIfAbsent
  split <;> rfl

theorem acquireSlots_tasks : (s.acquireSlots maxPerAtSign i l).tasks = s.tasks.set i
    (.running l (if ((s.slots l.slots).acquire maxPerAtSign i).1 then .slotsTaken else .slots)) :=
  rfl

theorem acquireSlots_own : (s.acquireSlots maxPerAtSign i l).slots l.slots =
    ((s.slots l.slots).acquire maxPerAtSign i).2 :=
  Function.update_self _ _ _

theorem acquireSlots_other {o : ℕ} (ho : o ≠ l.slots) :
    (s.acquireSlots maxPerAtSign i l).slots o = s.slots o :=
  Function.update_of_ne ho _ _

theorem releaseSlots_own {result : Except LookupError (Option String)} :
    (s.releaseSlots i l result).slots l.slots = (s.slots l.slots).release.2 :=
  Function.update_self _ _ _

theorem releaseSlots_other {result : Except LookupError (Option String)} {o : ℕ} (ho : o ≠ l.slots) :
    (s.releaseSlots i l result).slots o = s.slots o :=
  Function.update_of_ne ho _ _

theorem lookupDirect_none {uri : String} (h : recordOf uri = none) :
    s.lookupDirect maxPerAtSign i uri =
      s.setTask i (.finished (.error (.argumentError uri "uri" "is not public:<key>@<atSign>"))) := by
  rw [lookupDirect, h]

theorem lookupDirect_some {uri : String} {record : String × String} (h : recordOf uri = some record) :
    s.lookupDirect maxPerAtSign i uri = (s.putIfAbsent record.1).2.acquireSlots maxPerAtSign i
      ⟨record.1, record.2, (s.putIfAbsent record.1).1⟩ := by
  rw [lookupDirect, h]

theorem mem_wake {tasks : List Task} {next : Option ℕ} {task : Task}
    (h : task ∈ Semaphore.wake Task.granted tasks next) :
    task ∈ tasks ∨ ∃ before ∈ tasks, task = before.granted := by
  cases next with
  | none => exact Or.inl h
  | some j =>
    obtain ⟨k, hk⟩ := List.mem_iff_getElem?.mp h
    rw [Semaphore.wake, List.getElem?_modify] at hk
    obtain ⟨before, hbefore, heq⟩ := Option.map_eq_some_iff.mp hk
    have hmem := List.mem_of_getElem? hbefore
    split at heq
    · exact Or.inr ⟨before, hmem, heq.symm⟩
    · exact Or.inl (heq ▸ hmem)

theorem running_of_wake {tasks : List Task} {next : Option ℕ} {a : Await}
    (h : .running l a ∈ Semaphore.wake Task.granted tasks next) : ∃ a', .running l a' ∈ tasks := by
  rcases mem_wake h with hmem | ⟨task, hmem, heq⟩
  · exact ⟨a, hmem⟩
  · rcases granted_cases task with hsame | ⟨l', ⟨rfl, hwoken⟩ | ⟨rfl, hwoken⟩⟩
    · rw [hsame] at heq
      exact ⟨a, heq ▸ hmem⟩
    · cases heq.trans hwoken
      exact ⟨_, hmem⟩
    · cases heq.trans hwoken
      exact ⟨_, hmem⟩

/-- An object that a running lookup has found is in use. -/
theorem idle_of_running {o : ℕ} {slots : Slots} {tasks : List Task}
    (h : slots.Tracks maxPerAtSign (Task.holdsSlot o) (Task.waitsSlot o) tasks) {a : Await}
    (hmem : .running l a ∈ tasks) (ho : l.slots = o) : slots.idle = false := by
  refine Bool.eq_false_iff.mpr fun hidle => ?_
  obtain ⟨hnone, hwaits⟩ := (Semaphore.Sound.idle_iff h).mp hidle
  obtain ⟨i, hi⟩ := List.mem_iff_getElem?.mp hmem
  by_cases ha : a = .slots
  · subst ha
    refine hwaits i ?_
    rw [hi, Option.any_some, Task.waitsSlot, ho, beq_self_eq_true]
  · have hholds := List.countP_eq_zero.mp hnone _ hmem
    simp [Task.holdsSlot, ho, ha] at hholds

/-- The lookups running are those of before, but for one that changes its place. -/
theorem named_set {byAtSign : String → Option ℕ} {tasks : List Task} {task : Task}
    (h : ∀ l a, .running l a ∈ tasks → byAtSign l.atSign = some l.slots)
    (htask : ∀ l a, task = .running l a → byAtSign l.atSign = some l.slots) :
    ∀ l a, .running l a ∈ tasks.set i task → byAtSign l.atSign = some l.slots := by
  intro l a hmem
  rcases List.mem_or_eq_of_mem_set hmem with hmem | heq
  · exact h l a hmem
  · exact htask l a heq.symm

theorem Kept.acquireAll (h : s.Kept maxPerAtSign maxConcurrent)
    (hi : s.tasks[i]? = some (.running l .slotsTaken)) :
    (s.acquireAll maxConcurrent i l).Kept maxPerAtSign maxConcurrent := by
  have hl := h.named l _ (List.mem_of_getElem? hi)
  have hplace (taken : Bool) (o : ℕ) :
      Task.holdsSlot o (.running l (if taken then .allTaken else .all)) =
        Task.holdsSlot o (.running l .slotsTaken) ∧
      Task.waitsSlot o (.running l (if taken then .allTaken else .all)) = false := by
    cases taken <;> exact ⟨rfl, rfl⟩
  have htaken (taken : Bool) : Task.holdsAll (.running l (if taken then .allTaken else .all)) = taken ∧
      Task.waitsAll (.running l (if taken then .allTaken else .all)) = !taken := by
    cases taken <;> exact ⟨rfl, rfl⟩
  refine ⟨h.all.acquire hi rfl rfl (htaken _).1 (htaken _).2,
    fun o => (h.slots o).set hi (hplace _ o).1 (hplace _ o).2, named_set h.named ?_, h.made, h.one,
    h.entries⟩
  rintro l' a ⟨⟩
  exact hl

theorem Kept.get (h : s.Kept maxPerAtSign maxConcurrent)
    (hi : s.tasks[i]? = some (.running l .allTaken)) :
    (s.setTask i (.running l .get)).Kept maxPerAtSign maxConcurrent := by
  have hl := h.named l _ (List.mem_of_getElem? hi)
  refine ⟨h.all.set hi rfl rfl, fun o => (h.slots o).set hi rfl rfl, named_set h.named ?_, h.made,
    h.one, h.entries⟩
  rintro l' a ⟨⟩
  exact hl

/-- A semaphore that the woken task does not wait for. -/
theorem tracks_wake {max : ℕ} {holds waits : Task → Bool} {slots : Slots} {tasks : List Task}
    (h : slots.Tracks max holds waits tasks) {next : Option ℕ}
    (hnext : ∀ j ∈ next, ∃ task, tasks[j]? = some task ∧ holds task.granted = holds task ∧
      waits task.granted = waits task) :
    slots.Tracks max holds waits (Semaphore.wake Task.granted tasks next) := by
  cases next with
  | none => exact h
  | some j =>
    obtain ⟨task, htask, hholds, hwaits⟩ := hnext j rfl
    rw [Semaphore.wake, modify_eq_set htask]
    exact h.set htask hholds hwaits

theorem wake_getElem? {tasks : List Task} {next : Option ℕ} {task : Task}
    (hi : tasks[i]? = some task) (hself : task.granted = task) :
    (Semaphore.wake Task.granted tasks next)[i]? = some task := by
  cases next with
  | none => exact hi
  | some j =>
    rw [Semaphore.wake, List.getElem?_modify, hi]
    split <;> simp [hself]

theorem Kept.releaseAll (h : s.Kept maxPerAtSign maxConcurrent)
    (hi : s.tasks[i]? = some (.running l .get)) :
    (s.releaseAll i l).Kept maxPerAtSign maxConcurrent := by
  have hl := h.named l _ (List.mem_of_getElem? hi)
  have hnext (o : ℕ) (j : ℕ) (hj : j ∈ s.all.release.1) : ∃ task, s.tasks[j]? = some task ∧
      Task.holdsSlot o task.granted = Task.holdsSlot o task ∧
        Task.waitsSlot o task.granted = Task.waitsSlot o task := by
    obtain ⟨task, htask, hwaits⟩ := h.all.next hj
    obtain ⟨l', rfl⟩ := eq_of_waitsAll hwaits
    exact ⟨_, htask, rfl, rfl⟩
  refine ⟨?_, fun o => ?_, named_set (fun l' a hmem => ?_) ?_, h.made, h.one, h.entries⟩
  · refine h.all.release (fun task hwaits => ?_) hi rfl rfl rfl rfl
    obtain ⟨l', rfl⟩ := eq_of_waitsAll hwaits
    exact ⟨rfl, rfl, rfl⟩
  · exact (tracks_wake (h.slots o) (hnext o)).set (wake_getElem? hi rfl) rfl rfl
  · obtain ⟨a', hmem⟩ := running_of_wake hmem
    exact h.named l' a' hmem
  · rintro l' a ⟨⟩
    exact hl

/-- Whom a slot of an atSign goes to. -/
theorem Kept.next (h : s.Kept maxPerAtSign maxConcurrent) {j : ℕ}
    (hj : (s.slots l.slots).release.1 = some j) :
    ∃ l', s.tasks[j]? = some (.running l' .slots) ∧ l'.slots = l.slots := by
  obtain ⟨task, htask, hwaits⟩ := (h.slots l.slots).next hj
  obtain ⟨l', rfl, hl'⟩ := eq_of_waitsSlot hwaits
  exact ⟨l', htask, hl'⟩

theorem Kept.releaseSlots (h : s.Kept maxPerAtSign maxConcurrent)
    (hi : s.tasks[i]? = some (.running l .slotsTaken)) (result : Except LookupError (Option String)) :
    (s.releaseSlots i l result).Kept maxPerAtSign maxConcurrent := by
  have hl := h.named l _ (List.mem_of_getElem? hi)
  have hslots : (s.slots l.slots).release.2.Tracks maxPerAtSign (Task.holdsSlot l.slots)
      (Task.waitsSlot l.slots) (s.releaseSlots i l result).tasks := by
    refine (h.slots l.slots).release (fun task hwaits => ?_) hi ?_ rfl rfl rfl
    · obtain ⟨l', rfl, hl'⟩ := eq_of_waitsSlot hwaits
      exact ⟨Bool.and_false _, (Bool.and_true _).trans hwaits, rfl⟩
    · exact (Bool.and_true _).trans (beq_self_eq_true _)
  have hold (l' : Lookup) (a : Await) (hmem : .running l' a ∈ (s.releaseSlots i l result).tasks) :
      s.byAtSign l'.atSign = some l'.slots := by
    refine named_set (fun l'' a' hmem' => ?_) (fun l'' a' heq => by cases heq) l' a hmem
    obtain ⟨a'', hmem'⟩ := running_of_wake hmem'
    exact h.named l'' a'' hmem'
  have hsub (atSign : String) (o : ℕ) (ho : (s.releaseSlots i l result).byAtSign atSign = some o) :
      s.byAtSign atSign = some o ∧ (o = l.slots → (s.slots l.slots).release.2.idle = false) := by
    simp only [DirectPublicLookup.releaseSlots] at ho
    split at ho
    · rename_i hidle
      by_cases hatSign : atSign = l.atSign
      · rw [hatSign, Function.update_self] at ho
        cases ho
      · rw [Function.update_of_ne hatSign] at ho
        refine ⟨ho, ?_⟩
        rintro rfl
        exact absurd (h.one _ _ _ ho hl) hatSign
    · rename_i hidle
      exact ⟨ho, fun _ => Bool.eq_false_iff.mpr hidle⟩
  refine ⟨?_, fun o => ?_, fun l' a hmem => ?_, fun atSign o ho => h.made atSign o (hsub _ _ ho).1,
    fun atSign other o ho ho' => h.one atSign other o (hsub _ _ ho).1 (hsub _ _ ho').1,
    fun atSign o ho => ?_⟩
  · refine (tracks_wake h.all fun j hj => ?_).set (wake_getElem? hi rfl) rfl rfl
    obtain ⟨l', hl', -⟩ := h.next hj
    exact ⟨_, hl', rfl, rfl⟩
  · by_cases ho : o = l.slots
    · subst ho
      rw [releaseSlots_own]
      exact hslots
    · have hne (a : Await) (l' : Lookup) (hl' : l'.slots = l.slots) :
          Task.holdsSlot o (.running l' a) = false ∧ Task.waitsSlot o (.running l' a) = false := by
        have hno : (l'.slots == o) = false := beq_eq_false_iff_ne.mpr (hl' ▸ Ne.symm ho)
        refine ⟨?_, ?_⟩
        · rw [Task.holdsSlot, hno, Bool.false_and]
        · cases a <;> first
            | exact hno
            | rfl
      rw [releaseSlots_other ho]
      refine (tracks_wake (h.slots o) fun j hj => ?_).set (wake_getElem? hi rfl)
        (hne _ l rfl).1.symm (hne _ l rfl).2.symm
      obtain ⟨l', hl', hsame⟩ := h.next hj
      exact ⟨_, hl', (hne _ l' hsame).1.trans (hne _ l' hsame).1.symm,
        (hne _ l' hsame).2.trans (hne _ l' hsame).2.symm⟩
  · -- an entry removed is of no lookup that still runs
    have hname := hold l' a hmem
    simp only [DirectPublicLookup.releaseSlots]
    split
    · rename_i hidle
      by_cases hatSign : l'.atSign = l.atSign
      · rw [hatSign, hl] at hname
        rw [idle_of_running hslots hmem (Option.some.inj hname).symm] at hidle
        cases hidle
      · rw [Function.update_of_ne hatSign]
        exact hname
    · exact hname
  · obtain ⟨hbefore, hidle⟩ := hsub atSign o ho
    by_cases hsame : o = l.slots
    · rw [hsame, releaseSlots_own]
      exact hidle hsame
    · rw [releaseSlots_other hsame]
      exact h.entries atSign o hbefore

/-- A lookup asks for a slot of the object that its atSign has, which may be a new one. -/
theorem Kept.acquireSlots {uri : String}
    (hall : s.all.Tracks maxConcurrent Task.holdsAll Task.waitsAll s.tasks)
    (hslots : ∀ o, (s.slots o).Tracks maxPerAtSign (Task.holdsSlot o) (Task.waitsSlot o) s.tasks)
    (hnamed : ∀ l a, .running l a ∈ s.tasks → s.byAtSign l.atSign = some l.slots)
    (hmade : ∀ atSign o, s.byAtSign atSign = some o → o < s.made)
    (hone : ∀ atSign other o, s.byAtSign atSign = some o → s.byAtSign other = some o → atSign = other)
    (hentries : ∀ atSign o, s.byAtSign atSign = some o → o ≠ l.slots → (s.slots o).idle = false)
    (hl : s.byAtSign l.atSign = some l.slots) (hi : s.tasks[i]? = some (.call uri)) :
    (s.acquireSlots maxPerAtSign i l).Kept maxPerAtSign maxConcurrent := by
  have htaken (taken : Bool) :
      Task.holdsSlot l.slots (.running l (if taken then .slotsTaken else .slots)) = taken ∧
        Task.waitsSlot l.slots (.running l (if taken then .slotsTaken else .slots)) = !taken := by
    cases taken
    · exact ⟨Bool.and_false _, beq_self_eq_true _⟩
    · exact ⟨(Bool.and_true _).trans (beq_self_eq_true _), rfl⟩
  have hall' (taken : Bool) :
      Task.holdsAll (.running l (if taken then .slotsTaken else .slots)) = false ∧
        Task.waitsAll (.running l (if taken then .slotsTaken else .slots)) = false := by
    cases taken <;> exact ⟨rfl, rfl⟩
  have hown : ((s.slots l.slots).acquire maxPerAtSign i).2.Tracks maxPerAtSign
      (Task.holdsSlot l.slots) (Task.waitsSlot l.slots) (s.acquireSlots maxPerAtSign i l).tasks :=
    (hslots l.slots).acquire hi rfl rfl (htaken _).1 (htaken _).2
  refine ⟨hall.set hi (hall' _).1 (hall' _).2, fun o => ?_, named_set hnamed ?_, hmade, hone,
    fun atSign o ho => ?_⟩
  · by_cases ho : o = l.slots
    · subst ho
      rw [acquireSlots_own]
      exact hown
    · have hplace (taken : Bool) :
          Task.holdsSlot o (.running l (if taken then .slotsTaken else .slots)) = false ∧
            Task.waitsSlot o (.running l (if taken then .slotsTaken else .slots)) = false := by
        have hno : (l.slots == o) = false := beq_eq_false_iff_ne.mpr (Ne.symm ho)
        refine ⟨by rw [Task.holdsSlot, hno, Bool.false_and], ?_⟩
        cases taken
        · exact hno
        · rfl
      rw [acquireSlots_other ho]
      exact (hslots o).set hi (hplace _).1 (hplace _).2
  · rintro l' a ⟨⟩
    exact hl
  · by_cases ho' : o = l.slots
    · rw [ho', acquireSlots_own]
      exact idle_of_running hown (List.mem_set (List.getElem?_eq_some_iff.mp hi).1 _) rfl
    · rw [acquireSlots_other ho']
      exact hentries atSign o ho ho'

/-- The object made is of no lookup yet. -/
theorem Kept.fresh (h : s.Kept maxPerAtSign maxConcurrent) {a : Await}
    (hmem : .running l a ∈ s.tasks) : l.slots < s.made :=
  h.made _ _ (h.named l a hmem)

theorem Kept.slots_made (h : s.Kept maxPerAtSign maxConcurrent) (o : ℕ) :
    (Function.update s.slots s.made .unused o).Tracks maxPerAtSign (Task.holdsSlot o)
      (Task.waitsSlot o) s.tasks := by
  by_cases ho : o = s.made
  · subst ho
    rw [Function.update_self]
    have hne {l : Lookup} {a : Await} (hmem : .running l a ∈ s.tasks) : (l.slots == s.made) = false :=
      beq_eq_false_iff_ne.mpr (Nat.ne_of_lt (h.fresh hmem))
    refine Semaphore.Sound.congr (Semaphore.sound_unused _) ?_ fun j => iff_of_false ?_ id
    · refine List.countP_eq_zero.mpr fun task hmem => ?_
      cases task with
      | running l a => simp [Task.holdsSlot, hne hmem]
      | _ => exact Bool.false_ne_true
    · intro hwaits
      cases hj : s.tasks[j]? with
      | none => simp [hj] at hwaits
      | some task =>
        rw [hj, Option.any_some] at hwaits
        obtain ⟨l, rfl, -⟩ := eq_of_waitsSlot hwaits
        exact Bool.false_ne_true ((hne (List.mem_of_getElem? hj)).symm.trans hwaits)
  · rw [Function.update_of_ne ho]
    exact h.slots o

/-- An entry is the new one, or was there. -/
theorem Kept.entry_made (h : s.Kept maxPerAtSign maxConcurrent) {atSign other : String} {o : ℕ}
    (ho : Function.update s.byAtSign atSign (some s.made) other = some o) :
    other = atSign ∧ o = s.made ∨ s.byAtSign other = some o ∧ o < s.made := by
  by_cases heq : other = atSign
  · rw [heq, Function.update_self] at ho
    exact Or.inl ⟨heq, (Option.some.inj ho).symm⟩
  · rw [Function.update_of_ne heq] at ho
    exact Or.inr ⟨ho, h.made _ _ ho⟩

theorem Kept.lookupDirect {uri : String} (h : s.Kept maxPerAtSign maxConcurrent)
    (hi : s.tasks[i]? = some (.call uri)) :
    (s.lookupDirect maxPerAtSign i uri).Kept maxPerAtSign maxConcurrent := by
  unfold DirectPublicLookup.lookupDirect
  split
  · refine ⟨h.all.set hi rfl rfl, fun o => (h.slots o).set hi rfl rfl, named_set h.named ?_, h.made,
      h.one, h.entries⟩
    rintro l a ⟨⟩
  · rename_i atSign key hrecord
    cases hb : s.byAtSign atSign with
    | some o =>
      simp only [putIfAbsent, hb]
      exact .acquireSlots h.all h.slots h.named h.made h.one
        (fun atSign' o' ho' _ => h.entries atSign' o' ho') hb hi
    | none =>
      simp only [putIfAbsent, hb]
      refine .acquireSlots h.all h.slots_made (fun l a hmem => ?_) (fun other o ho => ?_)
        (fun other other' o ho ho' => ?_) (fun other o ho hne => ?_) (Function.update_self _ _ _) hi
      · have hl := h.named l a hmem
        have hne : l.atSign ≠ atSign := fun heq => by
          rw [heq, hb] at hl
          cases hl
        exact (Function.update_of_ne hne _ _).trans hl
      · rcases h.entry_made ho with ⟨-, rfl⟩ | ⟨-, hlt⟩
        · exact Nat.lt_succ_self _
        · exact Nat.lt_succ_of_lt hlt
      · rcases h.entry_made ho with ⟨rfl, rfl⟩ | ⟨hother, hlt⟩
        · rcases h.entry_made ho' with ⟨rfl, -⟩ | ⟨-, hlt⟩
          · rfl
          · exact absurd hlt (Nat.lt_irrefl _)
        · rcases h.entry_made ho' with ⟨-, rfl⟩ | ⟨hother', -⟩
          · exact absurd hlt (Nat.lt_irrefl _)
          · exact h.one _ _ _ hother hother'
      · rcases h.entry_made ho with ⟨-, heq⟩ | ⟨hother, -⟩
        · exact absurd heq hne
        · have hslots : Function.update s.slots s.made .unused o = s.slots o :=
            Function.update_of_ne hne _ _
          exact (congrArg Semaphore.idle hslots).trans (h.entries _ _ hother)

variable {e : ℕ × Except String (Option String)} {t : DirectPublicLookup}

/-- What a lookup that goes on can do. -/
theorem resume_cases (h : s.resume maxPerAtSign maxConcurrent e = some t) :
    (∃ uri, s.tasks[e.1]? = some (.call uri) ∧ t = s.lookupDirect maxPerAtSign e.1 uri) ∨
    (∃ l, s.tasks[e.1]? = some (.running l .slotsTaken) ∧ t = s.acquireAll maxConcurrent e.1 l) ∨
    (∃ l, s.tasks[e.1]? = some (.running l .allTaken) ∧ t = s.setTask e.1 (.running l .get)) ∨
    (∃ l, s.tasks[e.1]? = some (.running l .get) ∧
      t = (s.releaseAll e.1 l).releaseSlots e.1 l (e.2.mapError .get)) := by
  unfold resume at h
  split at h
  · rename_i uri hi
    exact Or.inl ⟨uri, hi, (Option.some.inj h).symm⟩
  · rename_i l hi
    exact Or.inr (Or.inl ⟨l, hi, (Option.some.inj h).symm⟩)
  · rename_i l hi
    exact Or.inr (Or.inr (Or.inl ⟨l, hi, (Option.some.inj h).symm⟩))
  · rename_i l hi
    exact Or.inr (Or.inr (Or.inr ⟨l, hi, (Option.some.inj h).symm⟩))
  · cases h

theorem releaseAll_getElem? {result : Task} (hi : s.tasks[i]? = some result) :
    (s.releaseAll i l).tasks[i]? = some (.running l .slotsTaken) := by
  have hlt : i < (Semaphore.wake Task.granted s.tasks s.all.release.1).length := by
    cases s.all.release.1 <;> simp [Semaphore.wake, (List.getElem?_eq_some_iff.mp hi).1]
  exact List.getElem?_set_self hlt

theorem Kept.resume (h : s.Kept maxPerAtSign maxConcurrent)
    (hstep : s.resume maxPerAtSign maxConcurrent e = some t) : t.Kept maxPerAtSign maxConcurrent := by
  obtain ⟨uri, hi, rfl⟩ | ⟨l, hi, rfl⟩ | ⟨l, hi, rfl⟩ | ⟨l, hi, rfl⟩ := resume_cases hstep
  · exact h.lookupDirect hi
  · exact h.acquireAll hi
  · exact h.get hi
  · exact (h.releaseAll hi).releaseSlots (releaseAll_getElem? hi) _

theorem kept_before (uris : List String) : (before uris).Kept maxPerAtSign maxConcurrent := by
  have hcall {task : Task} (h : task ∈ (before uris).tasks) : ∃ uri, task = .call uri := by
    obtain ⟨uri, -, rfl⟩ := List.mem_map.mp h
    exact ⟨uri, rfl⟩
  have hnone {holds waits : Task → Bool} (hcalls : ∀ uri, holds (.call uri) = false ∧
      waits (.call uri) = false) (max : ℕ) :
      (Semaphore.unused : Slots).Tracks max holds waits (before uris).tasks := by
    refine Semaphore.Sound.congr (Semaphore.sound_unused max) ?_ fun i => iff_of_false ?_ id
    · refine List.countP_eq_zero.mpr fun task hmem => ?_
      obtain ⟨uri, rfl⟩ := hcall hmem
      exact Bool.eq_false_iff.mp (hcalls uri).1
    · cases hi : (before uris).tasks[i]? with
      | none => exact Bool.false_ne_true
      | some task =>
        obtain ⟨uri, rfl⟩ := hcall (List.mem_of_getElem? hi)
        exact Bool.eq_false_iff.mp (hcalls uri).2
  refine ⟨hnone (fun _ => ⟨rfl, rfl⟩) _, fun _ => hnone (fun _ => ⟨rfl, rfl⟩) _, fun l a hmem => ?_,
    fun _ _ ho => ?_, fun _ _ _ ho => ?_, fun _ _ ho => ?_⟩
  · obtain ⟨uri, huri⟩ := hcall hmem
    cases huri
  all_goals cases ho


/-! ### How many at once -/

theorem Kept.inAll (h : s.Kept maxPerAtSign maxConcurrent) :
    s.tasks.countP Task.isGet ≤ maxConcurrent := by
  refine Nat.le_trans (List.countP_mono_left fun task _ hget => ?_) h.all.le
  rcases task with uri | ⟨l, _ | _ | _ | _ | _⟩ | result <;> cases hget
  rfl

/-- One object has the slots of an atSign, so its slots are those that its lookups have. -/
theorem Kept.held (h : s.Kept maxPerAtSign maxConcurrent) (atSign : String) :
    s.heldOf atSign = s.tasks.countP (Task.holdsSlotOf atSign) := by
  cases ho : s.byAtSign atSign with
  | none =>
    rw [heldOf, ho]
    refine (List.countP_eq_zero.mpr fun task hmem hholds => ?_).symm
    rcases task with uri | ⟨l, a⟩ | result <;> try cases hholds
    have hl := h.named l a hmem
    rw [beq_iff_eq.mp (Bool.and_eq_true_iff.mp hholds).1, ho] at hl
    cases hl
  | some o =>
    have hheld : s.heldOf atSign = (s.slots o).held := by rw [heldOf, ho]
    rw [hheld, (h.slots o).held]
    refine List.countP_congr fun task hmem => ?_
    cases task with
    | running l a =>
      have hl := h.named l a hmem
      have hiff : (l.slots == o) = (l.atSign == atSign) := by
        rw [Bool.eq_iff_iff, beq_iff_eq, beq_iff_eq]
        constructor
        · rintro rfl
          exact h.one _ _ _ hl ho
        · intro heq
          rw [heq, ho] at hl
          exact (Option.some.inj hl).symm
      rw [Task.holdsSlot, Task.holdsSlotOf, hiff]
    | _ => exact Iff.rfl

theorem Kept.no_entry (h : s.Kept maxPerAtSign maxConcurrent)
    (hdone : ∀ task ∈ s.tasks, task.isRunning = false) (atSign : String) :
    s.byAtSign atSign = none := by
  refine Option.eq_none_iff_forall_ne_some.mpr fun o ho => ?_
  refine Bool.eq_false_iff.mp (h.entries atSign o ho) ?_
  refine (Semaphore.Sound.idle_iff (h.slots o)).mpr ⟨List.countP_eq_zero.mpr ?_, fun i hwaits => ?_⟩
  · intro task hmem
    have hnot := hdone task hmem
    rcases task with uri | ⟨l, a⟩ | result
    · exact Bool.false_ne_true
    · cases hnot
    · exact Bool.false_ne_true
  · cases hi : s.tasks[i]? with
    | none =>
      rw [hi] at hwaits
      cases hwaits
    | some task =>
      have hnot := hdone task (List.mem_of_getElem? hi)
      rw [hi, Option.any_some] at hwaits
      rcases task with uri | ⟨l, a⟩ | result
      · cases hwaits
      · cases hnot
      · cases hwaits

variable {fold : String → String}

/-- The lookups running spell no atSign in two ways. -/
def Alike (fold : String → String) (s : DirectPublicLookup) : Prop :=
  ∀ l a l' a', .running l a ∈ s.tasks → .running l' a' ∈ s.tasks →
    fold l.atSign = fold l'.atSign → l.atSign = l'.atSign

theorem Kept.perAtSign (h : s.Kept maxPerAtSign maxConcurrent) (halike : s.Alike fold)
    (atSign : String) : s.tasks.countP (Task.getsFrom fold atSign) ≤ maxPerAtSign := by
  by_cases hnone : ∃ l, .running l .get ∈ s.tasks ∧ fold l.atSign = fold atSign
  · obtain ⟨l, hmem, hfold⟩ := hnone
    have hl := h.named l _ hmem
    refine Nat.le_trans (List.countP_mono_left fun task hmem' hget => ?_) (h.slots l.slots).le
    obtain ⟨l', rfl, hfold'⟩ := eq_of_getsFrom hget
    have hsame := halike l' _ l _ hmem' hmem (hfold'.trans hfold.symm)
    have hl' := h.named l' _ hmem'
    rw [hsame, hl] at hl'
    exact (Bool.and_true _).trans (beq_iff_eq.mpr (Option.some.inj hl').symm)
  · rw [List.countP_eq_zero.mpr]
    · exact Nat.zero_le _
    · intro task hmem hget
      obtain ⟨l, rfl, hfold⟩ := eq_of_getsFrom hget
      exact hnone ⟨l, hmem, hfold⟩

/-- The lookups that a step leaves running were running, but for the one that begins. -/
theorem running_of_resume (hstep : s.resume maxPerAtSign maxConcurrent e = some t) {a : Await}
    (hmem : .running l a ∈ t.tasks) :
    (∃ a', .running l a' ∈ s.tasks) ∨
      ∃ uri, s.tasks[e.1]? = some (.call uri) ∧ recordOf uri = some (l.atSign, l.key) := by
  obtain ⟨uri, hi, rfl⟩ | ⟨l', hi, rfl⟩ | ⟨l', hi, rfl⟩ | ⟨l', hi, rfl⟩ := resume_cases hstep
  · cases hrecord : recordOf uri with
    | none =>
      rw [lookupDirect_none hrecord] at hmem
      rcases List.mem_or_eq_of_mem_set hmem with hmem | heq
      · exact Or.inl ⟨a, hmem⟩
      · cases heq
    | some record =>
      rw [lookupDirect_some hrecord] at hmem
      rcases List.mem_or_eq_of_mem_set hmem with hmem | heq
      · exact Or.inl ⟨a, (putIfAbsent_tasks _ ▸ hmem :)⟩
      · cases heq
        exact Or.inr ⟨uri, hi, hrecord⟩
  · rcases List.mem_or_eq_of_mem_set hmem with hmem | heq
    · exact Or.inl ⟨a, hmem⟩
    · cases heq
      exact Or.inl ⟨_, List.mem_of_getElem? hi⟩
  · rcases List.mem_or_eq_of_mem_set hmem with hmem | heq
    · exact Or.inl ⟨a, hmem⟩
    · cases heq
      exact Or.inl ⟨_, List.mem_of_getElem? hi⟩
  · rcases List.mem_or_eq_of_mem_set hmem with hmem | heq
    · obtain ⟨a', hmem⟩ := running_of_wake hmem
      rcases List.mem_or_eq_of_mem_set hmem with hmem | heq
      · exact Or.inl (running_of_wake hmem)
      · cases heq
        exact Or.inl ⟨_, List.mem_of_getElem? hi⟩
    · cases heq

theorem Alike.resume (h : s.Alike fold) (hspelled : SpelledAlike fold s e)
    (hstep : s.resume maxPerAtSign maxConcurrent e = some t) : t.Alike fold := by
  intro l a l' a' hmem hmem' hfold
  rcases running_of_resume hstep hmem with ⟨b, hb⟩ | ⟨uri, hi, hrecord⟩
  · rcases running_of_resume hstep hmem' with ⟨b', hb'⟩ | ⟨uri', hi', hrecord'⟩
    · exact h l b l' b' hb hb' hfold
    · exact hspelled uri' _ _ hi' hrecord' l b hb hfold
  · rcases running_of_resume hstep hmem' with ⟨b', hb'⟩ | ⟨uri', hi', hrecord'⟩
    · exact (hspelled uri _ _ hi hrecord l' b' hb' hfold.symm).symm
    · obtain rfl := Task.call.inj (Option.some.inj (hi.symm.trans hi'))
      exact congrArg Prod.fst (Option.some.inj (hrecord.symm.trans hrecord'))


/-! ### In what order -/

theorem served_set {tasks : List Task} {task task' : Task} (hi : tasks[i]? = some task)
    (hserved : task.served = true → task'.served = true) {j : ℕ}
    (h : (tasks[j]?).any Task.served = true) : ((tasks.set i task')[j]?).any Task.served = true := by
  rw [Semaphore.any_set hi]
  split
  · rename_i hj
    rw [hj, hi, Option.any_some] at h
    exact hserved h
  · exact h

theorem served_wake {tasks : List Task} (next : Option ℕ) {j : ℕ}
    (h : (tasks[j]?).any Task.served = true) :
    ((Semaphore.wake Task.granted tasks next)[j]?).any Task.served = true := by
  cases next with
  | none => exact h
  | some i =>
    cases hi : tasks[i]? with
    | none => rwa [Semaphore.wake, List.modify_eq_set_getElem?, hi]
    | some task =>
      rw [Semaphore.wake, modify_eq_set hi]
      refine served_set hi (fun hserved => ?_) h
      rcases granted_cases task with hsame | ⟨l, ⟨-, hwoken⟩ | ⟨-, hwoken⟩⟩
      · rw [hsame]
        exact hserved
      · rw [hwoken]
        rfl
      · rw [hwoken]
        rfl

theorem served_lookupDirect {uri : String} (hi : s.tasks[i]? = some (.call uri)) {j : ℕ}
    (h : (s.tasks[j]?).any Task.served = true) :
    ((s.lookupDirect maxPerAtSign i uri).tasks[j]?).any Task.served = true := by
  cases hrecord : recordOf uri with
  | none =>
    rw [lookupDirect_none hrecord]
    exact served_set hi (fun hserved => by cases hserved) h
  | some record =>
    rw [lookupDirect_some hrecord]
    rw [← putIfAbsent_tasks record.1] at hi h
    exact served_set hi (fun hserved => by cases hserved) h

theorem served_releaseAll (hi : s.tasks[i]? = some (.running l .get)) {j : ℕ}
    (h : (s.tasks[j]?).any Task.served = true) :
    ((s.releaseAll i l).tasks[j]?).any Task.served = true :=
  served_set (wake_getElem? hi rfl) (fun _ => rfl) (served_wake _ h)

theorem served_releaseSlots (hi : s.tasks[i]? = some (.running l .slotsTaken))
    {result : Except LookupError (Option String)} {j : ℕ}
    (h : (s.tasks[j]?).any Task.served = true) :
    ((s.releaseSlots i l result).tasks[j]?).any Task.served = true :=
  served_set (wake_getElem? hi rfl) (fun _ => rfl) (served_wake _ h)

/-- A lookup served stays served. -/
theorem served_resume (hstep : s.resume maxPerAtSign maxConcurrent e = some t) {j : ℕ}
    (h : (s.tasks[j]?).any Task.served = true) : (t.tasks[j]?).any Task.served = true := by
  obtain ⟨uri, hi, rfl⟩ | ⟨l, hi, rfl⟩ | ⟨l, hi, rfl⟩ | ⟨l, hi, rfl⟩ := resume_cases hstep
  · exact served_lookupDirect hi h
  · have hplace (taken : Bool) :
        Task.served (.running l (if taken then .allTaken else .all)) = true := by
      cases taken <;> rfl
    exact served_set hi (fun _ => hplace _) h
  · exact served_set hi (fun _ => rfl) h
  · exact served_releaseSlots (releaseAll_getElem? hi) (served_releaseAll hi h)

theorem lookupDirect_getElem? {uri : String} {j : ℕ} (h : j ≠ i) :
    (s.lookupDirect maxPerAtSign i uri).tasks[j]? = s.tasks[j]? := by
  cases hrecord : recordOf uri with
  | none =>
    rw [lookupDirect_none hrecord]
    exact List.getElem?_set_ne (Ne.symm h)
  | some record =>
    rw [lookupDirect_some hrecord, ← putIfAbsent_tasks (s := s) record.1]
    exact List.getElem?_set_ne (Ne.symm h)

theorem releaseSlots_getElem? {result : Except LookupError (Option String)} {j : ℕ} (h : i ≠ j) :
    (s.releaseSlots i l result).tasks[j]? =
      (Semaphore.wake Task.granted s.tasks (s.slots l.slots).release.1)[j]? :=
  List.getElem?_set_ne h

/-- Lookup `j` of `uri` is not served before `i`, which waits or waited for the same slots. -/
inductive Behind (i j : ℕ) (l : Lookup) (uri : String) (s : DirectPublicLookup) : Prop
  | served (h : (s.tasks[i]?).any Task.served = true)
  | called (hi : s.tasks[i]? = some (.running l .slots)) (hj : s.tasks[j]? = some (.call uri))
  | queued (hi : s.tasks[i]? = some (.running l .slots)) {l' : Lookup}
      (hj : s.tasks[j]? = some (.running l' .slots)) (hl : l'.slots = l.slots)
      (ahead : (s.slots l.slots).Ahead i j)

section
variable {j : ℕ} {uri : String}

theorem Behind.served_of (h : s.Behind i j l uri) (hj : (s.tasks[j]?).any Task.served = true) :
    (s.tasks[i]?).any Task.served = true := by
  cases h with
  | served h => exact h
  | called hi hj' =>
    rw [hj'] at hj
    cases hj
  | queued hi hj' =>
    rw [hj'] at hj
    cases hj

/-- A step that leaves the two where they are. -/
theorem Behind.stays (h : s.Behind i j l uri)
    (hserved : (s.tasks[i]?).any Task.served = true → (t.tasks[i]?).any Task.served = true)
    (hstays : ∀ k task, k = i ∨ k = j → s.tasks[k]? = some task → task.served = false →
      t.tasks[k]? = some task)
    (hahead : (s.slots l.slots).Ahead i j → (t.slots l.slots).Ahead i j) : t.Behind i j l uri := by
  cases h with
  | served h => exact .served (hserved h)
  | called hi hj => exact .called (hstays i _ (Or.inl rfl) hi rfl) (hstays j _ (Or.inr rfl) hj rfl)
  | queued hi hj hl ahead =>
    exact .queued (hstays i _ (Or.inl rfl) hi rfl) (hstays j _ (Or.inr rfl) hj rfl) hl (hahead ahead)

theorem unserved_set {tasks : List Task} {task task' : Task} (hi : tasks[i]? = some task')
    (hserved : task'.served = true) {result : Task} (hj : tasks[j]? = some task)
    (hnot : task.served = false) : (tasks.set i result)[j]? = some task := by
  rw [List.getElem?_set_ne]
  · exact hj
  · rintro rfl
    rw [Option.some.inj (hi.symm.trans hj), hnot] at hserved
    cases hserved

/-- A slot of all goes to a lookup that has one of its atSign. -/
theorem unserved_releaseAll (h : s.Kept maxPerAtSign maxConcurrent)
    (hi : s.tasks[i]? = some (.running l .get)) {task : Task} (hj : s.tasks[j]? = some task)
    (hnot : task.served = false) : (s.releaseAll i l).tasks[j]? = some task := by
  refine unserved_set (wake_getElem? hi rfl) rfl ?_ hnot
  rw [Semaphore.wake_of_ne]
  · exact hj
  · intro hnext
    obtain ⟨task', htask', hwaits⟩ := h.all.next hnext
    obtain ⟨l', rfl⟩ := eq_of_waitsAll hwaits
    rw [← Option.some.inj (hj.symm.trans htask').symm] at hnot
    cases hnot

/-- The object that a running lookup has found, when another of its atSign looks for one. -/
theorem Kept.putIfAbsent (h : s.Kept maxPerAtSign maxConcurrent) {a : Await}
    (hmem : .running l a ∈ s.tasks) : s.putIfAbsent l.atSign = (l.slots, s) := by
  rw [DirectPublicLookup.putIfAbsent, h.named l a hmem]

theorem Kept.slots_putIfAbsent (h : s.Kept maxPerAtSign maxConcurrent) {a : Await}
    (hmem : .running l a ∈ s.tasks) (atSign : String) :
    (s.putIfAbsent atSign).2.slots l.slots = s.slots l.slots := by
  unfold DirectPublicLookup.putIfAbsent
  split
  · rfl
  · exact Function.update_of_ne (Nat.ne_of_lt (h.fresh hmem)) _ _

theorem ahead_lookupDirect (h : s.Kept maxPerAtSign maxConcurrent) {a : Await}
    (hmem : .running l a ∈ s.tasks) {k : ℕ} (hahead : (s.slots l.slots).Ahead i j) :
    ((s.lookupDirect maxPerAtSign k uri).slots l.slots).Ahead i j := by
  cases hrecord : recordOf uri with
  | none =>
    rw [lookupDirect_none hrecord]
    exact hahead
  | some record =>
    have hslots := h.slots_putIfAbsent hmem record.1
    rw [lookupDirect_some hrecord]
    by_cases hsame : l.slots = (s.putIfAbsent record.1).1
    · rw [← hsame, acquireSlots_own (l := ⟨record.1, record.2, l.slots⟩), hslots]
      exact hahead.acquire k
    · rw [acquireSlots_other hsame, hslots]
      exact hahead

/-- A lookup that begins is behind those of its atSign, whom it finds by its spelling of it. -/
theorem Behind.lookupDirect (h : s.Behind i j l uri) (hs : s.Kept maxPerAtSign maxConcurrent)
    {k : ℕ} {other : String} (hk : s.tasks[k]? = some (.call other)) (key : String)
    (hown : k = j → (s.tasks[i]?).any Task.served = false → recordOf uri = some (l.atSign, key)) :
    (s.lookupDirect maxPerAtSign k other).Behind i j l uri := by
  cases h with
  | served h => exact .served (served_lookupDirect hk h)
  | called hi hj =>
    have hik : i ≠ k := by
      rintro rfl
      cases hi.symm.trans hk
    have hmem := List.mem_of_getElem? hi
    by_cases hkj : k = j
    · subst hkj
      obtain rfl := Task.call.inj (Option.some.inj (hj.symm.trans hk))
      have hwaits : (s.tasks[i]?).any (Task.waitsSlot l.slots) = true := by
        rw [hi]
        exact beq_self_eq_true _
      have hqueued := (hs.slots l.slots).acquire_of_waits hwaits k
      have hrecord := hown rfl (by rw [hi]; rfl)
      rw [lookupDirect_some hrecord, hs.putIfAbsent hmem]
      have hj' : (s.acquireSlots maxPerAtSign k ⟨l.atSign, key, l.slots⟩).tasks[k]? =
          some (.running ⟨l.atSign, key, l.slots⟩ .slots) := by
        rw [acquireSlots_tasks, hqueued]
        exact List.getElem?_set_self (List.getElem?_eq_some_iff.mp hj).1
      refine .queued ((List.getElem?_set_ne (Ne.symm hik)).trans hi) hj' rfl ?_
      rw [acquireSlots_own (l := ⟨l.atSign, key, l.slots⟩)]
      exact Semaphore.ahead_of_queued (((hs.slots l.slots).mem i).mpr hwaits) hqueued
    · exact .called ((lookupDirect_getElem? hik).trans hi)
        ((lookupDirect_getElem? (Ne.symm hkj)).trans hj)
  | queued hi hj hl ahead =>
    have hik : i ≠ k := by
      rintro rfl
      cases hi.symm.trans hk
    have hjk : j ≠ k := by
      rintro rfl
      cases hj.symm.trans hk
    exact .queued ((lookupDirect_getElem? hik).trans hi) ((lookupDirect_getElem? hjk).trans hj) hl
      (ahead_lookupDirect hs (List.mem_of_getElem? hi) ahead)

/-- A slot given back goes to the first of those who wait for it. -/
theorem Behind.releaseSlots (h : s.Behind i j l uri) (hs : s.Kept maxPerAtSign maxConcurrent)
    {k : ℕ} {l' : Lookup} (hk : s.tasks[k]? = some (.running l' .slotsTaken))
    (result : Except LookupError (Option String)) :
    (s.releaseSlots k l' result).Behind i j l uri := by
  have hserves (hi : s.tasks[i]? = some (.running l .slots))
      (hm : (s.slots l'.slots).release.1 = some i) :
      ((s.releaseSlots k l' result).tasks[i]?).any Task.served = true := by
    have hik : k ≠ i := by
      rintro rfl
      cases hk.symm.trans hi
    have hwoken : (s.releaseSlots k l' result).tasks[i]? =
        (Semaphore.wake Task.granted s.tasks (s.slots l'.slots).release.1)[i]? :=
      releaseSlots_getElem? hik
    rw [hwoken, hm, Semaphore.wake, List.getElem?_modify_eq, hi]
    rfl
  have hstays {m : ℕ} {task : Task} (hm : s.tasks[m]? = some task) (hnot : task.served = false)
      (hne : (s.slots l'.slots).release.1 ≠ some m) :
      (s.releaseSlots k l' result).tasks[m]? = some task := by
    exact unserved_set (wake_getElem? hk rfl) rfl ((Semaphore.wake_of_ne hne).trans hm) hnot
  cases h with
  | served h => exact .served (served_releaseSlots hk h)
  | called hi hj =>
    by_cases hm : (s.slots l'.slots).release.1 = some i
    · exact .served (hserves hi hm)
    · refine .called (hstays hi rfl hm) (hstays hj rfl fun hm' => ?_)
      obtain ⟨l'', hl'', -⟩ := hs.next hm'
      cases hj.symm.trans hl''
  | queued hi hj hl ahead =>
    by_cases hsame : l.slots = l'.slots
    · rw [hsame] at ahead
      rcases ahead.release (hs.slots l'.slots).nodup with hm | ⟨hm, hm', ahead'⟩
      · exact .served (hserves hi hm)
      · refine .queued (hstays hi rfl hm) (hstays hj rfl hm') hl ?_
        rw [hsame, releaseSlots_own]
        exact ahead'
    · -- whoever is woken waits for the slots of another atSign
      have hother {m : ℕ} {l'' : Lookup} (hm : s.tasks[m]? = some (.running l'' .slots))
          (hl'' : l''.slots = l.slots) : (s.slots l'.slots).release.1 ≠ some m := by
        intro hm'
        obtain ⟨l₃, hl₃, hslots⟩ := hs.next hm'
        cases hm.symm.trans hl₃
        exact hsame (hl''.symm.trans hslots)
      refine .queued (hstays hi rfl (hother hi rfl)) (hstays hj rfl (hother hj hl)) hl ?_
      rw [releaseSlots_other hsame]
      exact ahead

theorem Behind.resume (h : s.Behind i j l uri) (hs : s.Kept maxPerAtSign maxConcurrent)
    (hspelled : SpelledAlike fold s e) {atSign key : String}
    (hrecord : recordOf uri = some (atSign, key)) (hfold : fold l.atSign = fold atSign)
    (hstep : s.resume maxPerAtSign maxConcurrent e = some t) : t.Behind i j l uri := by
  obtain ⟨other, hk, rfl⟩ | ⟨l', hk, rfl⟩ | ⟨l', hk, rfl⟩ | ⟨l', hk, rfl⟩ := resume_cases hstep
  · refine h.lookupDirect hs hk key fun hkj hnot => ?_
    cases h with
    | served h =>
      rw [h] at hnot
      cases hnot
    | called hi hj =>
      rw [hspelled uri atSign key (hkj ▸ hj) hrecord l _ (List.mem_of_getElem? hi) hfold]
      exact hrecord
    | queued hi hj =>
      rw [← hkj, hk] at hj
      cases hj
  · exact h.stays (served_resume hstep) (fun m task _ => unserved_set hk rfl) id
  · exact h.stays (served_resume hstep) (fun m task _ => unserved_set hk rfl) id
  · refine (h.stays (t := s.releaseAll e.1 l') ?_ (fun m task _ => unserved_releaseAll hs hk)
      id).releaseSlots (hs.releaseAll hk) (releaseAll_getElem? hk) _
    exact served_releaseAll hk


theorem kept_of_run {u : DirectPublicLookup} {es : List (ℕ × Except String (Option String))}
    (h : u.Kept maxPerAtSign maxConcurrent)
    (hr : (lookups maxPerAtSign maxConcurrent).run u es = some t) :
    t.Kept maxPerAtSign maxConcurrent :=
  (lookups maxPerAtSign maxConcurrent).invariant (fun _ _ _ hs hstep => hs.resume hstep) h hr

theorem alike_of_run {uris : List String} {es : List (ℕ × Except String (Option String))}
    (hspelled : (lookups maxPerAtSign maxConcurrent).Meets (SpelledAlike fold) (before uris) es)
    (hr : (lookups maxPerAtSign maxConcurrent).run (before uris) es = some t) : t.Alike fold := by
  refine (lookups maxPerAtSign maxConcurrent).invariant_of_meets
    (fun _ _ _ hs hspelled hstep => hs.resume hspelled hstep) (fun l a l' a' hmem => ?_) hspelled hr
  obtain ⟨uri, -, huri⟩ := List.mem_map.mp hmem
  cases huri

theorem behind_of_run {u : DirectPublicLookup} {es : List (ℕ × Except String (Option String))}
    (hs : u.Kept maxPerAtSign maxConcurrent) (h : u.Behind i j l uri) {atSign key : String}
    (hrecord : recordOf uri = some (atSign, key)) (hfold : fold l.atSign = fold atSign)
    (hspelled : (lookups maxPerAtSign maxConcurrent).Meets (SpelledAlike fold) u es)
    (hr : (lookups maxPerAtSign maxConcurrent).run u es = some t) : t.Behind i j l uri :=
  ((lookups maxPerAtSign maxConcurrent).invariant_of_meets
    (I := fun s => s.Kept maxPerAtSign maxConcurrent ∧ s.Behind i j l uri)
    (fun _ _ _ hs hspelled hstep =>
      ⟨hs.1.resume hstep, hs.2.resume hs.1 hspelled hrecord hfold hstep⟩) ⟨hs, h⟩ hspelled hr).2

/-- The limits are kept, in turn, by lookups that spell one atSign in one way at a time. -/
theorem limited_of_spelledAlike {fold : String → String} {maxPerAtSign maxConcurrent : ℕ}
    {uris : List String} {es : List (ℕ × Except String (Option String))} {t : DirectPublicLookup}
    (hspelled : (lookups maxPerAtSign maxConcurrent).Meets (SpelledAlike fold) (before uris) es)
    (hr : (lookups maxPerAtSign maxConcurrent).run (before uris) es = some t) :
    Limited fold maxPerAtSign maxConcurrent uris es t := by
  have hkept : t.Kept maxPerAtSign maxConcurrent := kept_of_run (kept_before uris) hr
  refine ⟨hkept.perAtSign (alike_of_run hspelled hr), hkept.inAll, ?_,
    ⟨hkept.all.held, hkept.held⟩, hkept.no_entry⟩
  intro pre post u hes hpre i j l uri atSign key hi hj hrecord hfold hserved
  subst hes
  have hpost : (lookups maxPerAtSign maxConcurrent).run u post = some t := by
    rw [Machine.run_append, hpre] at hr
    exact hr
  have hbehind := behind_of_run (kept_of_run (kept_before uris) hpre) (.called hi hj) hrecord hfold
    (((lookups maxPerAtSign maxConcurrent).meets_append.mp hspelled).2 u hpre) hpost
  exact hbehind.served_of hserved

/-! ### Callers that spell an atSign in one way -/

theorem call_of_wake {tasks : List Task} {next : Option ℕ}
    (h : .call uri ∈ Semaphore.wake Task.granted tasks next) : .call uri ∈ tasks := by
  rcases mem_wake h with hmem | ⟨task, hmem, heq⟩
  · exact hmem
  · rcases granted_cases task with hsame | ⟨l', ⟨-, hwoken⟩ | ⟨-, hwoken⟩⟩
    · rw [hsame] at heq
      exact heq ▸ hmem
    · cases heq.trans hwoken
    · cases heq.trans hwoken

theorem call_of_set {tasks : List Task} {task : Task} (htask : task ≠ .call uri)
    (h : .call uri ∈ tasks.set i task) : .call uri ∈ tasks :=
  (List.mem_or_eq_of_mem_set h).resolve_right (Ne.symm htask)

theorem call_of_resume (hstep : s.resume maxPerAtSign maxConcurrent e = some t)
    (hmem : .call uri ∈ t.tasks) : .call uri ∈ s.tasks := by
  obtain ⟨other, hi, rfl⟩ | ⟨l, hi, rfl⟩ | ⟨l, hi, rfl⟩ | ⟨l, hi, rfl⟩ := resume_cases hstep
  · cases hrecord : recordOf other with
    | none =>
      rw [lookupDirect_none hrecord] at hmem
      exact call_of_set (by rintro ⟨⟩) hmem
    | some record =>
      rw [lookupDirect_some hrecord, acquireSlots_tasks, putIfAbsent_tasks] at hmem
      exact call_of_set (by rintro ⟨⟩) hmem
  · exact call_of_set (by rintro ⟨⟩) hmem
  · exact call_of_set (by rintro ⟨⟩) hmem
  · exact call_of_wake (call_of_set (by rintro ⟨⟩) (call_of_wake (call_of_set (by rintro ⟨⟩) hmem)))

/-- The lookups are of `uris`. -/
structure Of (uris : List String) (s : DirectPublicLookup) : Prop where
  calls : ∀ uri, .call uri ∈ s.tasks → uri ∈ uris
  running : ∀ l a, .running l a ∈ s.tasks → ∃ uri ∈ uris, recordOf uri = some (l.atSign, l.key)

theorem Of.resume {uris : List String} (h : s.Of uris)
    (hstep : s.resume maxPerAtSign maxConcurrent e = some t) : t.Of uris := by
  refine ⟨fun uri hmem => h.calls uri (call_of_resume hstep hmem), fun l a hmem => ?_⟩
  rcases running_of_resume hstep hmem with ⟨a', hmem⟩ | ⟨uri, hi, hrecord⟩
  · exact h.running l a' hmem
  · exact ⟨uri, h.calls uri (List.mem_of_getElem? hi), hrecord⟩

/-- Callers that fold the case of their uris, say, meet the condition in every run. -/
theorem spelledAlike_of_uris {uris : List String}
    (hone : ∀ r ∈ uris.filterMap recordOf, ∀ r' ∈ uris.filterMap recordOf,
      fold r.1 = fold r'.1 → r.1 = r'.1) (es : List (ℕ × Except String (Option String))) :
    (lookups maxPerAtSign maxConcurrent).Meets (SpelledAlike fold) (before uris) es := by
  have hbefore : (before uris).Of uris := by
    constructor
    · intro uri hmem
      obtain ⟨uri', hmem', ⟨⟩⟩ := List.mem_map.mp hmem
      exact hmem'
    · intro l a hmem
      obtain ⟨uri', -, huri'⟩ := List.mem_map.mp hmem
      cases huri'
  refine ((lookups maxPerAtSign maxConcurrent).meets_congr (I := Of uris)
    (fun _ _ _ hs _ hstep => hs.resume hstep) (fun s e hs => iff_of_true trivial ?_) hbefore).mp
      ((lookups maxPerAtSign maxConcurrent).meets_true _ es)
  intro uri atSign key hi hrecord l a hmem hfold
  obtain ⟨uri', huri', hrecord'⟩ := hs.running l a hmem
  exact hone _ (List.mem_filterMap.mpr ⟨uri', huri', hrecord'⟩) _
    (List.mem_filterMap.mpr ⟨uri, hs.calls uri (List.mem_of_getElem? hi), hrecord⟩) hfold

end

/-! ### Runs -/

def lower (atSign : String) : String := String.ofList (atSign.toList.map Char.toLower)

/-- The first lookup is answered while the second waits for its slot. -/
theorem limited_of_two : ∃ t,
    (lookups 1 1).run (before ["public:a@alice", "public:b@alice"])
      [(0, .ok none), (1, .ok none), (0, .ok none), (0, .ok none), (0, .error "timed out")] = some t ∧
    Limited lower 1 1 ["public:a@alice", "public:b@alice"]
      [(0, .ok none), (1, .ok none), (0, .ok none), (0, .ok none), (0, .error "timed out")] t := by
  have hsome : ((lookups 1 1).run (before ["public:a@alice", "public:b@alice"])
      [(0, .ok none), (1, .ok none), (0, .ok none), (0, .ok none), (0, .error "timed out")]).isSome =
        true := by
    decide
  obtain ⟨t, ht⟩ := Option.isSome_iff_exists.mp hsome
  refine ⟨t, ht, limited_of_spelledAlike (spelledAlike_of_uris ?_ _) ht⟩
  have hrecords : ["public:a@alice", "public:b@alice"].filterMap recordOf =
      [("@alice", "a"), ("@alice", "b")] := by
    decide
  rw [hrecords]
  intro r hr r' hr' _
  simp only [List.mem_cons, List.not_mem_nil, or_false] at hr hr'
  rcases hr with rfl | rfl <;> rcases hr' with rfl | rfl <;> rfl

/-- Three lookups of one atSign, the third in capitals, which waits for no slot of the others. -/
theorem spelled_twice : ∃ t,
    (lookups 2 16).run (before ["public:a@alice", "public:b@alice", "public:c@Alice"])
      [(0, .ok none), (1, .ok none), (2, .ok none), (0, .ok none), (1, .ok none), (2, .ok none),
        (0, .ok none), (1, .ok none), (2, .ok none)] = some t ∧
    ¬Limited lower 2 16 ["public:a@alice", "public:b@alice", "public:c@Alice"]
      [(0, .ok none), (1, .ok none), (2, .ok none), (0, .ok none), (1, .ok none), (2, .ok none),
        (0, .ok none), (1, .ok none), (2, .ok none)] t := by
  have hgets : ((lookups 2 16).run
      (before ["public:a@alice", "public:b@alice", "public:c@Alice"])
      [(0, .ok none), (1, .ok none), (2, .ok none), (0, .ok none), (1, .ok none), (2, .ok none),
        (0, .ok none), (1, .ok none), (2, .ok none)]).map
      (fun t => t.tasks.countP (Task.getsFrom lower "@alice")) = some 3 := by
    decide
  obtain ⟨t, ht, hcount⟩ := Option.map_eq_some_iff.mp hgets
  refine ⟨t, ht, fun h => ?_⟩
  have hle := h.perAtSign "@alice"
  rw [hcount] at hle
  exact absurd hle (by decide)

end DirectPublicLookup
end NoPorts.PublicLookup
