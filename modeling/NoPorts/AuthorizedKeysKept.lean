import NoPorts.AuthorizedKeys

/-! No edit of `authorized_keys` is lost as long as each key the daemon is sent is appended at the
start of a line, away from the edits that take the lock. -/
namespace NoPorts.AuthorizedKeys
open Lib

namespace Task

/-- Asks for the removal of `line`. -/
def removes (line : List Char) : Task → Bool
  | deauthorize sessionId _ => (ephemeral sessionId).isSuffixOf line
  | _ => false

/-- Has asked for the removal of `line`, and rewritten the file since. -/
def hasRemoved (line : List Char) : Task → Bool
  | deauthorize sessionId pc =>
    (pc == .rewritten || pc == .closing || pc == .closed || pc == .done) &&
      (ephemeral sessionId).isSuffixOf line
  | _ => false

/-- Between the read of a deauthorisation and its last write. -/
def rewrites : Task → Bool
  | deauthorize _ pc =>
    match pc with
    | .read _ | .rewriting _ | .rewritten | .closing => true
    | _ => false
  | _ => false

/-- The line's end is still to be written. -/
def unclosed : Task → Bool
  | deauthorize _ pc => pc == .rewritten || pc == .closing
  | _ => false

/-- An authorisation that writes its key next. -/
def appendsNext : Task → Bool
  | authorize sshPublicKey _ _ _ pc =>
    match pc with
    | .read authKeysContent =>
      endsWithNewline authKeysContent && !contains authKeysContent sshPublicKey
    | .endedLine authKeysContent => !contains authKeysContent sshPublicKey
    | .appending => true
    | _ => false
  | _ => false

end Task

/-- `line` is of a session that some call deauthorises. -/
def deauthorized (tasks : List Task) (line : List Char) : Bool := tasks.any (·.removes line)

/-- Some call has removed what `line` is of. -/
def hasRemoved (tasks : List Task) (line : List Char) : Bool := tasks.any (·.hasRemoved line)

/-- What is to hold when all calls have completed. -/
structure NoEditLost (content : List Char) (s : State) : Prop where
  kept : ((lines content).filter fun line => !deauthorized s.tasks line).Sublist (lines s.shared.content)
  added : ∀ text ∈ s.shared.added, ∀ line ∈ lines text, deauthorized s.tasks line = false →
    line ∈ lines s.shared.content
  removed : ∀ line ∈ lines s.shared.content, deauthorized s.tasks line = false

/-- No line of `text` is of a session that has been deauthorised already. -/
def Fresh (s : State) (text : List Char) : Prop := ∀ line ∈ lines text, hasRemoved s.tasks line = false

/-- What the daemon is sent meets the start of a line, no deauthorisation that has read the file
without it, and no authorisation whose line it would run into. -/
structure MayAppend (s : State) (text : List Char) : Prop where
  atLineStart : AtLineStart s.shared.content
  rewrites : ∀ q ∈ s.tasks, q.rewrites = false
  ended : text.getLast? = some '\n' ∨ ∀ q ∈ s.tasks, q.appendsNext = false

/-- What is asked of a step. -/
def Config.Clear (d : Config) (s : State) (e : ℕ × Unit) : Prop :=
  match s.tasks[e.1]? with
  | some (.notify (some sshPublicKey) (.read authKeysContent)) =>
    contains authKeysContent sshPublicKey = false →
      MayAppend s (d.keyText sshPublicKey) ∧ Fresh s (d.keyText sshPublicKey)
  | some (.authorize sshPublicKey localSshdPort sessionId permissions .appending) =>
    Fresh s (authorizedText sshPublicKey localSshdPort sessionId permissions)
  | _ => True

/-! ### What holds in between -/

/-- The file's text once a line that is still to be ended has been ended. -/
def settled (s : State) : List Char :=
  s.shared.content ++ if s.tasks.any Task.unclosed then ['\n'] else []

/-- `NoEditLost` of `text`, what is still to be removed apart. -/
structure Lines (content : List Char) (tasks : List Task) (added : List (List Char)) (text : List Char) :
    Prop where
  kept : ((lines content).filter fun line => !deauthorized tasks line).Sublist (lines text)
  added : ∀ more ∈ added, ∀ line ∈ lines more, deauthorized tasks line = false → line ∈ lines text
  removed : ∀ line ∈ lines text, hasRemoved tasks line = false

/-- What a call relies on between its read and its writes. -/
structure Relies (content : List Char) (q : Task) : Prop where
  atLineStart : q.appendsNext = true → AtLineStart content
  read : ∀ sessionId seen, q = .deauthorize sessionId (.read seen) → seen = content
  rewriting : ∀ sessionId ls, q = .deauthorize sessionId (.rewriting ls) →
    ls = (lines content).filter fun line => !(ephemeral sessionId).isSuffixOf line

structure Inv (content : List Char) (s : State) : Prop where
  lines : Lines content s.tasks s.shared.added (settled s)
  relies : ∀ q ∈ s.tasks, Relies s.shared.content q

theorem unclosed_rewrites {q : Task} (h : q.unclosed = true) : q.rewrites = true := by
  cases q with
  | deauthorize sessionId pc => cases pc <;> simp [Task.unclosed, Task.rewrites] at h ⊢
  | notify value pc => cases h
  | authorize sshPublicKey localSshdPort sessionId permissions pc => cases h

theorem rewrites_holds {q : Task} (h : q.rewrites = true) : q.holds = true := by
  cases q with
  | deauthorize sessionId pc => cases pc <;> simp [Task.rewrites, Task.holds] at h ⊢
  | notify value pc => cases h
  | authorize sshPublicKey localSshdPort sessionId permissions pc => cases h

theorem appendsNext_holds {q : Task} (h : q.appendsNext = true) : q.holds = true := by
  cases q with
  | authorize sshPublicKey localSshdPort sessionId permissions pc =>
    cases pc <;> simp [Task.appendsNext, Task.holds] at h ⊢
  | notify value pc => cases h
  | deauthorize sessionId pc => cases h

/-- Away from the lock a call relies on nothing. -/
theorem relies_of_not_holds {q : Task} (h : q.holds = false) (content : List Char) : Relies content q := by
  refine ⟨fun hn => ?_, fun sessionId seen hq => ?_, fun sessionId ls hq => ?_⟩
  · rw [appendsNext_holds hn] at h
    cases h
  · subst hq
    cases h
  · subst hq
    cases h

/-- A file cut short by no call is what it will be. -/
theorem settled_eq {s : State} (h : ∀ q ∈ s.tasks, q.unclosed = false) : settled s = s.shared.content := by
  have hany : s.tasks.any Task.unclosed = false := by simpa using h
  rw [settled, hany]
  exact List.append_nil _

theorem settled_eq_newline {s : State} {q : Task} (hq : q ∈ s.tasks) (h : q.unclosed = true) :
    settled s = s.shared.content ++ ['\n'] := by
  have hany : s.tasks.any Task.unclosed = true := List.any_eq_true.mpr ⟨q, hq, h⟩
  rw [settled, hany]
  rfl

theorem hasRemoved_removes {q : Task} {line : List Char} (h : q.hasRemoved line = true) :
    q.removes line = true := by
  cases q with
  | deauthorize sessionId pc => exact (Bool.and_eq_true_iff.mp h).2
  | notify value pc => cases h
  | authorize sshPublicKey localSshdPort sessionId permissions pc => cases h

theorem not_hasRemoved_nil (tasks : List Task) : hasRemoved tasks [] = false := by
  apply List.any_eq_false.mpr
  intro q _ h
  cases q with
  | deauthorize sessionId pc =>
    have hne : ephemeral sessionId ≠ [] := by
      intro hnil
      have hlength := congrArg List.length hnil
      simp [ephemeral] at hlength
    have hsuffix := List.isSuffixOf_iff_suffix.mp (hasRemoved_removes h)
    exact hne (List.suffix_nil.mp hsuffix)
  | notify value pc => cases h
  | authorize sshPublicKey localSshdPort sessionId permissions pc => cases h

/-- The lines of a rewritten file. -/
theorem lines_rewritten (suffix text : List Char) :
    lines (joinLines ((lines text).filter fun l => !suffix.isSuffixOf l) ++ ['\n']) =
      if ((lines text).filter fun l => !suffix.isSuffixOf l) = [] then [[]]
      else (lines text).filter fun l => !suffix.isSuffixOf l :=
  lines_joinLines _ fun _ hl => unbroken_of_mem_lines (List.mem_filter.mp hl).1

namespace Lines
variable {content text more : List Char} {tasks tasks' : List Task} {added : List (List Char)}

/-- The same calls, none of which has removed anything since. -/
theorem retask (h : Lines content tasks added text) (hdeauth : ∀ l, deauthorized tasks' l = deauthorized tasks l)
    (hremoved : ∀ l ∈ lines text, hasRemoved tasks' l = true → hasRemoved tasks l = true) :
    Lines content tasks' added text := by
  refine ⟨?_, fun t ht l hl hn => h.added t ht l hl (hdeauth l ▸ hn), fun l hl => ?_⟩
  · simpa only [hdeauth] using h.kept
  · by_contra hn
    have hold := hremoved l hl (by simpa using hn)
    rw [h.removed l hl] at hold
    cases hold

theorem newline (h : Lines content tasks added text) : Lines content tasks added (text ++ ['\n']) := by
  refine ⟨h.kept.trans (sublist_lines_newline text), fun t ht l hl hn => ?_, fun l hl => ?_⟩
  · exact (sublist_lines_newline text).subset (h.added t ht l hl hn)
  · rcases mem_lines_newline hl with hl | rfl
    · exact h.removed l hl
    · exact not_hasRemoved_nil tasks

theorem append (h : Lines content tasks added text) (hstart : AtLineStart text)
    (hfresh : ∀ l ∈ lines more, hasRemoved tasks l = false) :
    Lines content tasks (added ++ [more]) (text ++ more) := by
  have hlines := lines_append hstart more
  refine ⟨?_, fun t ht l hl hn => ?_, fun l hl => ?_⟩
  · rw [hlines]
    exact h.kept.trans (List.sublist_append_left _ _)
  · rw [hlines]
    rcases List.mem_append.mp ht with ht | ht
    · exact List.mem_append_left _ (h.added t ht l hl hn)
    · rw [List.mem_singleton.mp ht] at hl
      exact List.mem_append_right _ hl
  · rw [hlines] at hl
    rcases List.mem_append.mp hl with hl | hl
    · exact h.removed l hl
    · exact hfresh l hl

/-- Lines of one session are left out of what was read. -/
theorem rewrite (h : Lines content tasks added text) {suffix : List Char}
    (hsuffix : ∀ l, suffix.isSuffixOf l = true → deauthorized tasks l = true) :
    Lines content tasks added
      (joinLines ((lines text).filter fun l => !suffix.isSuffixOf l) ++ ['\n']) := by
  have hjoined := lines_rewritten suffix text
  have hstays (l : List Char) (hn : deauthorized tasks l = false) : suffix.isSuffixOf l = false := by
    by_contra hsuf
    rw [hsuffix l (by simpa using hsuf)] at hn
    cases hn
  have hsub : ((lines text).filter fun l => !suffix.isSuffixOf l).Sublist
      (lines (joinLines ((lines text).filter fun l => !suffix.isSuffixOf l) ++ ['\n'])) := by
    rw [hjoined]
    split
    · rename_i hnil
      rw [hnil]
      exact List.nil_sublist _
    · exact List.Sublist.refl _
  refine ⟨?_, fun t ht l hl hn => ?_, fun l hl => ?_⟩
  · have hkept := h.kept.filter fun l => !suffix.isSuffixOf l
    rw [List.filter_filter] at hkept
    have hsame : ((lines content).filter fun l => !suffix.isSuffixOf l && !deauthorized tasks l) =
        (lines content).filter fun l => !deauthorized tasks l := by
      apply List.filter_congr
      intro l _
      cases hn : deauthorized tasks l
      · simp [hstays l hn]
      · simp
    exact (hsame ▸ hkept).trans hsub
  · apply hsub.subset
    rw [List.mem_filter, hstays l hn]
    exact ⟨h.added t ht l hl hn, rfl⟩
  · rw [hjoined] at hl
    split at hl
    · rw [List.mem_singleton.mp hl]
      exact not_hasRemoved_nil tasks
    · exact h.removed l (List.mem_filter.mp hl).1

end Lines

/-! ### One step -/

theorem any_set {α : Type*} {p : α → Bool} {xs : List α} {i : ℕ} {a b : α} (ha : xs[i]? = some a)
    (h : p b = p a) : (xs.set i b).any p = xs.any p := by
  induction xs generalizing i with
  | nil => rfl
  | cons x xs ih =>
    cases i with
    | zero =>
      obtain rfl := Option.some.inj ha
      rw [List.set_cons_zero, List.any_cons, List.any_cons, h]
    | succ i => rw [List.set_cons_succ, List.any_cons, List.any_cons, ih ha]

theorem mem_set_cases {α : Type*} {xs : List α} {i : ℕ} {b q : α} (h : q ∈ xs.set i b) :
    q = b ∨ ∃ j, j ≠ i ∧ xs[j]? = some q := by
  obtain ⟨j, hj⟩ := List.mem_iff_getElem?.mp h
  rcases getElem?_set_cases hj with ⟨-, rfl⟩ | ⟨hne, hq⟩
  · exact Or.inl rfl
  · exact Or.inr ⟨j, hne, hq⟩

section step
variable {content : List Char} {s : State} {i : ℕ} {pc pc' : Task}

theorem Lines.moved {tasks : List Task} {added : List (List Char)} {text : List Char}
    (h : Lines content tasks added text) (hpc : tasks[i]? = some pc)
    (hremoves : ∀ l, pc'.removes l = pc.removes l) (hremoved : ∀ l, pc'.hasRemoved l = pc.hasRemoved l) :
    Lines content (tasks.set i pc') added text := by
  apply h.retask
  · exact fun l => any_set hpc (hremoves l)
  · exact fun l _ hl => (any_set hpc (hremoved l)).symm.trans hl

theorem relies_authorize {sshPublicKey : String} {localSshdPort : ℤ} {sessionId permissions : String}
    {pc : AuthorizePc} {text : List Char}
    (h : (Task.authorize sshPublicKey localSshdPort sessionId permissions pc).appendsNext = true →
      AtLineStart text) :
    Relies text (.authorize sshPublicKey localSshdPort sessionId permissions pc) := by
  refine ⟨h, fun _ _ hq => ?_, fun _ _ hq => ?_⟩
  · cases hq
  · cases hq

theorem relies_deauthorize {sessionId : String} {pc : DeauthorizePc} {text : List Char}
    (hread : ∀ seen, pc = .read seen → seen = text)
    (hrewriting : ∀ ls, pc = .rewriting ls →
      ls = (lines text).filter fun line => !(ephemeral sessionId).isSuffixOf line) :
    Relies text (.deauthorize sessionId pc) := by
  refine ⟨fun hn => ?_, fun _ seen hq => ?_, fun _ ls hq => ?_⟩
  · cases hn
  · injection hq with _ hq
    exact hread seen hq
  · injection hq with hid hq
    exact hid ▸ hrewriting ls hq

/-- A step that writes nothing. -/
theorem Inv.quiet (h : Inv content s) (hpc : s.tasks[i]? = some pc)
    (hremoves : ∀ l, pc'.removes l = pc.removes l) (hremoved : ∀ l, pc'.hasRemoved l = pc.hasRemoved l)
    (hunclosed : pc'.unclosed = pc.unclosed) (hrelies : Relies s.shared.content pc') :
    Inv content ⟨s.shared, s.tasks.set i pc'⟩ := by
  refine ⟨?_, fun q hq => ?_⟩
  · rw [settled, any_set hpc hunclosed]
    exact h.lines.moved hpc hremoves hremoved
  · rcases mem_set_cases hq with rfl | ⟨j, -, hj⟩
    · exact hrelies
    · exact h.relies q (List.mem_of_getElem? hj)

/-- Nobody else is within the lock. -/
def Alone (s : State) (i : ℕ) : Prop := ∀ j q, j ≠ i → s.tasks[j]? = some q → q.holds = false

theorem Alone.unclosed (h : Alone s i) (hpc' : pc'.unclosed = false) :
    ∀ q ∈ s.tasks.set i pc', q.unclosed = false := by
  intro q hq
  rcases mem_set_cases hq with rfl | ⟨j, hj, hq⟩
  · exact hpc'
  · by_contra hn
    have hholds := rewrites_holds (unclosed_rewrites (by simpa using hn : q.unclosed = true))
    rw [h j q hj hq] at hholds
    cases hholds

theorem Alone.settled_eq (h : Alone s i) (hpc : s.tasks[i]? = some pc) (hunclosed : pc.unclosed = false) :
    settled s = s.shared.content := by
  apply AuthorizedKeys.settled_eq
  intro q hq
  obtain ⟨j, hj⟩ := List.mem_iff_getElem?.mp hq
  by_cases hji : j = i
  · subst hji
    rw [hpc] at hj
    rw [← Option.some.inj hj]
    exact hunclosed
  · exact h.unclosed hunclosed q (List.mem_iff_getElem?.mpr ⟨j, by
      rw [List.getElem?_set_ne fun hij => hji hij.symm]
      exact hj⟩)

theorem Alone.relies (h : Alone s i) {text : List Char} (hrelies : Relies text pc') :
    ∀ q ∈ s.tasks.set i pc', Relies text q := by
  intro q hq
  rcases mem_set_cases hq with rfl | ⟨j, hj, hq⟩
  · exact hrelies
  · exact relies_of_not_holds (h j q hj hq) text

/-- The end of the line an authorisation starts its own after. -/
theorem Inv.endingLine (h : Inv content s) (halone : Alone s i) {sshPublicKey : String}
    {localSshdPort : ℤ} {sessionId permissions : String} {authKeysContent : List Char}
    (hpc : s.tasks[i]? =
      some (.authorize sshPublicKey localSshdPort sessionId permissions (.endingLine authKeysContent))) :
    Inv content ⟨{ s.shared with content := s.shared.content ++ ['\n'] }, s.tasks.set i
      (.authorize sshPublicKey localSshdPort sessionId permissions (.endedLine authKeysContent))⟩ := by
  have hlines := h.lines
  rw [halone.settled_eq hpc rfl] at hlines
  refine ⟨?_, ?_⟩
  · rw [settled_eq (halone.unclosed rfl)]
    exact hlines.newline.moved hpc (fun _ => rfl) fun _ => rfl
  · apply halone.relies
    exact relies_authorize fun _ => Or.inr (by simp)

/-- The line of an authorisation. -/
theorem Inv.appending (h : Inv content s) (halone : Alone s i) {sshPublicKey : String}
    {localSshdPort : ℤ} {sessionId permissions : String}
    (hpc : s.tasks[i]? = some (.authorize sshPublicKey localSshdPort sessionId permissions .appending))
    (hfresh : Fresh s (authorizedText sshPublicKey localSshdPort sessionId permissions)) :
    Inv content
      ⟨⟨s.shared.content ++ authorizedText sshPublicKey localSshdPort sessionId permissions,
        s.shared.added ++ [authorizedText sshPublicKey localSshdPort sessionId permissions]⟩,
        s.tasks.set i (.authorize sshPublicKey localSshdPort sessionId permissions .appended)⟩ := by
  have hlines := h.lines
  rw [halone.settled_eq hpc rfl] at hlines
  have hstart := (h.relies _ (List.mem_of_getElem? hpc)).atLineStart rfl
  refine ⟨?_, ?_⟩
  · rw [settled_eq (halone.unclosed rfl)]
    exact (hlines.append hstart hfresh).moved hpc (fun _ => rfl) fun _ => rfl
  · apply halone.relies
    exact relies_authorize fun hn => by cases hn

/-- The rewriting of a deauthorisation. -/
theorem Inv.rewriting (h : Inv content s) (halone : Alone s i) {sessionId : String}
    {ls : List (List Char)} (hpc : s.tasks[i]? = some (.deauthorize sessionId (.rewriting ls))) :
    Inv content ⟨{ s.shared with content := joinLines ls },
      s.tasks.set i (.deauthorize sessionId .rewritten)⟩ := by
  have hlines := h.lines
  rw [halone.settled_eq hpc rfl] at hlines
  have hls := (h.relies _ (List.mem_of_getElem? hpc)).rewriting sessionId ls rfl
  have hlt := (List.getElem?_eq_some_iff.mp hpc).1
  have hmem : Task.deauthorize sessionId .rewritten ∈ s.tasks.set i (.deauthorize sessionId .rewritten) :=
    List.mem_iff_getElem?.mpr ⟨i, List.getElem?_set_self hlt⟩
  have hsuffix (l : List Char) (hl : (ephemeral sessionId).isSuffixOf l = true) :
      deauthorized s.tasks l = true := List.any_eq_true.mpr ⟨_, List.mem_of_getElem? hpc, hl⟩
  refine ⟨?_, ?_⟩
  · rw [settled_eq_newline hmem rfl]
    subst hls
    apply (hlines.rewrite hsuffix).retask
    · exact fun l => any_set hpc rfl
    · intro l hl hremoved
      obtain ⟨q, hq, hqremoved⟩ := List.any_eq_true.mp hremoved
      rcases mem_set_cases hq with rfl | ⟨j, -, hj⟩
      · -- the session just removed has no line left
        have hgone : (ephemeral sessionId).isSuffixOf l = true := hasRemoved_removes hqremoved
        rw [lines_rewritten] at hl
        split at hl
        · rw [List.mem_singleton.mp hl, not_hasRemoved_nil] at hremoved
          cases hremoved
        · have hkept := (List.mem_filter.mp hl).2
          rw [hgone] at hkept
          cases hkept
      · exact List.any_eq_true.mpr ⟨q, List.mem_of_getElem? hj, hqremoved⟩
  · apply halone.relies
    exact relies_deauthorize (fun _ hq => by cases hq) fun _ hq => by cases hq

/-- The last newline of a deauthorisation. -/
theorem Inv.closing (h : Inv content s) (halone : Alone s i) {sessionId : String}
    (hpc : s.tasks[i]? = some (.deauthorize sessionId .closing)) :
    Inv content ⟨{ s.shared with content := s.shared.content ++ ['\n'] },
      s.tasks.set i (.deauthorize sessionId .closed)⟩ := by
  have hlines := h.lines
  rw [settled_eq_newline (List.mem_of_getElem? hpc) rfl] at hlines
  refine ⟨?_, ?_⟩
  · rw [settled_eq (halone.unclosed rfl)]
    exact hlines.moved hpc (fun _ => rfl) fun _ => rfl
  · apply halone.relies
    exact relies_deauthorize (fun _ hq => by cases hq) fun _ hq => by cases hq

/-- A key the daemon is sent. -/
theorem Inv.notify (h : Inv content s) {value : Option String} {authKeysContent text : List Char}
    (hpc : s.tasks[i]? = some (.notify value (.read authKeysContent))) (hmay : MayAppend s text)
    (hfresh : Fresh s text) :
    Inv content ⟨⟨s.shared.content ++ text, s.shared.added ++ [text]⟩,
      s.tasks.set i (.notify value .done)⟩ := by
  have hclosed : ∀ q ∈ s.tasks, q.unclosed = false := by
    intro q hq
    by_contra hn
    have hrewrites := unclosed_rewrites (by simpa using hn : q.unclosed = true)
    rw [hmay.rewrites q hq] at hrewrites
    cases hrewrites
  have hlines := h.lines
  rw [settled_eq hclosed] at hlines
  refine ⟨?_, fun q hq => ?_⟩
  · have hclosed' : ∀ q ∈ s.tasks.set i (.notify value .done), q.unclosed = false := by
      intro q hq
      rcases mem_set_cases hq with rfl | ⟨j, -, hj⟩
      · rfl
      · exact hclosed q (List.mem_of_getElem? hj)
    rw [settled_eq hclosed']
    exact (hlines.append hmay.atLineStart hfresh).moved hpc (fun _ => rfl) fun _ => rfl
  · rcases mem_set_cases hq with rfl | ⟨j, -, hj⟩
    · exact relies_of_not_holds rfl _
    · have hmem := List.mem_of_getElem? hj
      have hnot := hmay.rewrites q hmem
      refine ⟨fun hn => ?_, fun sessionId seen hq => ?_, fun sessionId ls hq => ?_⟩
      · -- its line comes after the end of this one
        rcases hmay.ended with hended | hnone
        · right
          rw [List.getLast?_append, hended]
          rfl
        · rw [hnone q hmem] at hn
          cases hn
      · subst hq
        cases hnot
      · subst hq
        cases hnot

theorem step_notify {d : Config} {value : Option String} {npc : NotifyPc} {r : KeysFile × NotifyPc}
    (h : Inv content s) (hpc : s.tasks[i]? = some (.notify value npc)) (hclear : d.Clear s (i, ()))
    (hr : d.notify value s.shared npc = some r) :
    Inv content ⟨r.1, s.tasks.set i (.notify value r.2)⟩ := by
  have hquiet (npc' : NotifyPc) : Inv content ⟨s.shared, s.tasks.set i (.notify value npc')⟩ :=
    h.quiet hpc (fun _ => rfl) (fun _ => rfl) rfl (relies_of_not_holds rfl _)
  cases npc with
  | called =>
    cases value with
    | none =>
      obtain rfl := Option.some.inj hr
      exact hquiet _
    | some sshPublicKey =>
      obtain rfl := Option.some.inj hr
      exact hquiet _
  | reading =>
    obtain rfl := Option.some.inj hr
    exact hquiet _
  | read authKeysContent =>
    cases value with
    | none => cases hr
    | some sshPublicKey =>
      rw [Config.notify] at hr
      split at hr
      · obtain rfl := Option.some.inj hr
        exact hquiet _
      · rename_i hnew
        obtain rfl := Option.some.inj hr
        rw [Config.Clear, hpc] at hclear
        obtain ⟨hmay, hfresh⟩ := hclear (by simpa using hnew)
        exact h.notify hpc hmay hfresh
  | done => cases hr

theorem step_authorize {d : Config} {sshPublicKey : String} {localSshdPort : ℤ}
    {sessionId permissions : String} {apc : AuthorizePc} {r : KeysFile × AuthorizePc}
    (h : Inv content s)
    (hpc : s.tasks[i]? = some (.authorize sshPublicKey localSshdPort sessionId permissions apc))
    (halone : (Task.authorize sshPublicKey localSshdPort sessionId permissions apc).holds = true →
      Alone s i) (hclear : d.Clear s (i, ()))
    (hr : authorizePublicKey sshPublicKey localSshdPort sessionId permissions s.shared apc = some r) :
    Inv content
      ⟨r.1, s.tasks.set i (.authorize sshPublicKey localSshdPort sessionId permissions r.2)⟩ := by
  have hquiet (apc' : AuthorizePc)
      (hstart : (Task.authorize sshPublicKey localSshdPort sessionId permissions apc').appendsNext = true →
        AtLineStart s.shared.content) :
      Inv content ⟨s.shared,
        s.tasks.set i (.authorize sshPublicKey localSshdPort sessionId permissions apc')⟩ :=
    h.quiet hpc (fun _ => rfl) (fun _ => rfl) rfl (relies_authorize hstart)
  have hstart := (h.relies _ (List.mem_of_getElem? hpc)).atLineStart
  have hnext {authKeysContent : List Char}
      (hline : contains authKeysContent sshPublicKey = false → AtLineStart s.shared.content) :
      (Task.authorize sshPublicKey localSshdPort sessionId permissions
        (appendUnlessContained sshPublicKey authKeysContent)).appendsNext = true →
        AtLineStart s.shared.content := by
    intro hn
    rw [appendUnlessContained] at hn
    split at hn
    · cases hn
    · rename_i hnew
      exact hline (by simpa using hnew)
  cases apc with
  | called =>
    obtain rfl := Option.some.inj hr
    apply hquiet
    intro hn
    split at hn <;> cases hn
  | waiting =>
    obtain rfl := Option.some.inj hr
    exact hquiet _ fun hn => by cases hn
  | reading =>
    obtain rfl := Option.some.inj hr
    apply hquiet
    intro hn
    have hends := (Bool.and_eq_true_iff.mp hn).1
    exact Or.inr (by simpa [endsWithNewline] using hends)
  | read authKeysContent =>
    obtain rfl := Option.some.inj hr
    apply hquiet
    intro hn
    split at hn
    · rename_i hends
      refine hnext (fun hnew => hstart ?_) hn
      rw [Task.appendsNext, hends, hnew]
      rfl
    · cases hn
  | endingLine authKeysContent =>
    obtain rfl := Option.some.inj hr
    exact h.endingLine (halone rfl) hpc
  | endedLine authKeysContent =>
    obtain rfl := Option.some.inj hr
    apply hquiet
    apply hnext
    intro hnew
    apply hstart
    rw [Task.appendsNext, hnew]
    rfl
  | appending =>
    obtain rfl := Option.some.inj hr
    rw [Config.Clear, hpc] at hclear
    exact h.appending (halone rfl) hpc hclear
  | appended =>
    obtain rfl := Option.some.inj hr
    exact hquiet _ fun hn => by cases hn
  | done => cases hr

theorem step_deauthorize {sessionId : String} {dpc : DeauthorizePc} {r : KeysFile × DeauthorizePc}
    (h : Inv content s) (hpc : s.tasks[i]? = some (.deauthorize sessionId dpc))
    (halone : (Task.deauthorize sessionId dpc).holds = true → Alone s i)
    (hr : deauthorizePublicKey sessionId s.shared dpc = some r) :
    Inv content ⟨r.1, s.tasks.set i (.deauthorize sessionId r.2)⟩ := by
  have hmem := List.mem_of_getElem? hpc
  cases dpc with
  | called =>
    obtain rfl := Option.some.inj hr
    exact h.quiet hpc (fun _ => rfl) (fun _ => rfl) rfl (relies_of_not_holds rfl _)
  | waiting =>
    obtain rfl := Option.some.inj hr
    refine h.quiet hpc (fun _ => rfl) (fun _ => rfl) rfl ?_
    exact relies_deauthorize (fun _ hq => by cases hq) fun _ hq => by cases hq
  | reading =>
    obtain rfl := Option.some.inj hr
    refine h.quiet hpc (fun _ => rfl) (fun _ => rfl) rfl ?_
    apply relies_deauthorize
    · intro seen hq
      injection hq with hq
      exact hq.symm
    · intro ls hq
      cases hq
  | read seen =>
    obtain rfl := Option.some.inj hr
    refine h.quiet hpc (fun _ => rfl) (fun _ => rfl) rfl ?_
    apply relies_deauthorize
    · intro seen hq
      cases hq
    · intro ls hq
      injection hq with hq
      rw [← hq, (h.relies _ hmem).read sessionId seen rfl]
  | rewriting ls =>
    obtain rfl := Option.some.inj hr
    exact h.rewriting (halone rfl) hpc
  | rewritten =>
    obtain rfl := Option.some.inj hr
    refine h.quiet hpc (fun _ => rfl) (fun _ => rfl) rfl ?_
    exact relies_deauthorize (fun _ hq => by cases hq) fun _ hq => by cases hq
  | closing =>
    obtain rfl := Option.some.inj hr
    exact h.closing (halone rfl) hpc
  | closed =>
    obtain rfl := Option.some.inj hr
    exact h.quiet hpc (fun _ => rfl) (fun _ => rfl) rfl (relies_of_not_holds rfl _)
  | done => cases hr

end step

/-! ### Whole runs -/

/-- The lock alone: no more is asked of the file or of its holder. -/
theorem keeps_lock (d : Config) : d.edits.Keeps (fun _ => True) fun _ _ => True := by
  refine ⟨fun file pc x file' pc' hr hw hh => ⟨?_, fun _ => trivial, fun _ _ => trivial⟩,
    fun _ _ _ _ _ _ _ _ => ⟨trivial, fun _ => trivial⟩⟩
  cases pc with
  | notify value npc =>
    obtain ⟨r, -, hr⟩ := Option.map_eq_some_iff.mp hr
    obtain ⟨-, rfl⟩ := Prod.mk.inj hr
    rfl
  | authorize sshPublicKey localSshdPort sessionId permissions apc =>
    obtain ⟨r, hcall, hpc'⟩ := Option.map_eq_some_iff.mp hr
    obtain ⟨-, rfl⟩ := Prod.mk.inj hpc'
    cases apc with
    | called =>
      obtain rfl := Option.some.inj hcall
      change (Task.authorize sshPublicKey localSshdPort sessionId permissions
        (if looksLikeKey sshPublicKey then .waiting else .done)).holds = false
      split <;> rfl
    | done => cases hcall
    | waiting => cases hw
    | reading => cases hh
    | read c => cases hh
    | endingLine c => cases hh
    | endedLine c => cases hh
    | appending => cases hh
    | appended => cases hh
  | deauthorize sessionId dpc =>
    obtain ⟨r, hcall, hpc'⟩ := Option.map_eq_some_iff.mp hr
    obtain ⟨-, rfl⟩ := Prod.mk.inj hpc'
    cases dpc with
    | called =>
      obtain rfl := Option.some.inj hcall
      rfl
    | done => cases hcall
    | waiting => cases hw
    | reading => cases hh
    | read c => cases hh
    | rewriting ls => cases hh
    | rewritten => cases hh
    | closing => cases hh
    | closed => cases hh

theorem step_keeps_inv {d : Config} {content : List Char} {s t : State} {e : ℕ × Unit} (h : Inv content s)
    (hlock : d.edits.Owned (fun _ => True) (fun _ _ => True) s) (hclear : d.Clear s e)
    (hstep : d.edits.step s e = some t) : Inv content t := by
  obtain ⟨pc, r, hpc, -, hr, rfl⟩ := d.edits.step_some hstep
  have halone (hholds : pc.holds = true) : Alone s e.1 := by
    intro j q hj hq
    by_contra hn
    have hboth : q.holds = true := by simpa using hn
    exact hj (hlock.single j e.1 q pc hq hpc hboth hholds)
  cases pc with
  | notify value npc =>
    obtain ⟨r, hcall, rfl⟩ := Option.map_eq_some_iff.mp hr
    exact step_notify h hpc hclear hcall
  | authorize sshPublicKey localSshdPort sessionId permissions apc =>
    obtain ⟨r, hcall, rfl⟩ := Option.map_eq_some_iff.mp hr
    exact step_authorize h hpc halone hclear hcall
  | deauthorize sessionId dpc =>
    obtain ⟨r, hcall, rfl⟩ := Option.map_eq_some_iff.mp hr
    exact step_deauthorize h hpc halone hcall

/-- A call not made yet is within no lock and has done nothing. -/
theorem call_initial (q : Task) : q.call.holds = false ∧ ∀ l, q.call.hasRemoved l = false := by
  cases q <;> exact ⟨rfl, fun _ => rfl⟩

theorem inv_start (content : List Char) (calls : List Task) : Inv content (start content calls) := by
  have hcalls {q : Task} (hq : q ∈ (start content calls).tasks) : ∃ p : Task, q = p.call := by
    obtain ⟨p, -, rfl⟩ := List.mem_map.mp hq
    exact ⟨p, rfl⟩
  refine ⟨?_, fun q hq => ?_⟩
  · have hclosed : ∀ q ∈ (start content calls).tasks, q.unclosed = false := by
      intro q hq
      obtain ⟨p, rfl⟩ := hcalls hq
      cases p <;> rfl
    rw [settled_eq hclosed]
    refine ⟨List.filter_sublist, fun _ ht => absurd ht List.not_mem_nil, fun l _ => ?_⟩
    apply List.any_eq_false.mpr
    intro q hq
    obtain ⟨p, rfl⟩ := hcalls hq
    rw [(call_initial p).2 l]
    exact Bool.false_ne_true
  · obtain ⟨p, rfl⟩ := hcalls hq
    exact relies_of_not_holds (call_initial p).1 _

theorem hasRemoved_of_done {q : Task} (h : q.isDone = true) (l : List Char) :
    q.hasRemoved l = q.removes l := by
  cases q with
  | deauthorize sessionId pc =>
    have hpc : pc = .done := by simpa [Task.isDone] using h
    subst hpc
    rfl
  | notify value pc => rfl
  | authorize sshPublicKey localSshdPort sessionId permissions pc => rfl

/-- No edit is lost by calls whose steps are clear of each other, in any interleaving. -/
theorem noEditLost_of_clear {d : Config} {content : List Char} {calls : List Task} {es : List (ℕ × Unit)}
    {t : State} (hclear : d.edits.machine.Meets d.Clear (start content calls) es)
    (hr : d.edits.machine.run (start content calls) es = some t) (hdone : ∀ q ∈ t.tasks, q.isDone = true) :
    NoEditLost content t := by
  have hstart : ∀ pc ∈ (start content calls).tasks, d.edits.holds pc = false := by
    intro pc hpc
    obtain ⟨p, -, rfl⟩ := List.mem_map.mp hpc
    exact (call_initial p).1
  have hinv : Inv content t := by
    apply d.edits.machine.run_induction_of_meets (I := fun _ u => Inv content u) (inv_start content calls)
      ?_ hclear hr
    intro es e u v hu hinv hclear hstep
    exact step_keeps_inv hinv (d.edits.owned_run (keeps_lock d) trivial hstart hu) hclear hstep
  have hsettled : settled t = t.shared.content := by
    apply settled_eq
    intro q hq
    have hd := hdone q hq
    cases q with
    | deauthorize sessionId pc =>
      have hpc : pc = .done := by simpa [Task.isDone] using hd
      subst hpc
      rfl
    | notify value pc => rfl
    | authorize sshPublicKey localSshdPort sessionId permissions pc => rfl
  have hlines := hinv.lines
  rw [hsettled] at hlines
  refine ⟨hlines.kept, hlines.added, fun l hl => ?_⟩
  have hremoved := List.any_eq_false.mp (hlines.removed l hl)
  apply List.any_eq_false.mpr
  intro q hq hremoves
  exact hremoved q hq ((hasRemoved_of_done (hdone q hq) l).trans hremoves)

/-! ### A key the daemon is sent while a session's key is removed -/

def sampleConfig : Config := ⟨true, ""⟩

def oldKey : List Char := "ssh-rsa OLD".toList

/-- A key is sent, and a session ends. -/
def sampleCalls : List Task := [.notify (some "ssh-rsa NEW") .called, .deauthorize "s" .called]

/-- The key is appended between the read and the rewriting. -/
def overtaken : List (ℕ × Unit) := [(1, ()), (1, ()), (1, ()), (1, ()), (0, ()), (0, ()), (0, ()),
  (1, ()), (1, ()), (1, ()), (1, ())]

/-- The key is appended before the read. -/
def inTurn : List (ℕ × Unit) := [(0, ()), (0, ()), (0, ()), (1, ()), (1, ()), (1, ()), (1, ()),
  (1, ()), (1, ()), (1, ()), (1, ())]

/-- The key is lost; and after a line without its end, so is that line. -/
theorem edit_lost :
    (∃ t, sampleConfig.edits.machine.run (start (oldKey ++ ['\n']) sampleCalls) overtaken = some t ∧
      (∀ q ∈ t.tasks, q.isDone = true) ∧ t.shared.added = ["ssh-rsa NEW".toList] ∧
        t.shared.content = oldKey ++ ['\n'] ∧ ¬NoEditLost (oldKey ++ ['\n']) t) ∧
    ∃ t, sampleConfig.edits.machine.run (start oldKey sampleCalls) inTurn = some t ∧
      (∀ q ∈ t.tasks, q.isDone = true) ∧ t.shared.content = oldKey ++ "ssh-rsa NEW\n".toList ∧
        ¬NoEditLost oldKey t := by
  refine ⟨⟨_, rfl, by decide, rfl, rfl, fun h => ?_⟩, ⟨_, rfl, by decide, rfl, fun h => ?_⟩⟩
  · have hline := h.added _ List.mem_cons_self "ssh-rsa NEW".toList (by decide) (by decide)
    exact absurd hline (by decide)
  · have hline := h.kept.subset (a := oldKey) (by decide)
    exact absurd hline (by decide)

theorem noEditLost_of_clear_sample : ∃ t,
    sampleConfig.edits.machine.run (start (oldKey ++ ['\n']) sampleCalls) inTurn = some t ∧
      t.shared.content = oldKey ++ "\nssh-rsa NEW\n".toList ∧ NoEditLost (oldKey ++ ['\n']) t := by
  have hrun : sampleConfig.edits.machine.run (start (oldKey ++ ['\n']) sampleCalls) inTurn = some _ := rfl
  have hclear : sampleConfig.edits.machine.Meets sampleConfig.Clear
      (start (oldKey ++ ['\n']) sampleCalls) inTurn := by
    apply Machine.meets_cons _ trivial rfl
    apply Machine.meets_cons _ trivial rfl
    apply Machine.meets_cons _ ?_ rfl
    · -- the removal of the session's key, step by step
      iterate 8 apply Machine.meets_cons _ trivial rfl
      exact trivial
    · intro _
      refine ⟨⟨Or.inr rfl, by decide, Or.inr (by decide)⟩, ?_⟩
      intro line _
      rfl
  exact ⟨_, hrun, by decide, noEditLost_of_clear hclear hrun (by decide)⟩

end NoPorts.AuthorizedKeys
