import Mathlib.Logic.Relation
import NoPorts.CDaemonPolicy
import NoPorts.Lib.CString
import NoPorts.Lib.Utf8

/-! `sshnpd_normalize_atsign` over the bytes it reads and the buffer it writes. -/
namespace NoPorts.CDaemon
open Lib Lib.Utf8

def isReservedByte (c : UInt8) : Bool := reservedCharacters.any fun r => r.toNat == c.toNat

def isWhitespaceOrControlByte (c : UInt8) : Bool := c ≤ 0x1F || c == 0x7F || c == 0x20

/-- ASCII letters in lower case. -/
def lowerByte (c : UInt8) : UInt8 := if 0x41 ≤ c ∧ c ≤ 0x5A then c + 0x20 else c

/-- What is read from `start` on. -/
def afterAt (input : List UInt8) : List UInt8 :=
  if input.head? = some 0x40 then input.drop 1 else input

/-- The loop over what follows a leading `@`, with `o` bytes written. The answer is the number
of bytes written in the end, or none where the input is refused, and the buffer; a write outside
of the buffer is none. -/
def normalizeBytes (outLen : ℕ) : List UInt8 → List UInt8 → ℕ → Option (Option ℕ × List UInt8)
  | [], out, o => some (some o, out)
  | c :: rest, out, o =>
    if c = 0x40 then some (none, out)
    else if isWhitespaceOrControlByte c || isReservedByte c then some (none, out)
    else if c = 0x2E then normalizeBytes outLen rest out o
    else if outLen ≤ o + 1 then some (none, out)
    else
      match store out o [lowerByte c] with
      | none => none
      | some out => normalizeBytes outLen rest out (o + 1)

/-- The return code and the buffer. `none` for a pointer is a null one; the input is the bytes
before its terminating null. -/
def sshnpdNormalizeAtsign (input out : Option (List UInt8)) (outLen : ℕ) :
    Option (ℕ × Option (List UInt8)) :=
  match input, out with
  | some input, some out =>
    if outLen < 2 then some (1, some out)
    else if input = [] then some (1, some out)
    else
      match store out 0 [0x40] with
      | none => none
      | some out =>
        match normalizeBytes outLen (afterAt input) out 1 with
        | none => none
        | some (none, out) => some (1, some out)
        | some (some o, out) =>
          if o = 1 then some (1, some out)
          else
            match store out o [0] with
            | none => none
            | some out => some (0, some out)
  | _, out => some (1, out)

/-! ### What is accepted, and what is made of it -/

/-- A byte that is kept, in lower case, or left out. -/
def IsAllowed (c : UInt8) : Prop :=
  c ≠ 0x40 ∧ isWhitespaceOrControlByte c = false ∧ isReservedByte c = false

instance (c : UInt8) : Decidable (IsAllowed c) := inferInstanceAs (Decidable (_ ∧ _ ∧ _))

/-- The bytes written after the `@`. -/
def keptBytes (s : List UInt8) : List UInt8 := (s.filter (· ≠ 0x2E)).map lowerByte

def normalBytes (input : List UInt8) : List UInt8 := 0x40 :: keptBytes (afterAt input)

/-- Every byte is allowed, something is kept, and there is room for it. -/
structure Accepts (outLen : ℕ) (input : List UInt8) : Prop where
  allowed : ∀ c ∈ afterAt input, IsAllowed c
  kept : keptBytes (afterAt input) ≠ []
  room : (normalBytes input).length + 1 ≤ outLen

theorem keptBytes_dot (s : List UInt8) : keptBytes (0x2E :: s) = keptBytes s := rfl

theorem keptBytes_cons {c : UInt8} (hc : c ≠ 0x2E) (s : List UInt8) :
    keptBytes (c :: s) = lowerByte c :: keptBytes s := by
  rw [keptBytes, List.filter_cons, if_pos (decide_eq_true hc), List.map_cons, keptBytes]

theorem keptBytes_append (s t : List UInt8) : keptBytes (s ++ t) = keptBytes s ++ keptBytes t := by
  simp only [keptBytes, List.filter_append, List.map_append]

theorem lowerByte_idem (c : UInt8) : lowerByte (lowerByte c) = lowerByte c := by
  refine forall_uint8 (p := fun c => lowerByte (lowerByte c) = lowerByte c) ?_ c
  decide +kernel

theorem lowerByte_ne_dot {c : UInt8} : c ≠ 0x2E → lowerByte c ≠ 0x2E := by
  refine forall_uint8 (p := fun c => c ≠ 0x2E → lowerByte c ≠ 0x2E) ?_ c
  decide +kernel

theorem IsAllowed.lowerByte {c : UInt8} : IsAllowed c → IsAllowed (lowerByte c) := by
  refine forall_uint8 (p := fun c => IsAllowed c → IsAllowed (CDaemon.lowerByte c)) ?_ c
  decide +kernel

theorem not_allowed_zero : ¬IsAllowed 0 := by decide +kernel

theorem mem_keptBytes {s : List UInt8} (h : ∀ c ∈ s, IsAllowed c) :
    ∀ c ∈ keptBytes s, IsAllowed c := by
  intro c hc
  obtain ⟨d, hd, rfl⟩ := List.mem_map.mp hc
  exact (h d (List.mem_of_mem_filter hd)).lowerByte

/-- What was kept is kept as it is. -/
theorem keptBytes_idem (s : List UInt8) : keptBytes (keptBytes s) = keptBytes s := by
  have hdots : (keptBytes s).filter (· ≠ 0x2E) = keptBytes s := by
    refine List.filter_eq_self.mpr fun c hc => ?_
    obtain ⟨d, hd, rfl⟩ := List.mem_map.mp hc
    exact decide_eq_true (lowerByte_ne_dot (of_decide_eq_true (List.mem_filter.mp hd).2))
  have hlower : (keptBytes s).map lowerByte = keptBytes s := by
    rw [keptBytes, List.map_map]
    exact List.map_congr_left fun c _ => lowerByte_idem c
  calc keptBytes (keptBytes s) = ((keptBytes s).filter (· ≠ 0x2E)).map lowerByte := rfl
    _ = (keptBytes s).map lowerByte := by rw [hdots]
    _ = keptBytes s := hlower

theorem afterAt_normalBytes (input : List UInt8) :
    afterAt (normalBytes input) = keptBytes (afterAt input) := rfl

theorem normalBytes_idem (input : List UInt8) :
    normalBytes (normalBytes input) = normalBytes input := by
  rw [normalBytes, afterAt_normalBytes, keptBytes_idem, ← normalBytes]

theorem Accepts.normalBytes {outLen : ℕ} {input : List UInt8} (h : Accepts outLen input) :
    Accepts outLen (normalBytes input) where
  allowed := mem_keptBytes h.allowed
  kept := by
    rw [afterAt_normalBytes, keptBytes_idem]
    exact h.kept
  room := by
    rw [normalBytes_idem]
    exact h.room

theorem Accepts.zero_not_mem {outLen : ℕ} {input : List UInt8} (h : Accepts outLen input) :
    0 ∉ CDaemon.normalBytes input := by
  intro hmem
  rcases List.mem_cons.mp hmem with hat | hmem
  · cases hat
  · exact not_allowed_zero (mem_keptBytes h.allowed 0 hmem)

/-! ### The loop and the function -/

/-- What the loop leaves: the same buffer but for its first `outLen` bytes, and at the end of
the input what was kept of it. -/
structure Looped (outLen : ℕ) (s out : List UInt8) (o : ℕ) (r : Option ℕ) (out' : List UInt8) :
    Prop where
  length : out'.length = out.length
  rest : out'.drop outLen = out.drop outLen
  isSome : r.isSome ↔ (∀ c ∈ s, IsAllowed c) ∧ o + (keptBytes s).length + 1 ≤ outLen
  written : ∀ o' ∈ r, o' = o + (keptBytes s).length ∧ out'.take o' = out.take o ++ keptBytes s

theorem Looped.refused {outLen o : ℕ} {s out : List UInt8}
    (h : (∀ c ∈ s, IsAllowed c) → outLen ≤ o + (keptBytes s).length) :
    Looped outLen s out o none out where
  length := rfl
  rest := rfl
  isSome := by
    refine iff_of_false Bool.false_ne_true ?_
    rintro ⟨hall, hroom⟩
    have hle := h hall
    omega
  written := fun o' ho' => absurd ho' (Option.not_mem_none o')

theorem normalizeBytes_spec (outLen : ℕ) (s out : List UInt8) (o : ℕ) (ho : o < outLen)
    (hout : outLen ≤ out.length) :
    ∃ r out', normalizeBytes outLen s out o = some (r, out') ∧ Looped outLen s out o r out' := by
  induction s generalizing out o with
  | nil =>
    refine ⟨some o, out, rfl, rfl, rfl, ?_, ?_⟩
    · exact iff_of_true rfl ⟨fun c hc => absurd hc List.not_mem_nil, ho⟩
    · rintro o' ⟨rfl⟩
      exact ⟨rfl, (List.append_nil _).symm⟩
  | cons c rest ih =>
    rw [normalizeBytes]
    by_cases hallowed : IsAllowed c
    · obtain ⟨hat, hspace, hreserved⟩ := id hallowed
      rw [if_neg hat, hspace, hreserved, Bool.or_false, if_neg Bool.false_ne_true]
      by_cases hdot : c = 0x2E
      · subst hdot
        obtain ⟨r, out', heq, hlooped⟩ := ih out o ho hout
        refine ⟨r, out', by rw [if_pos rfl, heq], hlooped.length, hlooped.rest, ?_, ?_⟩
        · rw [hlooped.isSome, keptBytes_dot, List.forall_mem_cons]
          exact and_congr_left' ⟨fun h => ⟨hallowed, h⟩, fun h => h.2⟩
        · exact hlooped.written
      · rw [if_neg hdot]
        by_cases hroom : outLen ≤ o + 1
        · refine ⟨none, out, if_pos hroom, .refused fun _ => ?_⟩
          rw [keptBytes_cons hdot, List.length_cons]
          omega
        · have hfits : o + [lowerByte c].length ≤ out.length := by
            rw [List.length_singleton]
            omega
          obtain ⟨stored, hstore, hlen, htake⟩ := store_of_le hfits
          have hdrop := drop_of_store hstore (n := outLen) (by rw [List.length_singleton]; omega)
          obtain ⟨r, out', heq, hlooped⟩ := ih stored (o + 1) (by omega) (by omega)
          refine ⟨r, out', ?_, hlooped.length.trans hlen, hlooped.rest.trans hdrop, ?_, ?_⟩
          · rw [if_neg hroom, hstore]
            exact heq
          · rw [hlooped.isSome, keptBytes_cons hdot, List.forall_mem_cons, List.length_cons,
              Nat.add_right_comm o 1, Nat.add_assoc o]
            exact and_congr_left' ⟨fun h => ⟨hallowed, h⟩, fun h => h.2⟩
          · intro o' ho'
            obtain ⟨hcount, hwritten⟩ := hlooped.written o' ho'
            rw [keptBytes_cons hdot, List.length_cons]
            refine ⟨by omega, ?_⟩
            rw [hwritten, ← List.length_singleton (a := lowerByte c), htake, List.append_assoc,
              List.singleton_append]
    · refine ⟨none, out, ?_, .refused fun hall => absurd (hall c List.mem_cons_self) hallowed⟩
      by_cases hat : c = 0x40
      · rw [if_pos hat]
      · rw [if_neg hat]
        refine if_pos ?_
        by_contra hnot
        rw [Bool.or_eq_true, not_or, Bool.not_eq_true, Bool.not_eq_true] at hnot
        exact hallowed ⟨hat, hnot⟩

/-- A call writes inside the first `outLen` bytes; it succeeds on what it accepts, and then
leaves the result there with its terminating null. -/
structure Called (outLen : ℕ) (input out : List UInt8) (rc : ℕ) (out' : List UInt8) : Prop where
  length : out'.length = out.length
  rest : out'.drop outLen = out.drop outLen
  accepts : rc = 0 ↔ Accepts outLen input
  written : rc = 0 → out'.take ((normalBytes input).length + 1) = normalBytes input ++ [0]

theorem Called.refused {outLen : ℕ} {input out out' : List UInt8}
    (hlen : out'.length = out.length) (hrest : out'.drop outLen = out.drop outLen)
    (h : ¬Accepts outLen input) : Called outLen input out 1 out' where
  length := hlen
  rest := hrest
  accepts := iff_of_false (by decide) h
  written := fun hrc => absurd hrc (by decide)

theorem Accepts.ne_nil {outLen : ℕ} {input : List UInt8} (h : Accepts outLen input) :
    input ≠ [] := by
  rintro rfl
  exact h.kept rfl

theorem sshnpdNormalizeAtsign_spec {outLen : ℕ} (input : List UInt8) {out : List UInt8}
    (hout : outLen ≤ out.length) :
    ∃ rc out', sshnpdNormalizeAtsign (some input) (some out) outLen = some (rc, some out') ∧
      Called outLen input out rc out' := by
  simp only [sshnpdNormalizeAtsign]
  by_cases hshort : outLen < 2
  · refine ⟨1, out, if_pos hshort, .refused rfl rfl fun h => ?_⟩
    have hroom := h.room
    rw [CDaemon.normalBytes, List.length_cons] at hroom
    omega
  by_cases hempty : input = []
  · exact ⟨1, out, by rw [if_neg hshort, if_pos hempty],
      .refused rfl rfl fun h => h.ne_nil hempty⟩
  rw [if_neg hshort, if_neg hempty]
  have hfits : 0 + [(0x40 : UInt8)].length ≤ out.length := by
    rw [List.length_singleton]
    omega
  obtain ⟨started, hstore, hlen, htake⟩ := store_of_le hfits
  have hdrop := drop_of_store hstore (n := outLen) (by rw [List.length_singleton]; omega)
  obtain ⟨r, out', heq, hlooped⟩ :=
    normalizeBytes_spec outLen (afterAt input) started 1 (by omega) (by omega)
  have hlen' := hlooped.length.trans hlen
  have hrest := hlooped.rest.trans hdrop
  simp only [hstore, heq]
  cases r with
  | none =>
    refine ⟨1, out', rfl, .refused hlen' hrest fun h => ?_⟩
    have hroom := h.room
    rw [CDaemon.normalBytes, List.length_cons] at hroom
    exact absurd (hlooped.isSome.mpr ⟨h.allowed, by omega⟩) Bool.false_ne_true
  | some o =>
    obtain ⟨hallowed, hroom⟩ := hlooped.isSome.mp rfl
    obtain ⟨ho, hwritten⟩ := hlooped.written o rfl
    simp only
    by_cases hone : o = 1
    · rw [if_pos hone]
      refine ⟨1, out', rfl, .refused hlen' hrest fun h => h.kept ?_⟩
      exact List.length_eq_zero_iff.mp (by omega)
    · rw [if_neg hone]
      have hend : o + [(0 : UInt8)].length ≤ out'.length := by
        rw [List.length_singleton]
        omega
      obtain ⟨ended, hstore', hlenEnd, htakeEnd⟩ := store_of_le hend
      have hdropEnd := drop_of_store hstore' (n := outLen) (by rw [List.length_singleton]; omega)
      have hlength : (CDaemon.normalBytes input).length = o := by
        rw [CDaemon.normalBytes, List.length_cons, ho, Nat.add_comm]
      refine ⟨0, ended, by rw [hstore'], hlenEnd.trans hlen', hdropEnd.trans hrest, ?_, fun _ => ?_⟩
      · refine iff_of_true rfl ⟨hallowed, fun hnil => hone ?_, ?_⟩
        · rw [ho, hnil, List.length_nil]
        · rw [hlength, ho]
          exact hroom
      · rw [hlength]
        refine htakeEnd.trans ?_
        rw [hwritten]
        exact congrArg (fun front => front ++ keptBytes (afterAt input) ++ [(0 : UInt8)]) htake

/-- After a success the string in the buffer is the result. -/
theorem Called.cstring {outLen : ℕ} {input out out' : List UInt8}
    (h : Called outLen input out 0 out') : cstring out' 0 = CDaemon.normalBytes input := by
  have hsplit : out' = [] ++ CDaemon.normalBytes input ++
      0 :: out'.drop ((CDaemon.normalBytes input).length + 1) := by
    rw [List.nil_append, List.append_cons, ← h.written rfl, List.take_append_drop]
  rw [hsplit]
  exact cstring_append (h.accepts.mp rfl).zero_not_mem

/-! ### Spellings -/

/-- One change of spelling: a leading `@`, a dot, the case of an ASCII letter. -/
inductive Respell : List UInt8 → List UInt8 → Prop
  | at (s : List UInt8) : Respell s (0x40 :: s)
  | dot (s t : List UInt8) : Respell (s ++ t) (s ++ 0x2E :: t)
  | letter (s t : List UInt8) (c : UInt8) (h : 0x41 ≤ c ∧ c ≤ 0x5A) :
    Respell (s ++ c :: t) (s ++ (c + 0x20) :: t)

/-- The inputs differ only in a leading `@`, in dots and in ASCII case. -/
def SameSpelling : List UInt8 → List UInt8 → Prop := Relation.EqvGen Respell

/-- What no change of spelling touches. -/
def coreBytes (s : List UInt8) : List UInt8 := keptBytes (s.filter (· ≠ 0x40))

theorem coreBytes_append (s t : List UInt8) : coreBytes (s ++ t) = coreBytes s ++ coreBytes t := by
  rw [coreBytes, List.filter_append, keptBytes_append, coreBytes, coreBytes]

theorem coreBytes_letter {c : UInt8} :
    0x41 ≤ c ∧ c ≤ 0x5A → coreBytes [c] = coreBytes [c + 0x20] := by
  refine forall_uint8
    (p := fun c => 0x41 ≤ c ∧ c ≤ 0x5A → coreBytes [c] = coreBytes [c + 0x20]) ?_ c
  decide +kernel

theorem Respell.coreBytes_eq {s t : List UInt8} (h : Respell s t) : coreBytes s = coreBytes t := by
  cases h with
  | «at» => rfl
  | dot s t =>
    have hdot : coreBytes (0x2E :: t) = coreBytes t := rfl
    rw [coreBytes_append, coreBytes_append, hdot]
  | letter s t c hc =>
    have hcore (d : UInt8) : coreBytes (s ++ d :: t) = coreBytes s ++ coreBytes [d] ++ coreBytes t := by
      rw [List.append_cons, coreBytes_append, coreBytes_append]
    rw [hcore, hcore, coreBytes_letter hc]

theorem SameSpelling.coreBytes_eq {s t : List UInt8} (h : SameSpelling s t) :
    coreBytes s = coreBytes t := by
  induction h with
  | rel s t h => exact h.coreBytes_eq
  | refl s => rfl
  | symm s t _ ih => exact ih.symm
  | trans s t u _ _ ih1 ih2 => exact ih1.trans ih2

/-- An accepted input has no `@` but a leading one. -/
theorem Accepts.coreBytes_eq {outLen : ℕ} {input : List UInt8} (h : Accepts outLen input) :
    coreBytes input = keptBytes (afterAt input) := by
  have hafter : (afterAt input).filter (· ≠ 0x40) = afterAt input :=
    List.filter_eq_self.mpr fun c hc => decide_eq_true (h.allowed c hc).1
  have hat : coreBytes input = coreBytes (afterAt input) := by
    unfold afterAt
    split
    · rename_i hhead
      obtain ⟨rest, rfl⟩ := List.head?_eq_some_iff.mp hhead
      rfl
    · rfl
  rw [hat, coreBytes, hafter]

theorem sameSpelling_afterAt (input : List UInt8) : SameSpelling input (afterAt input) := by
  unfold afterAt
  split
  · rename_i hhead
    obtain ⟨rest, rfl⟩ := List.head?_eq_some_iff.mp hhead
    exact .symm _ _ (.rel _ _ (.at rest))
  · exact .refl input

theorem sameSpelling_letter (pre rest : List UInt8) (c : UInt8) :
    SameSpelling (pre ++ c :: rest) (pre ++ lowerByte c :: rest) := by
  unfold lowerByte
  split
  · rename_i hc
    exact .rel _ _ (.letter pre rest c hc)
  · exact .refl _

theorem sameSpelling_keptBytes (pre s : List UInt8) :
    SameSpelling (pre ++ s) (pre ++ keptBytes s) := by
  induction s generalizing pre with
  | nil => exact .refl _
  | cons c rest ih =>
    by_cases hdot : c = 0x2E
    · subst hdot
      exact .trans _ _ _ (.symm _ _ (.rel _ _ (.dot pre rest))) (ih pre)
    · rw [keptBytes_cons hdot]
      have hrest := ih (pre ++ [lowerByte c])
      simp only [List.append_assoc, List.singleton_append] at hrest
      exact .trans _ _ _ (sameSpelling_letter pre rest c) hrest

theorem sameSpelling_kept (input : List UInt8) :
    SameSpelling input (keptBytes (afterAt input)) :=
  .trans _ _ _ (sameSpelling_afterAt input) (sameSpelling_keptBytes [] _)

/-- Accepted inputs have one result exactly when they are spellings of one another. -/
theorem normalBytes_eq_iff {outLen outLen' : ℕ} {s t : List UInt8} (hs : Accepts outLen s)
    (ht : Accepts outLen' t) : normalBytes s = normalBytes t ↔ SameSpelling s t := by
  rw [normalBytes, normalBytes, List.cons.injEq, eq_self, true_and]
  constructor
  · intro h
    exact .trans _ _ _ (h ▸ sameSpelling_kept s) (.symm _ _ (sameSpelling_kept t))
  · intro h
    rw [← hs.coreBytes_eq, ← ht.coreBytes_eq, h.coreBytes_eq]

/-! ### The canonical form -/

/-- A call that succeeds, in a buffer that has the room it is said to have. -/
structure Succeeds (input out : List UInt8) (outLen : ℕ) (out' : List UInt8) : Prop where
  room : outLen ≤ out.length
  call : sshnpdNormalizeAtsign (some input) (some out) outLen = some (0, some out')

theorem Succeeds.called {input out out' : List UInt8} {outLen : ℕ}
    (h : Succeeds input out outLen out') : Called outLen input out 0 out' := by
  obtain ⟨rc, out'', heq, hcalled⟩ := sshnpdNormalizeAtsign_spec input h.room
  rw [h.call] at heq
  cases heq
  exact hcalled

theorem Accepts.succeeds {input again : List UInt8} {outLen : ℕ} (h : Accepts outLen input)
    (hroom : outLen ≤ again.length) : ∃ again', Succeeds input again outLen again' := by
  obtain ⟨rc, again', heq, hcalled⟩ := sshnpdNormalizeAtsign_spec input hroom
  obtain rfl := hcalled.accepts.mpr h
  exact ⟨again', hroom, heq⟩

/-- The result is a canonical form of the input. -/
structure CanonicalForm : Prop where
  inside : ∀ (input out : Option (List UInt8)) (outLen : ℕ), (∀ buf ∈ out, outLen ≤ buf.length) →
    ∃ rc out', sshnpdNormalizeAtsign input out outLen = some (rc, out') ∧
      ∀ buf ∈ out, ∃ buf' ∈ out', buf'.length = buf.length ∧ buf'.drop outLen = buf.drop outLen
  terminated : ∀ input out outLen out', Succeeds input out outLen out' →
    (cstring out' 0).length < outLen ∧ out'[(cstring out' 0).length]? = some 0
  idempotent : ∀ input out outLen out', Succeeds input out outLen out' →
    ∀ again, outLen ≤ again.length → ∃ again', Succeeds (cstring out' 0) again outLen again' ∧
      cstring again' 0 = cstring out' 0
  distinguishes : ∀ s out outLen out', Succeeds s out outLen out' →
    ∀ t again againLen again', Succeeds t again againLen again' →
      (cstring out' 0 = cstring again' 0 ↔ SameSpelling s t)

theorem sshnpdNormalizeAtsign_canonical : CanonicalForm where
  inside := by
    intro input out outLen hout
    cases out with
    | none =>
      refine ⟨1, none, ?_, fun buf hbuf => absurd hbuf (Option.not_mem_none buf)⟩
      cases input <;> rfl
    | some buf =>
      cases input with
      | none => exact ⟨1, some buf, rfl, fun b hb => ⟨b, hb, rfl, rfl⟩⟩
      | some input =>
        obtain ⟨rc, out', heq, hcalled⟩ := sshnpdNormalizeAtsign_spec input (hout buf rfl)
        refine ⟨rc, some out', heq, ?_⟩
        rintro b ⟨rfl⟩
        exact ⟨out', rfl, hcalled.length, hcalled.rest⟩
  terminated := by
    intro input out outLen out' h
    rw [h.called.cstring]
    refine ⟨(h.called.accepts.mp rfl).room, ?_⟩
    have hlast := congrArg (·[(normalBytes input).length]?) (h.called.written rfl)
    simpa using hlast
  idempotent := by
    intro input out outLen out' h again hroom
    rw [h.called.cstring]
    obtain ⟨again', hagain⟩ := (h.called.accepts.mp rfl).normalBytes.succeeds hroom
    exact ⟨again', hagain, by rw [hagain.called.cstring, normalBytes_idem]⟩
  distinguishes := by
    intro s out outLen out' hs t again againLen again' ht
    rw [hs.called.cstring, ht.called.cstring]
    exact normalBytes_eq_iff (hs.called.accepts.mp rfl) (ht.called.accepts.mp rfl)

/-! ### Texts

`normalizeAtsign`, which the handlers are modelled with, is the function at the bytes of a
text and the buffer the handlers give it. -/

def bytesOf (cs : List Char) : List UInt8 := cs.flatMap String.utf8EncodeChar

/-- A character and its bytes are treated alike. -/
structure CharBytes (c : Char) : Prop where
  allowed : (∀ b ∈ String.utf8EncodeChar c, IsAllowed b) ↔
    c ≠ '@' ∧ (isWhitespaceOrControl c || reservedCharacters.contains c) = false
  dot : c = '.' → keptBytes (String.utf8EncodeChar c) = []
  kept : c ≠ '.' → keptBytes (String.utf8EncodeChar c) = String.utf8EncodeChar c.toLower
  size : (String.utf8EncodeChar c.toLower).length = c.utf8Size

theorem high_byte {b : UInt8} : 0x80 ≤ b.toNat → IsAllowed b ∧ b ≠ 0x2E ∧ lowerByte b = b := by
  refine forall_uint8 (p := fun b => 0x80 ≤ b.toNat → IsAllowed b ∧ b ≠ 0x2E ∧ lowerByte b = b) ?_ b
  decide +kernel

theorem keptBytes_high {s : List UInt8} (h : ∀ b ∈ s, 0x80 ≤ b.toNat) : keptBytes s = s := by
  induction s with
  | nil => rfl
  | cons b s ih =>
    obtain ⟨-, hdot, hlower⟩ := high_byte (h b List.mem_cons_self)
    rw [keptBytes_cons hdot, hlower, ih fun c hc => h c (List.mem_cons_of_mem b hc)]

theorem charBytes_ascii (n : Fin 128) : CharBytes (Char.ofNat n) := by
  have hall : ∀ n : Fin 128,
      ((∀ b ∈ String.utf8EncodeChar (Char.ofNat n), IsAllowed b) ↔
        Char.ofNat n ≠ '@' ∧ (isWhitespaceOrControl (Char.ofNat n) ||
          reservedCharacters.contains (Char.ofNat n)) = false) ∧
      (Char.ofNat n = '.' → keptBytes (String.utf8EncodeChar (Char.ofNat n)) = []) ∧
      (Char.ofNat n ≠ '.' → keptBytes (String.utf8EncodeChar (Char.ofNat n)) =
        String.utf8EncodeChar (Char.ofNat n).toLower) ∧
      (String.utf8EncodeChar (Char.ofNat n).toLower).length = (Char.ofNat n).utf8Size := by
    decide +kernel
  obtain ⟨hallowed, hdot, hkept, hsize⟩ := hall n
  exact ⟨hallowed, hdot, hkept, hsize⟩

theorem charBytes_high {c : Char} (h : 0x80 ≤ c.toNat) : CharBytes c := by
  obtain ⟨hseq, -, hvalue⟩ := encode_spec c
  have hhigh := hseq.high (hvalue ▸ h)
  have hlower : c.toLower = c := by
    refine dif_neg ?_
    rintro ⟨-, hz⟩
    have hle : c.toNat ≤ 90 := hz
    omega
  have hne {d : Char} (hd : d.toNat < 0x80) : c ≠ d := fun hcd => by
    rw [hcd] at h
    omega
  have hspace : isWhitespaceOrControl c = false := by
    simp only [isWhitespaceOrControl, Bool.or_eq_false_iff, decide_eq_false_iff_not, beq_eq_false_iff_ne]
    exact ⟨⟨by omega, by omega⟩, hne (by decide)⟩
  have hreserved : reservedCharacters.contains c = false := by
    have hascii : reservedCharacters.all (·.toNat < 0x80) = true := by decide +kernel
    rw [Bool.eq_false_iff]
    intro hmem
    have hlt := List.all_eq_true.mp hascii c (List.contains_iff_mem.mp hmem)
    exact absurd (of_decide_eq_true hlt) (Nat.not_lt.mpr h)
  refine ⟨iff_of_true (fun b hb => (high_byte (hhigh b hb)).1) ⟨hne (by decide), ?_⟩,
    fun hdot => absurd hdot (hne (by decide)), fun _ => ?_, ?_⟩
  · rw [hspace, hreserved, Bool.or_false]
  · rw [keptBytes_high hhigh, hlower]
  · rw [hlower, String.length_utf8EncodeChar]

theorem charBytes (c : Char) : CharBytes c := by
  by_cases h : c.toNat < 0x80
  · have hascii := charBytes_ascii ⟨c.toNat, h⟩
    rwa [Char.ofNat_toNat] at hascii
  · exact charBytes_high (Nat.le_of_not_lt h)

/-- The loop over characters is the loop over their bytes. -/
theorem normalizeLoop_spec (cs : List Char) (o : ℕ) (ho : o ≤ atsignBufferRoom) :
    ((normalizeLoop o cs).isSome ↔ (∀ b ∈ bytesOf cs, IsAllowed b) ∧
        o + (keptBytes (bytesOf cs)).length ≤ atsignBufferRoom) ∧
      ∀ out ∈ normalizeLoop o cs, bytesOf out = keptBytes (bytesOf cs) := by
  induction cs generalizing o with
  | nil =>
    refine ⟨iff_of_true rfl ⟨fun b hb => absurd hb List.not_mem_nil, ho⟩, ?_⟩
    rintro out ⟨rfl⟩
    rfl
  | cons c cs ih =>
    have hc := charBytes c
    have hbytes : bytesOf (c :: cs) = String.utf8EncodeChar c ++ bytesOf cs := List.flatMap_cons
    rw [hbytes, keptBytes_append, List.length_append, List.forall_mem_append, hc.allowed]
    rw [normalizeLoop]
    by_cases hat : c = '@'
    · rw [if_pos hat]
      exact ⟨iff_of_false Bool.false_ne_true fun h => h.1.1.1 hat,
        fun out hout => absurd hout (Option.not_mem_none out)⟩
    rw [if_neg hat]
    by_cases hbad : (isWhitespaceOrControl c || reservedCharacters.contains c) = true
    · rw [if_pos hbad]
      exact ⟨iff_of_false Bool.false_ne_true fun h => Bool.eq_false_iff.mp h.1.1.2 hbad,
        fun out hout => absurd hout (Option.not_mem_none out)⟩
    rw [if_neg hbad]
    have hgood : c ≠ '@' ∧ (isWhitespaceOrControl c || reservedCharacters.contains c) = false :=
      ⟨hat, Bool.eq_false_iff.mpr hbad⟩
    rw [and_iff_right hgood]
    by_cases hdot : c = '.'
    · rw [if_pos hdot, hc.dot hdot, List.length_nil, Nat.zero_add, List.nil_append]
      exact ih o ho
    rw [if_neg hdot, hc.kept hdot, hc.size]
    by_cases hroom : atsignBufferRoom < o + c.utf8Size
    · rw [if_pos hroom]
      refine ⟨iff_of_false Bool.false_ne_true fun h => ?_,
        fun out hout => absurd hout (Option.not_mem_none out)⟩
      omega
    rw [if_neg hroom]
    obtain ⟨hsome, hout⟩ := ih (o + c.utf8Size) (Nat.le_of_not_lt hroom)
    refine ⟨?_, ?_⟩
    · rw [Option.isSome_map, hsome, Nat.add_assoc]
    · intro out hmem
      obtain ⟨rest, hrest, rfl⟩ := Option.map_eq_some_iff.mp hmem
      rw [← hout rest hrest]
      exact List.flatMap_cons

theorem bytesOf_eq_nil {cs : List Char} : bytesOf cs = [] ↔ cs = [] := by
  cases cs with
  | nil => exact iff_of_true rfl rfl
  | cons c cs =>
    refine iff_of_false (fun h => ?_) (List.cons_ne_nil c cs)
    exact (encode_spec c).1.ne_nil (List.append_eq_nil_iff.mp h).1

theorem bytesOf_injective : Function.Injective bytesOf := by
  intro cs ds h
  have hdecode := congrArg decode h
  exact Option.some.inj ((decode_encode cs).symm.trans (hdecode.trans (decode_encode ds)))

/-- A character of ASCII is in the bytes of no other. -/
theorem ne_of_mem_encode {c d : Char} (hd : d.toNat < 0x80) (hne : c ≠ d) {b : UInt8}
    (hb : b ∈ String.utf8EncodeChar c) : b ≠ UInt8.ofNat d.toNat := by
  rintro rfl
  by_cases hc : c.toNat < 0x80
  · rw [encode_ascii hc, List.mem_singleton] at hb
    have hnat := congrArg UInt8.toNat hb
    rw [toNat_ofNat (by omega), toNat_ofNat (by omega)] at hnat
    exact hne (Char.toNat_inj.mp hnat.symm)
  · obtain ⟨hseq, -, hvalue⟩ := encode_spec c
    have hhigh := hseq.high (by omega) _ hb
    rw [toNat_ofNat (by omega)] at hhigh
    omega

theorem afterAt_bytesOf (cs : List Char) : afterAt (bytesOf cs) = bytesOf (dropPrefix ['@'] cs) := by
  cases cs with
  | nil => rfl
  | cons c cs =>
    by_cases hc : c = '@'
    · subst hc
      rfl
    · have hdrop : dropPrefix ['@'] (c :: cs) = c :: cs := by
        rw [dropPrefix, stripPrefix?, if_neg (Ne.symm hc), Option.getD_none]
      have hhead : (bytesOf (c :: cs)).head? ≠ some 0x40 := by
        rw [bytesOf, List.flatMap_cons, List.head?_append_of_ne_nil _ (encode_spec c).1.ne_nil]
        exact fun hat => ne_of_mem_encode (d := '@') (by decide) hc (List.mem_of_mem_head? hat) rfl
      rw [hdrop, afterAt, if_neg hhead]

/-- What the handlers are modelled with is what the bytes of a text come to. -/
theorem normalizeAtsign_bytes (input : String) :
    (Accepts (atsignBufferRoom + 1) (bytesOf input.toList) ↔ (normalizeAtsign input).isSome) ∧
      ∀ normal ∈ normalizeAtsign input, normalBytes (bytesOf input.toList) = bytesOf normal.toList := by
  have hlooped := normalizeLoop_spec (dropPrefix ['@'] input.toList) 1 (by decide)
  rw [← afterAt_bytesOf] at hlooped
  obtain ⟨hsome, hwritten⟩ := hlooped
  unfold normalizeAtsign
  by_cases hempty : input = ""
  · rw [if_pos hempty, hempty]
    exact ⟨iff_of_false (fun h => h.ne_nil rfl) Bool.false_ne_true,
      fun normal h => absurd h (Option.not_mem_none normal)⟩
  rw [if_neg hempty]
  cases hloop : normalizeLoop 1 (dropPrefix ['@'] input.toList) with
  | none =>
    refine ⟨iff_of_false (fun h => ?_) Bool.false_ne_true,
      fun normal h => absurd h (Option.not_mem_none normal)⟩
    have hroom := h.room
    rw [normalBytes, List.length_cons] at hroom
    have hisSome := hsome.mpr ⟨h.allowed, by omega⟩
    rw [hloop] at hisSome
    exact Bool.false_ne_true hisSome
  | some kept =>
    obtain ⟨hallowed, hroom⟩ := hsome.mp (by rw [hloop]; rfl)
    have hkept := hwritten kept hloop
    cases kept with
    | nil =>
      exact ⟨iff_of_false (fun h => h.kept hkept.symm) Bool.false_ne_true,
        fun normal h => absurd h (Option.not_mem_none normal)⟩
    | cons k kept =>
      refine ⟨iff_of_true ⟨hallowed, ?_, ?_⟩ rfl, ?_⟩
      · rw [← hkept, Ne, bytesOf_eq_nil]
        exact List.cons_ne_nil k kept
      · rw [normalBytes, List.length_cons]
        omega
      · rintro normal ⟨rfl⟩
        rw [normalBytes, ← hkept, String.toList_ofList]
        rfl

end NoPorts.CDaemon
