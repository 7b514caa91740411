import Mathlib.Data.Set.List
import NoPorts.CDaemonNormalize
import NoPorts.Lib.Except

/-! The manager list of the C daemon: how `parse_sshnpd_params` splits and normalizes `--manager`,
and `is_manager_atsign`. -/
namespace NoPorts.CDaemon.Managers
open Lib

/-! ### Memory -/

inductive Stop where
  /-- A byte or an entry outside of what was allocated. -/
  | outside
  /-- The arguments are refused. -/
  | refused
  deriving DecidableEq, Repr

def load {α : Type} (mem : List α) (i : ℕ) : Except Stop α :=
  match mem[i]? with
  | none => .error .outside
  | some a => .ok a

def save {α : Type} (mem : List α) (i : ℕ) (a : α) : Except Stop (List α) :=
  match store mem i [a] with
  | none => .error .outside
  | some mem => .ok mem

/-- What `malloc` and the stack hand out has any bytes. -/
structure Heap where
  fresh : ℕ → List UInt8
  length_fresh : ∀ n, (fresh n).length = n

theorem Heap.fresh_room (heap : Heap) {n : ℕ} : 0 + n ≤ (heap.fresh n).length := by
  rw [heap.length_fresh, Nat.zero_add]

/-- A `--manager` string: the length of an argument fits an `int`. -/
structure Argument where
  bytes : List UInt8
  noNul : 0 ∉ bytes
  short : bytes.length < 2147483648

def Argument.memory (manager : Argument) : List UInt8 := manager.bytes ++ [0]

/-- An entry of the manager list: into the argument, or into `norm_buf`. -/
inductive Entry where
  | arg (p : ℕ)
  | buf (p : ℕ)
  deriving DecidableEq, Repr

/-- `SSHNPD_ATSIGN_BUFFER_LEN` -/
def bufferLen : ℕ := atsignBufferRoom + 1

def comma : UInt8 := 0x2C
def atChar : UInt8 := 0x40

/-! ### params.c -/

/-- The separators before the last of the `managerEnd` bytes. -/
def countSeparators (mem : List UInt8) (managerEnd : ℕ) : Except Stop ℕ :=
  (List.range (managerEnd - 1)).foldlM (fun sepCount i => do
    return if (← load mem i) = comma then sepCount + 1 else sepCount) 0

/-- The loop that cuts the string at its commas, from `i` on for `n` bytes, with `pos` entries in the list. -/
def splitLoop (mem : List UInt8) (list : List (Option Entry)) (pos i : ℕ) :
    ℕ → Except Stop (List UInt8 × List (Option Entry))
  | 0 => .ok (mem, list)
  | n + 1 => do
    if (← load mem i) = comma then
      let mem ← save mem i 0
      let next ← load mem (i + 1)
      if next = 0 then .ok (mem, list)
      else if next ≠ atChar then .error .refused
      else
        let list ← save list pos (some (.arg (i + 1)))
        splitLoop mem list (pos + 1) (i + 1) n
    else splitLoop mem list pos (i + 1) n

/-- The string that an entry points to; an entry that was never set points anywhere. -/
def entryString (mem norm : List UInt8) : Option Entry → Except Stop (List UInt8)
  | none => .error .outside
  | some (.arg p) => if p < mem.length then .ok (cstring mem p) else .error .outside
  | some (.buf p) => if p < norm.length then .ok (cstring norm p) else .error .outside

/-- `sshnpd_normalize_atsign` into the buffer from `slot` on. -/
def normalizeInto (input buffer : List UInt8) (slot : ℕ) : Except Stop (ℕ × List UInt8) :=
  match sshnpdNormalizeAtsign (some input) (some (buffer.drop slot)) bufferLen with
  | some (rc, some out) => .ok (rc, buffer.take slot ++ out)
  | _ => .error .outside

/-- The loop that normalizes the entries, from `i` on for `n` of them, with `filteredCount` kept. -/
def filterLoop (mem : List UInt8) (device : Option (List UInt8)) (list : List (Option Entry)) (norm : List UInt8)
    (filteredCount i : ℕ) : ℕ → Except Stop (List (Option Entry) × List UInt8 × ℕ)
  | 0 => .ok (list, norm, filteredCount)
  | n + 1 => do
    let slot := filteredCount * bufferLen
    let input ← entryString mem norm (← load list i)
    let (rc, norm) ← normalizeInto input norm slot
    if rc ≠ 0 then .error .refused
    else if device = some (cstring norm slot) then filterLoop mem device list norm filteredCount (i + 1) n
    else
      let list ← save list filteredCount (some (.buf slot))
      filterLoop mem device list norm (filteredCount + 1) (i + 1) n

/-- The manager list, as the parameters hold it. -/
structure ManagerList where
  list : List (Option Entry)
  norm : List UInt8
  len : ℕ

variable (heap : Heap)

/-- The device's own normal form, if it has one. -/
def normalizedDevice (device : List UInt8) : Except Stop (Option (List UInt8)) := do
  let (rc, out) ← normalizeInto device (heap.fresh bufferLen) 0
  return if rc = 0 then some (cstring out 0) else none

/-- The manager list that `parse_sshnpd_params` makes of `--manager`. -/
def parseManagerList (manager : Argument) (device : List UInt8) : Except Stop ManagerList := do
  let mem := manager.memory
  let managerEnd := manager.bytes.length
  let sepCount ← countSeparators mem managerEnd
  let list ← save (List.replicate (sepCount + 1) none) 0 (some (.arg 0))
  let (mem, list) ← splitLoop mem list 1 0 managerEnd
  let managerListLen := sepCount + 1
  let device ← normalizedDevice heap device
  let (list, norm, filteredCount) ←
    filterLoop mem device list (heap.fresh (managerListLen * bufferLen)) 0 0 managerListLen
  if filteredCount = 0 then .error .refused else return ⟨list, norm, filteredCount⟩

/-! ### handler_commons.c -/

/-- The strings of the entries that count. -/
def ManagerList.strings (m : ManagerList) : Except Stop (List (List UInt8)) :=
  (List.range m.len).mapM fun i => do entryString [] m.norm (← load m.list i)

/-- The loop of `is_manager_atsign`, which returns once an entry is found. -/
def matchEntry (m : ManagerList) (normalized : List UInt8) (found : Bool) (i : ℕ) : Except Stop Bool := do
  if found then return true
  else
    match ← load m.list i with
    | none => return false
    | entry => return cstring normalized 0 = (← entryString [] m.norm entry)

/-- `is_manager_atsign`; no atSign is a null pointer. -/
def isManagerAtsign (m : ManagerList) (atsign : Option (List UInt8)) : Except Stop Bool :=
  match atsign with
  | none => .ok false
  | some atsign =>
    if atsign = [] ∨ m.len = 0 then .ok false
    else do
      let (rc, normalized) ← normalizeInto atsign (heap.fresh bufferLen) 0
      if rc ≠ 0 then .ok false
      else (List.range m.len).foldlM (matchEntry m normalized) false

/-! ### What a list says -/

/-- The list without one comma at its end. -/
def withoutTrailingComma (manager : List UInt8) : List UInt8 :=
  if manager.getLast? = some comma then manager.dropLast else manager

def items (manager : List UInt8) : List (List UInt8) := (withoutTrailingComma manager).splitOn comma

/-- An item is the device under some spelling. -/
def IsDevice (device item : List UInt8) : Prop := Accepts bufferLen device ∧ normalBytes item = normalBytes device

instance (outLen : ℕ) (input : List UInt8) : Decidable (Accepts outLen input) :=
  haveI : Decidable (∀ c ∈ afterAt input, IsAllowed c) := List.decidableBAll _ _
  decidable_of_iff ((∀ c ∈ afterAt input, IsAllowed c) ∧ keptBytes (afterAt input) ≠ [] ∧
    (normalBytes input).length + 1 ≤ outLen) ⟨fun h => ⟨h.1, h.2.1, h.2.2⟩, fun h => ⟨h.1, h.2, h.3⟩⟩

instance (device item : List UInt8) : Decidable (IsDevice device item) := inferInstanceAs (Decidable (_ ∧ _))

structure ListAccepted (manager device : List UInt8) : Prop where
  items : ∀ item ∈ items manager, Accepts bufferLen item
  marked : ∀ item ∈ (Managers.items manager).tail, item.head? = some atChar
  other : ∃ item ∈ Managers.items manager, ¬IsDevice device item

/-! ### Items -/

theorem items_nil : items [] = [[]] := rfl

theorem items_comma : items [comma] = [[]] := rfl

theorem withoutTrailingComma_cons (c : UInt8) {s : List UInt8} (hs : s ≠ []) :
    withoutTrailingComma (c :: s) = c :: withoutTrailingComma s := by
  obtain ⟨d, t, rfl⟩ := List.exists_cons_of_ne_nil hs
  rw [withoutTrailingComma, withoutTrailingComma, List.getLast?_cons_cons, List.dropLast_cons_cons]
  split <;> rfl

theorem items_cons {c : UInt8} (hc : c ≠ comma) (s : List UInt8) :
    items (c :: s) = (items s).modifyHead (c :: ·) := by
  by_cases hs : s = []
  · subst hs
    have hlast : withoutTrailingComma [c] = [c] := if_neg fun h => hc (Option.some.inj h)
    rw [items, hlast, items_nil, List.splitOn_eq_singleton]
    · rfl
    · exact fun h => hc (List.mem_singleton.mp h).symm
  · rw [items, items, withoutTrailingComma_cons c hs, List.splitOn_cons_eq_if_modifyHead,
      if_neg (by simpa using hc)]

theorem items_comma_cons {s : List UInt8} (hs : s ≠ []) : items (comma :: s) = [] :: items s := by
  rw [items, items, withoutTrailingComma_cons comma hs, List.splitOn_cons_eq_if_modifyHead, if_pos (by simp)]

theorem items_ne_nil (s : List UInt8) : items s ≠ [] := List.splitOn_ne_nil _ _

theorem items_append {bs : List UInt8} (hbs : ∀ b ∈ bs, b ≠ comma) (s : List UInt8) :
    items (bs ++ s) = (items s).modifyHead (bs ++ ·) := by
  induction bs with
  | nil => exact (congrFun List.modifyHead_id (items s)).symm
  | cons b bs ih =>
    rw [List.forall_mem_cons] at hbs
    rw [List.cons_append, items_cons hbs.1, ih hbs.2, List.modifyHead_modifyHead]
    rfl

/-- The items of a text are texts: no comma is inside of a character. -/
theorem items_bytesOf (cs : List Char) : ∀ item ∈ items (bytesOf cs), ∃ ds, bytesOf ds = item := by
  induction cs with
  | nil =>
    rintro item hitem
    exact ⟨[], (List.mem_singleton.mp hitem).symm⟩
  | cons c cs ih =>
    have hbytes : bytesOf (c :: cs) = String.utf8EncodeChar c ++ bytesOf cs := List.flatMap_cons
    rw [hbytes]
    by_cases hc : c = ','
    · have hcomma : String.utf8EncodeChar c ++ bytesOf cs = comma :: bytesOf cs := by
        rw [hc]
        rfl
      rw [hcomma]
      by_cases hcs : bytesOf cs = []
      · rw [hcs, items_comma]
        intro item hitem
        exact ⟨[], (List.mem_singleton.mp hitem).symm⟩
      · rw [items_comma_cons hcs, List.forall_mem_cons]
        exact ⟨⟨[], rfl⟩, ih⟩
    · have hne : ∀ b ∈ String.utf8EncodeChar c, b ≠ comma := fun b hb => ne_of_mem_encode (d := ',') (by decide) hc hb
      rw [items_append hne]
      obtain ⟨item, rest, hitems⟩ := List.exists_cons_of_ne_nil (items_ne_nil (bytesOf cs))
      rw [hitems, List.forall_mem_cons] at ih
      rw [hitems, List.modifyHead_cons, List.forall_mem_cons]
      refine ⟨?_, ih.2⟩
      obtain ⟨ds, rfl⟩ := ih.1
      exact ⟨c :: ds, List.flatMap_cons⟩

/-- Where the items after the first start, when the first starts at `i`. -/
def starts (i : ℕ) : List UInt8 → List ℕ
  | [] => []
  | c :: s => if c = comma ∧ s ≠ [] then (i + 1) :: starts (i + 1) s else starts (i + 1) s

/-- A comma becomes a NUL. -/
def cut (c : UInt8) : UInt8 := if c = comma then 0 else c

theorem length_starts (i : ℕ) (s : List UInt8) : (starts i s).length = s.dropLast.count comma := by
  induction s generalizing i with
  | nil => rfl
  | cons c s ih =>
    by_cases hs : s = []
    · subst hs
      rw [starts, if_neg fun h => h.2 rfl]
      rfl
    · obtain ⟨d, t, rfl⟩ := List.exists_cons_of_ne_nil hs
      rw [starts, List.dropLast_cons_cons, List.count_cons]
      by_cases hc : c = comma
      · rw [if_pos ⟨hc, hs⟩, List.length_cons, ih, if_pos (beq_iff_eq.mpr hc)]
      · rw [if_neg fun h => hc h.1, ih, if_neg (by simpa using hc), Nat.add_zero]

theorem mem_starts_lt {i p : ℕ} {s : List UInt8} (h : p ∈ starts i s) : p < i + s.length := by
  induction s generalizing i with
  | nil => cases h
  | cons c s ih =>
    rw [starts] at h
    rw [List.length_cons]
    split at h
    · rename_i hc
      have hpos := List.length_pos_iff.mpr hc.2
      rcases List.mem_cons.mp h with rfl | h
      · omega
      · have hlt := ih h
        omega
    · have hlt := ih h
      omega

theorem cstring_cons {mem : List UInt8} {p : ℕ} {c : UInt8} {rest : List UInt8} (h : mem.drop p = c :: rest) :
    cstring mem p = if c = 0 then [] else c :: cstring mem (p + 1) := by
  have htail : mem.drop (p + 1) = rest := by
    rw [← List.drop_drop, h]
    rfl
  rw [cstring, cstring, h, htail, List.takeWhile_cons]
  by_cases hc : c = 0 <;> simp [hc]

/-- Cut at its commas, the argument holds its items, each where it starts. -/
theorem cstring_starts (front : List UInt8) {s : List UInt8} (hs : 0 ∉ s) :
    (front.length :: starts front.length s).map (cstring (front ++ s.map cut ++ [0])) = items s := by
  induction s generalizing front with
  | nil =>
    have hstring : cstring (front ++ [].map cut ++ [0]) front.length = [] := by
      rw [List.map_nil]
      exact cstring_append List.not_mem_nil
    rw [starts, List.map_cons, hstring]
    rfl
  | cons c s ih =>
    rw [List.mem_cons, not_or] at hs
    have hmem : front ++ (c :: s).map cut ++ [0] = (front ++ [cut c]) ++ s.map cut ++ [0] := by simp
    have hdrop : (front ++ (c :: s).map cut ++ [0]).drop front.length = cut c :: (s.map cut ++ [0]) := by simp
    have hlen : (front ++ [cut c]).length = front.length + 1 := by simp
    have hrest := ih (front ++ [cut c]) hs.2
    rw [← hmem, hlen] at hrest
    generalize front ++ (c :: s).map cut ++ [0] = mem at hdrop hrest ⊢
    by_cases hc : c = comma
    · have hcut : cut c = 0 := if_pos hc
      have hnil : cstring mem front.length = [] := by rw [cstring_cons hdrop, if_pos hcut]
      by_cases hsnil : s = []
      · subst hsnil hc
        rw [starts, if_neg fun h => h.2 rfl, items_comma, List.map_cons, hnil]
        rfl
      · rw [starts, if_pos ⟨hc, hsnil⟩, List.map_cons, hnil, hrest, hc, items_comma_cons hsnil]
    · have hcut : cut c = c := if_neg hc
      rw [starts, if_neg fun h => hc h.1, items_cons hc, ← hrest, List.map_cons, List.map_cons, List.modifyHead_cons,
        cstring_cons hdrop, hcut, if_neg fun h => hs.1 h.symm]

/-! ### Counting and cutting -/

theorem load_append {front rest : List UInt8} {c : UInt8} : load (front ++ c :: rest) front.length = .ok c := by
  simp [load]

theorem save_of_lt {α : Type} {mem : List α} {i : ℕ} (h : i < mem.length) (a : α) :
    save mem i a = .ok (mem.take i ++ a :: mem.drop (i + 1)) := by
  rw [save, store, List.length_singleton, if_pos (Nat.succ_le_of_lt h)]
  simp

theorem save_ok {α : Type} {mem : List α} {i : ℕ} (h : i < mem.length) (a : α) : ∃ mem', save mem i a = .ok mem' ∧
    mem'.length = mem.length ∧ mem'.take (i + 1) = mem.take i ++ [a] ∧ ∀ k, i + 1 ≤ k → mem'.drop k = mem.drop k := by
  have hfits : i + [a].length ≤ mem.length := h
  obtain ⟨mem', hstore, hlen, htake⟩ := store_of_le hfits
  exact ⟨mem', by rw [save, hstore], hlen, htake, fun k hk => drop_of_store hstore hk⟩

theorem countSeparators_eq (manager : Argument) :
    countSeparators manager.memory manager.bytes.length = .ok (manager.bytes.dropLast.count comma) := by
  have hcount (n : ℕ) (hn : n ≤ manager.bytes.length) :
      (List.range n).foldlM (fun sepCount i => do
        return if (← load manager.memory i) = comma then sepCount + 1 else sepCount) 0 =
          (.ok ((manager.bytes.take n).count comma) : Except Stop ℕ) := by
    induction n with
    | zero => rfl
    | succ n ih =>
      have hget : load manager.memory n = .ok manager.bytes[n] := by
        rw [load, Argument.memory, List.getElem?_append_left hn, List.getElem?_eq_getElem hn]
      rw [List.range_succ, List.foldlM_append, ih (by omega), ok_bind, List.foldlM_cons, hget, ok_bind,
        pure_bind, List.foldlM_nil, List.take_succ_eq_append_getElem hn, List.count_append, List.count_singleton]
      by_cases hc : manager.bytes[n] = comma <;> simp [hc, pure, Except.pure]
  rw [countSeparators, hcount _ (Nat.sub_le _ _), List.dropLast_eq_take]

theorem items_head_cons {d : UInt8} (hd : d ≠ comma) (s : List UInt8) :
    ∃ item rest, items (d :: s) = (d :: item) :: rest := by
  obtain ⟨item, rest, hitems⟩ := List.exists_cons_of_ne_nil (items_ne_nil s)
  exact ⟨item, rest, by rw [items_cons hd, hitems, List.modifyHead_cons]⟩

/-- Whether the item that starts here is marked is whether its first byte is `@`. -/
theorem items_marked {d : UInt8} {s : List UInt8} :
    (∀ item ∈ items (d :: s), item.head? = some atChar) ↔
      d = atChar ∧ ∀ item ∈ (items (d :: s)).tail, item.head? = some atChar := by
  by_cases hd : d = comma
  · subst hd
    have hempty : ∃ rest, items (comma :: s) = [] :: rest := by
      by_cases hs : s = []
      · exact ⟨[], by rw [hs, items_comma]⟩
      · exact ⟨items s, items_comma_cons hs⟩
    obtain ⟨rest, hitems⟩ := hempty
    rw [hitems]
    constructor
    · intro h
      cases h [] List.mem_cons_self
    · intro h
      cases h.1
  · obtain ⟨item, rest, hitems⟩ := items_head_cons hd s
    rw [hitems, List.forall_mem_cons, List.head?_cons, Option.some.injEq, List.tail_cons]

/-- The loop cuts the string at every comma, unless an item after the first is not marked. -/
theorem splitLoop_spec (front s : List UInt8) (list : List (Option Entry)) (pos : ℕ) (hs : 0 ∉ s)
    (hroom : pos + (starts front.length s).length ≤ list.length) :
    splitLoop (front ++ s ++ [0]) list pos front.length s.length =
      if ∀ item ∈ (items s).tail, item.head? = some atChar then
        .ok (front ++ s.map cut ++ [0], list.take pos ++ (starts front.length s).map (some ∘ Entry.arg) ++
          list.drop (pos + (starts front.length s).length))
      else .error .refused := by
  induction s generalizing front list pos with
  | nil => simp [splitLoop, starts, items_nil]
  | cons c s ih =>
    rw [List.mem_cons, not_or] at hs
    have hload : load (front ++ c :: s ++ [0]) front.length = .ok c := by
      rw [List.append_assoc, List.cons_append, load_append]
    have hlen (x : UInt8) : (front ++ [x]).length = front.length + 1 := by simp
    rw [List.length_cons, splitLoop, hload, ok_bind]
    by_cases hc : c = comma
    · have hsave : save (front ++ c :: s ++ [0]) front.length 0 = .ok (front ++ [0] ++ s ++ [0]) := by
        rw [save_of_lt (by simp)]
        simp
      have hcut : cut c = 0 := if_pos hc
      rw [if_pos hc, hsave, ok_bind]
      cases s with
      | nil =>
        have hnext : load (front ++ [0] ++ [] ++ [0]) (front.length + 1) = .ok 0 := by
          rw [List.append_nil, ← hlen 0]
          exact load_append
        have hstarts : starts front.length [c] = [] := if_neg fun h => h.2 rfl
        rw [hnext, ok_bind, if_pos rfl, hstarts, List.map_singleton, hcut, hc, items_comma]
        simp
      | cons d s =>
        have hnext : load (front ++ [0] ++ d :: s ++ [0]) (front.length + 1) = .ok d := by
          rw [List.append_assoc, List.cons_append, ← hlen 0, load_append]
        have hd : d ≠ 0 := fun h => hs.2 (h ▸ List.mem_cons_self)
        have hstarts : starts front.length (c :: d :: s) =
            (front.length + 1) :: starts (front.length + 1) (d :: s) := by
          rw [starts, if_pos ⟨hc, List.cons_ne_nil _ _⟩]
        rw [hnext, ok_bind, if_neg hd, hc, items_comma_cons (List.cons_ne_nil _ _), List.tail_cons, ← hc, hstarts]
        by_cases hat : d = atChar
        · rw [hstarts, List.length_cons] at hroom
          obtain ⟨list', hlist, hlength, htake, hdrop⟩ :=
            save_ok (show pos < list.length by omega) (some (Entry.arg (front.length + 1)))
          rw [if_neg (not_not.mpr hat), hlist, ok_bind]
          have hnext := ih (front ++ [0]) list' (pos + 1) hs.2 (by rw [hlen, hlength]; omega)
          have hiff : (∀ item ∈ (items (d :: s)).tail, item.head? = some atChar) ↔
              ∀ item ∈ items (d :: s), item.head? = some atChar := by
            rw [items_marked]
            exact ⟨fun h => ⟨hat, h⟩, fun h => h.2⟩
          have hbytes : front ++ [0] ++ (d :: s).map cut ++ [0] = front ++ (c :: d :: s).map cut ++ [0] := by
            simp [hcut]
          rw [htake, hdrop _ (Nat.le_add_right _ _), hlen, Nat.add_assoc, Nat.add_comm 1] at hnext
          have hentries (l : List (Option Entry)) : list.take pos ++ [some (Entry.arg (front.length + 1))] ++
              (starts (front.length + 1) (d :: s)).map (some ∘ Entry.arg) ++ l = list.take pos ++
                ((front.length + 1) :: starts (front.length + 1) (d :: s)).map (some ∘ Entry.arg) ++ l := by
            simp
          rw [hnext, hbytes, hentries, List.length_cons]
          simp only [hiff]
        · rw [if_pos hat, if_neg]
          rw [items_marked]
          exact fun h => hat h.1
    · have hcut : cut c = c := if_neg hc
      have hmem : front ++ c :: s ++ [0] = front ++ [c] ++ s ++ [0] := by simp
      have hstarts : starts front.length (c :: s) = starts (front.length + 1) s := by
        rw [starts, if_neg fun h => hc h.1]
      have htail : (items (c :: s)).tail = (items s).tail := by
        obtain ⟨item, rest, hitems⟩ := List.exists_cons_of_ne_nil (items_ne_nil s)
        rw [items_cons hc, hitems]
        rfl
      have hnext := ih (front ++ [c]) list pos hs.2 (by rwa [hlen, ← hstarts])
      rw [hlen] at hnext
      have hbytes : front ++ [c] ++ s.map cut ++ [0] = front ++ (c :: s).map cut ++ [0] := by
        rw [List.map_cons, hcut]
        simp
      rw [if_neg hc, hmem, hnext, htail, hstarts, hbytes]

/-! ### Normalizing -/

/-- A call into the buffer changes nothing before its slot. -/
structure Into (input buffer : List UInt8) (slot rc : ℕ) (buffer' : List UInt8) : Prop where
  length : buffer'.length = buffer.length
  before : buffer'.take slot = buffer.take slot
  accepts : rc = 0 ↔ Accepts bufferLen input
  string : rc = 0 → cstring buffer' slot = normalBytes input

theorem normalizeInto_ok (input : List UInt8) {buffer : List UInt8} {slot : ℕ} (h : slot + bufferLen ≤ buffer.length) :
    ∃ rc buffer', normalizeInto input buffer slot = .ok (rc, buffer') ∧ Into input buffer slot rc buffer' := by
  have hroom : bufferLen ≤ (buffer.drop slot).length := by
    rw [List.length_drop]
    omega
  obtain ⟨rc, out, hcall, hcalled⟩ := sshnpdNormalizeAtsign_spec input hroom
  have htake : (buffer.take slot).length = slot := by
    rw [List.length_take]
    omega
  refine ⟨rc, buffer.take slot ++ out, by rw [normalizeInto, hcall], ?_, ?_, hcalled.accepts, fun hrc => ?_⟩
  · rw [List.length_append, hcalled.length, htake, List.length_drop]
    omega
  · rw [List.take_append_of_le_length (by omega), List.take_take, Nat.min_self]
  · rw [hrc] at hcalled
    rw [← hcalled.cstring, cstring, cstring, List.drop_zero, List.drop_append_of_le_length (by omega),
      List.drop_eq_nil_of_le (by omega), List.nil_append]

/-- A string that ends before `m` stays while what is before `m` does. -/
theorem cstring_of_take {mem mem' : List UInt8} {p m : ℕ} (hm : m ≤ mem.length) (hlen : mem'.length = mem.length)
    (htake : mem'.take m = mem.take m) (hend : p + (cstring mem p).length < m) : cstring mem' p = cstring mem p := by
  have hsplit (l : List UInt8) (hl : m ≤ l.length) : l.drop p = (l.take m).drop p ++ l.drop m := by
    have hle : p ≤ (l.take m).length := by
      rw [List.length_take]
      omega
    calc l.drop p = (l.take m ++ l.drop m).drop p := by rw [List.take_append_drop]
      _ = (l.take m).drop p ++ l.drop m := List.drop_append_of_le_length hle
  have hwithin : ((mem.take m).drop p).length = m - p := by
    rw [List.length_drop, List.length_take]
    omega
  have hshort : ((mem.take m).drop p).takeWhile (· != 0) = cstring mem p := by
    rw [cstring, hsplit mem hm, List.takeWhile_append] at hend ⊢
    split
    · rename_i hall
      rw [if_pos hall, List.length_append, hwithin] at hend
      omega
    · rfl
  rw [cstring, hsplit mem' (hlen ▸ hm), htake, List.takeWhile_append, hshort, if_neg]
  rw [hwithin]
  omega

/-- The entries that were kept, each with its string in its own slot of the buffer. -/
structure Slots (list : List (Option Entry)) (norm : List UInt8) (kept : List (List UInt8)) : Prop where
  entries : list.take kept.length = (List.range kept.length).map fun j => some (.buf (j * bufferLen))
  strings : (List.range kept.length).map (fun j => cstring norm (j * bufferLen)) = kept
  short : ∀ s ∈ kept, s.length < bufferLen
  length : norm.length = list.length * bufferLen

theorem Slots.room {list : List (Option Entry)} {norm : List UInt8} {kept : List (List UInt8)}
    (h : Slots list norm kept) : kept.length ≤ list.length := by
  have hlen := congrArg List.length h.entries
  rw [List.length_take, List.length_map, List.length_range] at hlen
  omega

/-- What is written from the next slot on leaves the strings that were kept. -/
theorem Slots.write {list : List (Option Entry)} {norm norm' : List UInt8} {kept : List (List UInt8)}
    (h : Slots list norm kept) (hlen : norm'.length = norm.length)
    (hbefore : norm'.take (kept.length * bufferLen) = norm.take (kept.length * bufferLen)) : Slots list norm' kept where
  entries := h.entries
  strings := by
    have hsame : ∀ j ∈ List.range kept.length, cstring norm' (j * bufferLen) = cstring norm (j * bufferLen) := by
      intro j hj
      rw [List.mem_range] at hj
      have hmem : cstring norm (j * bufferLen) ∈ kept := by
        rw [← h.strings]
        exact List.mem_map_of_mem (List.mem_range.mpr hj)
      have hnext : (j + 1) * bufferLen ≤ kept.length * bufferLen := Nat.mul_le_mul_right _ hj
      have hend := h.short _ hmem
      apply cstring_of_take (m := kept.length * bufferLen) _ hlen hbefore
      · rw [Nat.add_mul, Nat.one_mul] at hnext
        omega
      · rw [h.length]
        exact Nat.mul_le_mul_right _ h.room
    rw [List.map_congr_left hsame, h.strings]
  short := h.short
  length := hlen.trans h.length

/-- One more string is kept. -/
theorem Slots.push {list list' : List (Option Entry)} {norm s : List UInt8} {kept : List (List UInt8)}
    (h : Slots list norm kept) (hlen : list'.length = list.length)
    (htake : list'.take (kept.length + 1) = list.take kept.length ++ [some (.buf (kept.length * bufferLen))])
    (hstring : cstring norm (kept.length * bufferLen) = s) (hshort : s.length < bufferLen) :
    Slots list' norm (kept ++ [s]) where
  entries := by
    rw [List.length_append, List.length_singleton, htake, List.range_succ, List.map_append, h.entries, List.map_singleton]
  strings := by
    rw [List.length_append, List.length_singleton, List.range_succ, List.map_append, h.strings, List.map_singleton,
      hstring]
  short := by
    intro t ht
    rcases List.mem_append.mp ht with ht | ht
    · exact h.short t ht
    · rwa [List.mem_singleton.mp ht]
  length := hlen ▸ h.length

/-- The normal forms of the items that are not the device's. -/
def keptForms (device : Option (List UInt8)) (its : List (List UInt8)) : List (List UInt8) :=
  (its.map normalBytes).filter fun form => device ≠ some form

/-- The entries from `i` on are normalized in order, each into the next free slot, until one is refused. The free
slot is never behind the entry that is read, so no entry is lost. -/
theorem filterLoop_spec {mem : List UInt8} (device : Option (List UInt8)) {rest : List ℕ}
    {list : List (Option Entry)} {norm : List UInt8} {kept : List (List UInt8)} {i : ℕ} (hslots : Slots list norm kept)
    (hi : kept.length ≤ i) (hlen : i + rest.length = list.length) (hdrop : list.drop i = rest.map (some ∘ Entry.arg))
    (hin : ∀ p ∈ rest, p < mem.length) :
    ((∀ p ∈ rest, Accepts bufferLen (cstring mem p)) ∧
      ∃ list' norm', filterLoop mem device list norm kept.length i rest.length =
          .ok (list', norm', (kept ++ keptForms device (rest.map (cstring mem))).length) ∧
        Slots list' norm' (kept ++ keptForms device (rest.map (cstring mem)))) ∨
      (¬∀ p ∈ rest, Accepts bufferLen (cstring mem p)) ∧
        filterLoop mem device list norm kept.length i rest.length = .error .refused := by
  induction rest generalizing list norm kept i with
  | nil =>
    refine Or.inl ⟨fun p hp => absurd hp List.not_mem_nil, list, norm, ?_, ?_⟩
    · simp [filterLoop, keptForms]
    · simpa [keptForms] using hslots
  | cons p rest ih =>
    rw [List.length_cons] at hlen
    have hslot : kept.length * bufferLen + bufferLen ≤ norm.length := by
      rw [hslots.length, ← Nat.succ_mul]
      exact Nat.mul_le_mul_right _ (by omega)
    have hentry : load list i = .ok (some (Entry.arg p)) := by
      have hget := congrArg (·[0]?) hdrop
      simp only [List.getElem?_drop, Nat.add_zero] at hget
      rw [load, hget]
      rfl
    have hnext : list.drop (i + 1) = rest.map (some ∘ Entry.arg) := by
      rw [← List.drop_drop, hdrop]
      rfl
    have hstring : entryString mem norm (some (Entry.arg p)) = .ok (cstring mem p) := if_pos (hin p List.mem_cons_self)
    obtain ⟨rc, norm', hcall, hinto⟩ := normalizeInto_ok (cstring mem p) hslot
    rw [List.length_cons, filterLoop, hentry, ok_bind, hstring, ok_bind, hcall, ok_bind]
    dsimp only
    have hkept := hslots.write hinto.length hinto.before
    by_cases hrc : rc = 0
    · have haccepts := hinto.accepts.mp hrc
      have hform := hinto.string hrc
      have hin' : ∀ q ∈ rest, q < mem.length := fun q hq => hin q (List.mem_cons_of_mem _ hq)
      rw [if_neg (not_not.mpr hrc), hform, List.forall_mem_cons, List.map_cons]
      by_cases hdevice : device = some (normalBytes (cstring mem p))
      · have hsame : keptForms device (cstring mem p :: rest.map (cstring mem)) =
            keptForms device (rest.map (cstring mem)) := by
          rw [keptForms, List.map_cons, List.filter_cons_of_neg (by simpa using hdevice), keptForms]
        rw [if_pos hdevice, hsame]
        simp only [haccepts, true_and]
        exact ih hkept (by omega) (by omega) hnext hin'
      · have hmore : kept ++ keptForms device (cstring mem p :: rest.map (cstring mem)) =
            kept ++ [normalBytes (cstring mem p)] ++ keptForms device (rest.map (cstring mem)) := by
          rw [keptForms, List.map_cons, List.filter_cons_of_pos (by simpa using hdevice), keptForms, List.append_assoc,
            List.singleton_append]
        obtain ⟨list', hsave, hlength, htake, hlater⟩ :=
          save_ok (show kept.length < list.length by omega) (some (Entry.buf (kept.length * bufferLen)))
        have hpushed := hkept.push hlength htake hform haccepts.room
        rw [if_neg hdevice, hsave, ok_bind, hmore]
        simp only [haccepts, true_and]
        have hone : (kept ++ [normalBytes (cstring mem p)]).length = kept.length + 1 := by simp
        have hrest := ih hpushed (show _ ≤ i + 1 by omega) (by omega) (by rw [hlater _ (by omega), hnext]) hin'
        rwa [hone] at hrest
    · rw [if_pos hrc]
      refine Or.inr ⟨fun h => hrc (hinto.accepts.mpr (h p List.mem_cons_self)), rfl⟩

/-! ### The list -/

theorem normalizedDevice_eq (device : List UInt8) : normalizedDevice heap device =
    .ok (if Accepts bufferLen device then some (normalBytes device) else none) := by
  obtain ⟨rc, out, hcall, hinto⟩ := normalizeInto_ok device (heap.fresh_room)
  rw [normalizedDevice, hcall, ok_bind]
  by_cases hrc : rc = 0
  · rw [if_pos (hinto.accepts.mp hrc)]
    simp only [hrc, if_true, hinto.string hrc]
    rfl
  · rw [if_neg fun h => hrc (hinto.accepts.mpr h)]
    simp only [hrc, if_false]
    rfl

theorem mapM_ok {α β : Type} {f : α → Except Stop β} {g : α → β} {l : List α} (h : ∀ a ∈ l, f a = .ok (g a)) :
    l.mapM f = .ok (l.map g) := by
  induction l with
  | nil => rfl
  | cons a l ih =>
    rw [List.forall_mem_cons] at h
    rw [List.mapM_cons, h.1, ok_bind, ih h.2, ok_bind]
    rfl

/-- The manager list holds the strings `forms`. -/
structure Holds (m : ManagerList) (forms : List (List UInt8)) : Prop where
  slots : Slots m.list m.norm forms
  len : m.len = forms.length

theorem Holds.load {m : ManagerList} {forms : List (List UInt8)} (h : Holds m forms) {j : ℕ} (hj : j < forms.length) :
    load m.list j = .ok (some (.buf (j * bufferLen))) ∧ j * bufferLen < m.norm.length := by
  have hget := congrArg (·[j]?) h.slots.entries
  simp only [List.getElem?_take_of_lt hj, List.getElem?_map, List.getElem?_range hj, Option.map_some] at hget
  refine ⟨by rw [Managers.load, hget], ?_⟩
  rw [h.slots.length]
  exact Nat.mul_lt_mul_of_pos_right (by have := h.slots.room; omega) (by decide)

theorem Holds.strings {m : ManagerList} {forms : List (List UInt8)} (h : Holds m forms) : m.strings = .ok forms := by
  have hone : ∀ j ∈ List.range forms.length, (do entryString [] m.norm (← Managers.load m.list j)) =
      (.ok (cstring m.norm (j * bufferLen)) : Except Stop (List UInt8)) := by
    intro j hj
    obtain ⟨hload, hin⟩ := h.load (List.mem_range.mp hj)
    rw [hload, ok_bind]
    exact if_pos hin
  rw [ManagerList.strings, h.len, mapM_ok hone, h.slots.strings]

/-- The loop finds a string that one of the entries holds. -/
theorem Holds.foldlM_matchEntry {m : ManagerList} {forms : List (List UInt8)} (h : Holds m forms)
    (normalized : List UInt8) : (List.range m.len).foldlM (matchEntry m normalized) false =
      .ok (decide (cstring normalized 0 ∈ forms)) := by
  have hfold (l : List ℕ) (hl : ∀ j ∈ l, j < forms.length) (found : Bool) : l.foldlM (matchEntry m normalized) found =
      .ok (found || l.any fun j => cstring normalized 0 = cstring m.norm (j * bufferLen)) := by
    induction l generalizing found with
    | nil => simp [pure, Except.pure]
    | cons j l ih =>
      rw [List.forall_mem_cons] at hl
      obtain ⟨hload, hin⟩ := h.load hl.1
      have hstring : entryString [] m.norm (some (.buf (j * bufferLen))) = .ok (cstring m.norm (j * bufferLen)) :=
        if_pos hin
      rw [List.foldlM_cons, matchEntry]
      cases found with
      | true =>
        rw [if_pos rfl, pure_bind, ih hl.2]
        rfl
      | false =>
        rw [if_neg Bool.false_ne_true, hload, ok_bind]
        dsimp only
        rw [hstring, ok_bind, pure_bind, ih hl.2]
        rfl
  rw [h.len, hfold _ fun j hj => List.mem_range.mp hj]
  refine congrArg Except.ok (Bool.eq_iff_iff.mpr ?_)
  rw [Bool.false_or, List.any_eq_true, decide_eq_true_eq]
  have hmem : cstring normalized 0 ∈ forms ↔
      ∃ j ∈ List.range forms.length, cstring m.norm (j * bufferLen) = cstring normalized 0 := by
    rw [← List.mem_map, h.slots.strings]
  rw [hmem]
  constructor
  · rintro ⟨j, hj, heq⟩
    exact ⟨j, hj, (of_decide_eq_true heq).symm⟩
  · rintro ⟨j, hj, heq⟩
    exact ⟨j, hj, decide_eq_true heq.symm⟩

/-- A valid atSign is a manager when its normal form is in the list, and nothing else is. -/
theorem Holds.isManagerAtsign {m : ManagerList} {forms : List (List UInt8)} (h : Holds m forms) (hne : forms ≠ [])
    (atsign : Option (List UInt8)) : ∃ b, isManagerAtsign heap m atsign = .ok b ∧
      (b = true ↔ ∃ x ∈ atsign, Accepts bufferLen x ∧ normalBytes x ∈ forms) := by
  have hfalse (x : List UInt8) (hx : ¬Accepts bufferLen x) :
      false = true ↔ ∃ y ∈ some x, Accepts bufferLen y ∧ normalBytes y ∈ forms := by
    constructor
    · exact fun h => absurd h Bool.false_ne_true
    · rintro ⟨y, hy, haccepts, -⟩
      exact absurd (Option.some.inj hy ▸ haccepts) hx
  cases atsign with
  | none => exact ⟨false, rfl, by simp⟩
  | some atsign =>
    rw [Managers.isManagerAtsign]
    dsimp only
    by_cases hempty : atsign = []
    · refine ⟨false, if_pos (Or.inl hempty), hfalse _ fun haccepts => haccepts.ne_nil hempty⟩
    · have hlen : m.len ≠ 0 := by
        rw [h.len]
        exact fun hzero => hne (List.length_eq_zero_iff.mp hzero)
      obtain ⟨rc, normalized, hcall, hinto⟩ := normalizeInto_ok atsign heap.fresh_room
      rw [if_neg (not_or.mpr ⟨hempty, hlen⟩), hcall, ok_bind]
      dsimp only
      by_cases hrc : rc = 0
      · rw [if_neg (not_not.mpr hrc), h.foldlM_matchEntry, hinto.string hrc]
        refine ⟨_, rfl, ?_⟩
        rw [decide_eq_true_eq]
        constructor
        · exact fun hmem => ⟨atsign, rfl, hinto.accepts.mp hrc, hmem⟩
        · rintro ⟨y, hy, -, hmem⟩
          rwa [Option.some.inj hy]
      · rw [if_pos hrc]
        exact ⟨false, rfl, hfalse _ fun haccepts => hrc (hinto.accepts.mpr haccepts)⟩

/-- The normal forms of the items other than the device. -/
def managerForms (manager device : List UInt8) : List (List UInt8) :=
  ((items manager).filter fun item => ¬IsDevice device item).map normalBytes

theorem keptForms_eq (its : List (List UInt8)) (device : List UInt8) :
    keptForms (if Accepts bufferLen device then some (normalBytes device) else none) its =
      (its.filter fun item => ¬IsDevice device item).map normalBytes := by
  rw [keptForms, List.filter_map]
  congr 1
  apply List.filter_congr
  intro item _
  by_cases h : Accepts bufferLen device
  · simp [h, IsDevice, eq_comm]
  · simp [h, IsDevice]

theorem managerForms_ne_nil {manager device : List UInt8} :
    managerForms manager device ≠ [] ↔ ∃ item ∈ items manager, ¬IsDevice device item := by
  rw [managerForms, ne_eq, List.map_eq_nil_iff, List.filter_eq_nil_iff]
  simp

/-- The manager list is refused, or holds the normal forms of the items other than the device. -/
theorem parseManagerList_cases (manager : Argument) (device : List UInt8) :
    (ListAccepted manager.bytes device ∧ ∃ m, parseManagerList heap manager device = .ok m ∧
      Holds m (managerForms manager.bytes device)) ∨
      ¬ListAccepted manager.bytes device ∧ parseManagerList heap manager device = .error .refused := by
  generalize hn : manager.bytes.dropLast.count comma = n
  have hstarts : (starts 0 manager.bytes).length = n := by rw [length_starts, hn]
  have hfirst : save (List.replicate (n + 1) none) 0 (some (Entry.arg 0)) =
      .ok (some (Entry.arg 0) :: List.replicate n none) := by
    rw [save_of_lt (by simp)]
    rfl
  have hsplit := splitLoop_spec [] manager.bytes (some (Entry.arg 0) :: List.replicate n none) 1 manager.noNul
    (by rw [List.length_nil, hstarts, List.length_cons, List.length_replicate, Nat.add_comm])
  have hstrings := cstring_starts [] manager.noNul
  simp only [List.nil_append, List.length_nil] at hsplit hstrings
  rw [parseManagerList, countSeparators_eq, ok_bind, hn, hfirst, ok_bind, Argument.memory, hsplit]
  by_cases hmarked : ∀ item ∈ (items manager.bytes).tail, item.head? = some atChar
  · have hlist : (some (Entry.arg 0) :: List.replicate n none).take 1 ++ (starts 0 manager.bytes).map (some ∘ Entry.arg) ++
        (some (Entry.arg 0) :: List.replicate n none).drop (1 + (starts 0 manager.bytes).length) =
          (0 :: starts 0 manager.bytes).map (some ∘ Entry.arg) := by
      rw [hstarts, Nat.add_comm 1, List.drop_succ_cons, List.drop_eq_nil_of_le (by simp), List.append_nil]
      rfl
    have hlen : (0 :: starts 0 manager.bytes).length = n + 1 := by rw [List.length_cons, hstarts]
    have hslots : Slots ((0 :: starts 0 manager.bytes).map (some ∘ Entry.arg)) (heap.fresh ((n + 1) * bufferLen)) [] := by
      refine ⟨rfl, rfl, fun s hs => absurd hs List.not_mem_nil, ?_⟩
      rw [heap.length_fresh, List.length_map, hlen]
    have hin : ∀ p ∈ 0 :: starts 0 manager.bytes, p < (manager.bytes.map cut ++ [0]).length := by
      intro p hp
      rw [List.length_append, List.length_map, List.length_singleton]
      rcases List.mem_cons.mp hp with rfl | hp
      · omega
      · have hlt := mem_starts_lt hp
        omega
    rw [if_pos hmarked, ok_bind]
    dsimp only
    rw [hlist, normalizedDevice_eq, ok_bind]
    have hloop := filterLoop_spec (if Accepts bufferLen device then some (normalBytes device) else none) hslots
      (Nat.le_refl 0) (by rw [List.length_map, Nat.zero_add]) rfl hin
    rw [hstrings, keptForms_eq, hlen] at hloop
    have hitems : (∀ p ∈ 0 :: starts 0 manager.bytes, Accepts bufferLen (cstring (manager.bytes.map cut ++ [0]) p)) ↔
        ∀ item ∈ items manager.bytes, Accepts bufferLen item := by
      rw [← hstrings, List.forall_mem_map]
    rw [hitems] at hloop
    rcases hloop with ⟨haccepts, list', norm', hloop, hkept⟩ | ⟨hnot, hloop⟩
    · simp only [List.nil_append, List.length_nil] at hloop hkept
      rw [← managerForms] at hloop hkept
      rw [hloop, ok_bind]
      dsimp only
      by_cases hempty : managerForms manager.bytes device = []
      · rw [hempty]
        exact Or.inr ⟨fun h => managerForms_ne_nil.mpr h.other hempty, rfl⟩
      · have hlength : (managerForms manager.bytes device).length ≠ 0 := fun h => hempty (List.length_eq_zero_iff.mp h)
        rw [if_neg hlength]
        exact Or.inl ⟨⟨haccepts, hmarked, managerForms_ne_nil.mp hempty⟩, _, rfl, hkept, rfl⟩
    · refine Or.inr ⟨fun h => hnot h.items, ?_⟩
      simp only [List.length_nil] at hloop
      rw [hloop]
      rfl
  · rw [if_neg hmarked]
    exact Or.inr ⟨fun h => hmarked h.marked, rfl⟩

/-- The list is accepted exactly when its items are atSigns, each after the first marked, and not all the device's;
it then holds their normal forms but the device's, and a manager is who has one of them. Nothing is read or
written outside of the argument and the buffers. -/
theorem parseManagerList_spec (manager : Argument) (device : List UInt8) :
    parseManagerList heap manager device ≠ .error .outside ∧
      ((∃ m, parseManagerList heap manager device = .ok m) ↔ ListAccepted manager.bytes device) ∧
      ∀ m, parseManagerList heap manager device = .ok m → m.strings = .ok (managerForms manager.bytes device) ∧
        ∀ atsign, ∃ b, isManagerAtsign heap m atsign = .ok b ∧
          (b = true ↔ ∃ x ∈ atsign, Accepts bufferLen x ∧ normalBytes x ∈ managerForms manager.bytes device) := by
  rcases parseManagerList_cases heap manager device with ⟨haccepted, m, hm, hholds⟩ | ⟨hnot, hrefused⟩
  · rw [hm]
    refine ⟨fun h => (by cases h), iff_of_true ⟨m, rfl⟩ haccepted, ?_⟩
    intro m' hm'
    cases hm'
    exact ⟨hholds.strings, hholds.isManagerAtsign heap (managerForms_ne_nil.mpr haccepted.other)⟩
  · rw [hrefused]
    refine ⟨fun h => (by cases h), iff_of_false ?_ hnot, ?_⟩
    · rintro ⟨m, hm⟩
      cases hm
    · intro m hm
      cases hm

theorem items_text {manager device : List UInt8} {list : String} (hlist : manager = bytesOf list.toList)
    (haccepted : ListAccepted manager device) {item : List UInt8} (hitem : item ∈ items manager) :
    ∃ text normal : String, bytesOf text.toList = item ∧ normalizeAtsign text = some normal ∧
      bytesOf normal.toList = normalBytes item := by
  obtain ⟨ds, rfl⟩ := items_bytesOf list.toList item (hlist ▸ hitem)
  have hbytes := normalizeAtsign_bytes (String.ofList ds)
  rw [String.toList_ofList] at hbytes
  obtain ⟨normal, hnormal⟩ := Option.isSome_iff_exists.mp (hbytes.1.mp (haccepted.items _ hitem))
  exact ⟨String.ofList ds, normal, by rw [String.toList_ofList], hnormal, (hbytes.2 normal hnormal).symm⟩

theorem forms_texts {manager device : List UInt8} {list : String} (hlist : manager = bytesOf list.toList)
    (haccepted : ListAccepted manager device) :
    ∃ texts : List String, texts.map (fun text => bytesOf text.toList) = managerForms manager device := by
  have hrange : managerForms manager device ∈ Set.range (List.map fun text : String => bytesOf text.toList) := by
    rw [Set.range_list_map]
    intro form hform
    obtain ⟨item, hitem, rfl⟩ := List.mem_map.mp hform
    obtain ⟨-, normal, -, -, hnormal⟩ := items_text hlist haccepted (List.mem_of_mem_filter hitem)
    exact ⟨normal, hnormal⟩
  exact hrange

theorem isManagerAtsign_iff {params : SshnpdParams} {sender : String} :
    CDaemon.isManagerAtsign params (some sender) = true ↔ ∃ normal ∈ normalizeAtsign sender, normal ∈ params.managerList := by
  rw [CDaemon.isManagerAtsign]
  cases normalizeAtsign sender with
  | none => simp
  | some normal => simp

theorem mem_forms_iff {manager device : List UInt8} {own : String} (hdevice : device = bytesOf own.toList)
    {list : String} (hlist : manager = bytesOf list.toList) (haccepted : ListAccepted manager device) (text : String) :
    bytesOf text.toList ∈ managerForms manager device ↔ ∃ item : String, bytesOf item.toList ∈ items manager ∧
      normalizeAtsign item = some text ∧ normalizeAtsign own ≠ some text := by
  have hinj {s t : String} (h : bytesOf s.toList = bytesOf t.toList) : s = t :=
    String.toList_injective (bytesOf_injective h)
  have howner {item : String} (hitem : normalizeAtsign item = some text) :
      IsDevice device (bytesOf item.toList) ↔ normalizeAtsign own = some text := by
    rw [IsDevice, hdevice, (normalizeAtsign_bytes item).2 text hitem]
    constructor
    · rintro ⟨haccepts, hsame⟩
      obtain ⟨normal, hnormal⟩ := Option.isSome_iff_exists.mp ((normalizeAtsign_bytes own).1.mp haccepts)
      rw [(normalizeAtsign_bytes own).2 normal hnormal] at hsame
      rw [hnormal, hinj hsame]
    · intro hown
      exact ⟨(normalizeAtsign_bytes own).1.mpr (Option.isSome_iff_exists.mpr ⟨text, hown⟩),
        ((normalizeAtsign_bytes own).2 text hown).symm⟩
  simp only [managerForms, List.mem_map, List.mem_filter, decide_eq_true_eq]
  constructor
  · rintro ⟨form, ⟨hin, hother⟩, hform⟩
    obtain ⟨item, normal, rfl, hitem, hnormal⟩ := items_text hlist haccepted hin
    obtain rfl := hinj (hnormal.trans hform)
    exact ⟨item, hin, hitem, fun hown => hother ((howner hitem).mpr hown)⟩
  · rintro ⟨item, hin, hitem, hother⟩
    exact ⟨_, ⟨hin, fun h => hother ((howner hitem).mp h)⟩, (normalizeAtsign_bytes item).2 text hitem⟩

/-- Over texts, the manager list has the normal forms of the items of `--manager` but the device's, and the check
of a sender that the handlers are modelled with is `is_manager_atsign`. -/
theorem manager_check_text (manager : Argument) {s : String} (hlist : manager.bytes = bytesOf s.toList)
    (own : String) {m : ManagerList} (hm : parseManagerList heap manager (bytesOf own.toList) = .ok m) :
    ∃ texts : List String, m.strings = .ok (texts.map fun text => bytesOf text.toList) ∧
      (∀ text, text ∈ texts ↔ ∃ item : String, bytesOf item.toList ∈ items manager.bytes ∧
        normalizeAtsign item = some text ∧ normalizeAtsign own ≠ some text) ∧
      ∀ params : SshnpdParams, params.managerList = texts → ∀ atsign : Option String,
        isManagerAtsign heap m (atsign.map fun text => bytesOf text.toList) =
          .ok (CDaemon.isManagerAtsign params atsign) := by
  rcases parseManagerList_cases heap manager (bytesOf own.toList) with ⟨haccepted, m', hm', hholds⟩ | ⟨-, hrefused⟩
  · cases hm.symm.trans hm'
    obtain ⟨texts, htexts⟩ := forms_texts hlist haccepted
    have hmem (text : String) : bytesOf text.toList ∈ managerForms manager.bytes (bytesOf own.toList) ↔ text ∈ texts := by
      rw [← htexts]
      exact List.mem_map_of_injective fun s t h => String.toList_injective (bytesOf_injective h)
    refine ⟨texts, by rw [hholds.strings, htexts], fun text => ?_, ?_⟩
    · rw [← hmem, mem_forms_iff rfl hlist haccepted]
    intro params hparams atsign
    obtain ⟨b, hb, hiff⟩ := hholds.isManagerAtsign heap (managerForms_ne_nil.mpr haccepted.other)
      (atsign.map fun text => bytesOf text.toList)
    rw [hb]
    refine congrArg Except.ok (Bool.eq_iff_iff.mpr (hiff.trans ?_))
    cases atsign with
    | none => simp [CDaemon.isManagerAtsign]
    | some sender =>
      have hbytes := normalizeAtsign_bytes sender
      rw [isManagerAtsign_iff, hparams]
      constructor
      · rintro ⟨x, hx, haccepts, hform⟩
        cases hx
        obtain ⟨normal, hnormal⟩ := Option.isSome_iff_exists.mp (hbytes.1.mp haccepts)
        rw [hbytes.2 normal hnormal, hmem] at hform
        exact ⟨normal, hnormal, hform⟩
      · rintro ⟨normal, hnormal, htext⟩
        refine ⟨_, rfl, hbytes.1.mpr (Option.isSome_iff_exists.mpr ⟨normal, hnormal⟩), ?_⟩
        rwa [hbytes.2 normal hnormal, hmem]
  · cases hm.symm.trans hrefused

/-- `@al,@B.o,` -/
def sampleArgument : Argument where
  bytes := [0x40, 0x61, 0x6C, 0x2C, 0x40, 0x42, 0x2E, 0x6F, 0x2C]
  noNul := by decide
  short := by decide

def zeroHeap : Heap := ⟨fun n => List.replicate n 0, fun _ => List.length_replicate⟩

/-- The daemon `@bo` has one manager here. -/
theorem parseManagerList_sample : ∃ m, parseManagerList zeroHeap sampleArgument [0x40, 0x62, 0x6F] = .ok m ∧
    m.strings = .ok [[0x40, 0x61, 0x6C]] ∧ isManagerAtsign zeroHeap m (some [0x41, 0x6C]) = .ok true := by
  obtain ⟨-, haccepted, hheld⟩ := parseManagerList_spec zeroHeap sampleArgument [0x40, 0x62, 0x6F]
  obtain ⟨m, hm⟩ := haccepted.mpr ⟨by decide +kernel, by decide +kernel, by decide +kernel⟩
  have hforms : managerForms sampleArgument.bytes [0x40, 0x62, 0x6F] = [[0x40, 0x61, 0x6C]] := by decide +kernel
  obtain ⟨hstrings, hmanager⟩ := hheld m hm
  obtain ⟨b, hb, hiff⟩ := hmanager (some [0x41, 0x6C])
  rw [hforms] at hstrings hiff
  have htrue : b = true := hiff.mpr ⟨_, rfl, by decide +kernel, by decide +kernel⟩
  exact ⟨m, hm, hstrings, htrue ▸ hb⟩

/-- The handlers' check takes `Al` for a manager here, and not the daemon's own atSign. -/
theorem manager_check_text_sample : ∃ m, parseManagerList zeroHeap sampleArgument (bytesOf "@bo".toList) = .ok m ∧
    ∃ texts : List String, m.strings = .ok (texts.map fun text => bytesOf text.toList) ∧
      ∀ params : SshnpdParams, params.managerList = texts → CDaemon.isManagerAtsign params (some "Al") = true ∧
        CDaemon.isManagerAtsign params (some "b.o") = false ∧
        isManagerAtsign zeroHeap m (some (bytesOf "b.o".toList)) = .ok false := by
  have haccepted : ListAccepted sampleArgument.bytes (bytesOf "@bo".toList) :=
    ⟨by decide +kernel, by decide +kernel, by decide +kernel⟩
  rcases parseManagerList_cases zeroHeap sampleArgument (bytesOf "@bo".toList) with ⟨-, m, hm, -⟩ | ⟨hnot, -⟩
  · obtain ⟨texts, hstrings, hmem, hcheck⟩ := manager_check_text zeroHeap sampleArgument (s := "@al,@B.o,")
      (by decide +kernel) "@bo" hm
    have hal : "@al" ∈ texts := (hmem _).mpr ⟨"@al", by decide +kernel, by decide +kernel, by decide +kernel⟩
    have hown : "@bo" ∉ texts := by
      intro hbo
      obtain ⟨-, -, -, hother⟩ := (hmem _).mp hbo
      exact hother (by decide +kernel)
    refine ⟨m, hm, texts, hstrings, fun params hparams => ?_⟩
    have hfalse : CDaemon.isManagerAtsign params (some "b.o") = false := by
      have hnormal : normalizeAtsign "b.o" = some "@bo" := by decide +kernel
      rw [CDaemon.isManagerAtsign, hparams]
      simp [hnormal, hown]
    refine ⟨isManagerAtsign_iff.mpr ⟨"@al", by decide +kernel, hparams ▸ hal⟩, hfalse, ?_⟩
    rw [← hfalse]
    exact hcheck params hparams (some "b.o")
  · exact absurd haccepted hnot

end NoPorts.CDaemon.Managers
