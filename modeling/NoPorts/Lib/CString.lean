import Mathlib.Data.List.TakeWhile

/-! Buffers of a fixed size, and the strings that end in them at a NUL. -/
namespace NoPorts.Lib

/-- `memcpy` of `data` to `offset`; none when a byte would fall outside. -/
def store {α : Type*} (buffer : List α) (offset : ℕ) (data : List α) : Option (List α) :=
  if offset + data.length ≤ buffer.length then
    some (buffer.take offset ++ data ++ buffer.drop (offset + data.length))
  else none

theorem store_of_le {α : Type*} {buffer data : List α} {offset : ℕ}
    (h : offset + data.length ≤ buffer.length) : ∃ stored, store buffer offset data = some stored ∧
      stored.length = buffer.length ∧
        stored.take (offset + data.length) = buffer.take offset ++ data := by
  have hoffset : (buffer.take offset).length = offset := by
    rw [List.length_take]
    omega
  have hwritten : (buffer.take offset ++ data).length = offset + data.length := by
    rw [List.length_append, hoffset]
  refine ⟨_, if_pos h, ?_, ?_⟩
  · rw [List.length_append, hwritten, List.length_drop]
    omega
  · rw [← hwritten, List.take_left]

/-- What lies behind the bytes stored stays. -/
theorem drop_of_store {α : Type*} {buffer data stored : List α} {offset n : ℕ}
    (h : store buffer offset data = some stored) (hn : offset + data.length ≤ n) :
    stored.drop n = buffer.drop n := by
  unfold store at h
  split at h
  · rename_i hle
    cases h
    have hwritten : (buffer.take offset ++ data).length = offset + data.length := by
      rw [List.length_append, List.length_take, Nat.min_eq_left (by omega)]
    rw [List.drop_append, hwritten, List.drop_drop, List.drop_eq_nil_of_le (by omega),
      List.nil_append, Nat.add_sub_cancel' hn]
  · cases h

/-- The string at `p`. -/
def cstring (mem : List UInt8) (p : ℕ) : List UInt8 := (mem.drop p).takeWhile (· != 0)

/-- What `strtok_r` returns for the string at `p`: a token, the rest of the string, and the
memory it leaves. -/
def strtok_r (delim : UInt8) (mem : List UInt8) (p : ℕ) : Option (ℕ × ℕ × List UInt8) :=
  let start := p + ((cstring mem p).takeWhile (· == delim)).length
  let stop := start + ((cstring mem start).takeWhile (· != delim)).length
  if stop = start then none
  else if mem[stop]? = some delim then some (start, stop + 1, mem.set stop 0)
  else some (start, stop, mem)

/-- All the tokens of the string at `p`. -/
def strtokAll (delim : UInt8) : ℕ → List UInt8 → ℕ → List ℕ × List UInt8
  | 0, mem, _ => ([], mem)
  | fuel + 1, mem, p =>
    match strtok_r delim mem p with
    | none => ([], mem)
    | some (start, rest, mem) =>
      let more := strtokAll delim fuel mem rest
      (start :: more.1, more.2)

/-- The non-empty pieces between delimiters. -/
def tokens (delim : UInt8) (s : List UInt8) : List (List UInt8) := (s.splitOn delim).filter (· ≠ [])

theorem cstring_append {front s back : List UInt8} (hs : 0 ∉ s) :
    cstring (front ++ s ++ 0 :: back) front.length = s := by
  have hmem : ∀ c ∈ s, (c != 0) = true := by
    intro c hc
    refine bne_iff_ne.mpr fun h => hs ?_
    rwa [← h]
  rw [cstring, List.append_assoc, List.drop_left, List.takeWhile_append_of_pos hmem]
  simp

theorem drop_of_drop {α : Type*} {mem mem' : List α} {p q : ℕ} (h : mem'.drop p = mem.drop p)
    (hpq : p ≤ q) : mem'.drop q = mem.drop q := by
  rw [← Nat.add_sub_cancel' hpq, ← List.drop_drop, ← List.drop_drop, h]

theorem cstring_of_drop {mem mem' : List UInt8} {p q : ℕ} (h : mem'.drop p = mem.drop p)
    (hpq : p ≤ q) : cstring mem' q = cstring mem q := by
  rw [cstring, cstring, drop_of_drop h hpq]

theorem takeWhile_append_stop {α : Type*} {p : α → Bool} {xs rest : List α} (h : ∀ c ∈ xs, p c = true)
    (hrest : ∀ c ∈ rest.head?, p c = false) : (xs ++ rest).takeWhile p = xs := by
  rw [List.takeWhile_append_of_pos h]
  cases rest with
  | nil => rw [List.takeWhile_nil, List.append_nil]
  | cons c cs =>
    rw [List.takeWhile_cons_of_neg (by simpa using hrest c rfl), List.append_nil]

theorem drop_eq_cstring_append (mem : List UInt8) (p : ℕ) : ∃ rest, mem.drop p = cstring mem p ++ rest ∧
    ∀ c ∈ rest.head?, c = 0 := by
  refine ⟨(mem.drop p).dropWhile (· != 0), List.takeWhile_append_dropWhile.symm, fun c hc => ?_⟩
  have hstop := List.head?_dropWhile_not (· != 0) (mem.drop p)
  rw [Option.mem_def.mp hc] at hstop
  simpa using hstop

theorem zero_notMem_cstring (mem : List UInt8) (p : ℕ) : 0 ∉ cstring mem p := by
  intro h
  have hself := List.mem_takeWhile_imp h
  simp at hself

theorem length_cstring_le (mem : List UInt8) (p : ℕ) : (cstring mem p).length ≤ mem.length - p := by
  rw [← List.length_drop]
  exact (List.takeWhile_prefix _).length_le

/-- A string ends at the first NUL, or before. -/
theorem length_cstring_le_of_stop {mem : List UInt8} {p e : ℕ} (hpe : p ≤ e)
    (h : ∀ c, mem[e]? = some c → c = 0) : p + (cstring mem p).length ≤ e := by
  by_contra hlt
  have hget : e - p < (cstring mem p).length := by omega
  obtain ⟨rest, hdrop, -⟩ := drop_eq_cstring_append mem p
  have hat : (mem.drop p)[e - p]? = some (cstring mem p)[e - p] := by
    rw [hdrop, List.getElem?_append_left hget]
    exact List.getElem?_eq_getElem hget
  rw [List.getElem?_drop, Nat.add_sub_cancel' hpe] at hat
  have hzero := h _ hat
  exact zero_notMem_cstring mem p (hzero ▸ List.getElem_mem hget)

/-- The string at a later place in a string is what is left of it there. -/
theorem cstring_later {mem : List UInt8} {p q : ℕ} (hpq : p ≤ q)
    (hq : q ≤ p + (cstring mem p).length) : cstring mem q = (cstring mem p).drop (q - p) := by
  obtain ⟨rest, hdrop, hrest⟩ := drop_eq_cstring_append mem p
  have hlater : mem.drop q = (cstring mem p).drop (q - p) ++ rest := by
    rw [← Nat.add_sub_cancel' hpq, ← List.drop_drop, hdrop, Nat.add_sub_cancel',
      List.drop_append_of_le_length (by omega)]
    exact hpq
  rw [cstring, hlater]
  refine takeWhile_append_stop (fun c hc => bne_iff_ne.mpr fun h0 => ?_) fun c hc => ?_
  · exact zero_notMem_cstring mem p (h0 ▸ List.mem_of_mem_drop hc)
  · rw [hrest c hc]
    rfl

theorem getElem?_cstring_end {mem : List UInt8} {p : ℕ} {c : UInt8}
    (h : mem[p + (cstring mem p).length]? = some c) : c = 0 := by
  obtain ⟨rest, hdrop, hrest⟩ := drop_eq_cstring_append mem p
  refine hrest c ?_
  rw [← List.getElem?_drop, hdrop, List.getElem?_append_right (Nat.le_refl _), Nat.sub_self] at h
  rwa [Option.mem_def, List.head?_eq_getElem?]

theorem add_length_cstring_later {mem : List UInt8} {p q : ℕ} (hpq : p ≤ q)
    (hq : q ≤ p + (cstring mem p).length) :
    q + (cstring mem q).length = p + (cstring mem p).length := by
  rw [cstring_later hpq hq, List.length_drop]
  omega

/-- `strtok_r` writes within the string it is given, and the rest ends where the string ended. -/
theorem strtok_r_frame {delim : UInt8} (hdelim : delim ≠ 0) {mem mem' : List UInt8} {p start rest : ℕ}
    (h : strtok_r delim mem p = some (start, rest, mem')) : mem'.length = mem.length ∧
    mem'.drop (p + (cstring mem p).length) = mem.drop (p + (cstring mem p).length) ∧
      rest + (cstring mem' rest).length = p + (cstring mem p).length := by
  have hstart : p + ((cstring mem p).takeWhile (· == delim)).length ≤ p + (cstring mem p).length :=
    Nat.add_le_add_left (List.takeWhile_prefix _).length_le p
  have hend := add_length_cstring_later (Nat.le_add_right p _) hstart
  have hstop : p + ((cstring mem p).takeWhile (· == delim)).length +
      ((cstring mem (p + ((cstring mem p).takeWhile (· == delim)).length)).takeWhile
        (· != delim)).length ≤ p + (cstring mem p).length := by
    rw [← hend]
    exact Nat.add_le_add_left (List.takeWhile_prefix _).length_le _
  have hfirst := Nat.le_add_right p ((cstring mem p).takeWhile (· == delim)).length
  simp only [strtok_r] at h
  generalize p + ((cstring mem p).takeWhile (· == delim)).length = first at h hstop hend hfirst
  have hpstop := Nat.le_add_right first ((cstring mem first).takeWhile (· != delim)).length
  generalize first + ((cstring mem first).takeWhile (· != delim)).length = stop at h hstop hpstop
  split at h
  · cases h
  · split at h
    · -- the byte that is overwritten is a delimiter, so it is not the NUL
      rename_i hat
      injection h with h
      injection h with hs h
      injection h with hr hmem
      subst hs hr hmem
      have hlt : stop < p + (cstring mem p).length := by
        apply Nat.lt_of_le_of_ne hstop
        intro heq
        rw [heq] at hat
        exact hdelim (getElem?_cstring_end hat)
      have hdrop : (mem.set stop 0).drop (stop + 1) = mem.drop (stop + 1) :=
        List.drop_set_of_lt (Nat.lt_succ_self stop)
      refine ⟨List.length_set, List.drop_set_of_lt hlt, ?_⟩
      rw [cstring_of_drop hdrop (Nat.le_refl _)]
      exact add_length_cstring_later (by omega) hlt
    · injection h with h
      injection h with hs h
      injection h with hr hmem
      subst hs hr hmem
      exact ⟨rfl, rfl, add_length_cstring_later (by omega) hstop⟩

theorem length_strtokAll {delim : UInt8} (hdelim : delim ≠ 0) (fuel : ℕ) (mem : List UInt8) (p : ℕ) :
    (strtokAll delim fuel mem p).2.length = mem.length := by
  induction fuel generalizing mem p with
  | zero => rfl
  | succ fuel ih =>
    rw [strtokAll]
    split
    · rfl
    · rename_i h
      exact (ih _ _).trans (strtok_r_frame hdelim h).1

/-- A string is delimiters, then nothing, or else a token and what follows it. -/
theorem exists_token (delim : UInt8) (s : List UInt8) : ∃ skipped rest, s = skipped ++ rest ∧
    (∀ c ∈ skipped, c = delim) ∧ (rest = [] ∨ ∃ token more, token ≠ [] ∧ delim ∉ token ∧
      rest = token ++ more ∧ (more = [] ∨ ∃ left, more = delim :: left)) := by
  refine ⟨s.takeWhile (· == delim), s.dropWhile (· == delim),
    List.takeWhile_append_dropWhile.symm, fun c hc => ?_, ?_⟩
  · have hself := List.mem_takeWhile_imp hc
    simpa using hself
  · have hhead := List.head?_dropWhile_not (· == delim) s
    generalize s.dropWhile (· == delim) = rest at hhead
    cases rest with
    | nil => exact Or.inl rfl
    | cons c cs =>
      have hne : (c != delim) = true := by simpa using hhead
      refine Or.inr ⟨(c :: cs).takeWhile (· != delim), (c :: cs).dropWhile (· != delim), ?_, ?_,
        List.takeWhile_append_dropWhile.symm, ?_⟩
      · rw [List.takeWhile_cons_of_pos (by exact hne)]
        exact List.cons_ne_nil c _
      · intro hmem
        have hself := List.mem_takeWhile_imp hmem
        simp at hself
      · have hstop := List.head?_dropWhile_not (· != delim) (c :: cs)
        generalize (c :: cs).dropWhile (· != delim) = more at hstop
        cases more with
        | nil => exact Or.inl rfl
        | cons d left =>
          have hd : d = delim := by simpa using hstop
          exact Or.inr ⟨left, by rw [hd]⟩

/-! ### The tokens of one string in memory -/

section strtok
variable {delim : UInt8} {front back skipped token more left s : List UInt8}

/-- Where the token that follows `skipped` starts and stops. -/
theorem strtok_r_eq (hdelim : delim ≠ 0) (hskipped : ∀ c ∈ skipped, c = delim) (h0 : 0 ∉ token)
    (hd : delim ∉ token) (hmore : more = [] ∨ ∃ left, more = delim :: left) (h0' : 0 ∉ more)
    (hempty : token = [] → more = []) :
    strtok_r delim (front ++ (skipped ++ (token ++ more)) ++ 0 :: back) front.length =
      if token = [] then none
      else if more = [] then some ((front ++ skipped).length, (front ++ skipped ++ token).length,
        front ++ (skipped ++ (token ++ more)) ++ 0 :: back)
      else some ((front ++ skipped).length, (front ++ skipped ++ token).length + 1,
        (front ++ (skipped ++ (token ++ more)) ++ 0 :: back).set (front ++ skipped ++ token).length
          0) := by
  have h0skipped : (0 : UInt8) ∉ skipped := fun hmem => hdelim (hskipped 0 hmem).symm
  have hstring : cstring (front ++ (skipped ++ (token ++ more)) ++ 0 :: back) front.length =
      skipped ++ (token ++ more) := cstring_append (by simp [h0skipped, h0, h0'])
  have hstart : (skipped ++ (token ++ more)).takeWhile (· == delim) = skipped := by
    refine takeWhile_append_stop (fun c hc => beq_iff_eq.mpr (hskipped c hc)) fun c hc => ?_
    refine beq_eq_false_iff_ne.mpr fun heq => ?_
    cases token with
    | nil => simp [hempty rfl] at hc
    | cons t ts =>
      obtain rfl := Option.some.inj hc
      exact hd (heq ▸ List.mem_cons_self)
  have hstring' : cstring (front ++ (skipped ++ (token ++ more)) ++ 0 :: back)
      (front ++ skipped).length = token ++ more := by
    have hsame : front ++ (skipped ++ (token ++ more)) ++ 0 :: back =
        (front ++ skipped) ++ (token ++ more) ++ 0 :: back := by simp only [List.append_assoc]
    rw [hsame]
    exact cstring_append (by simp [h0, h0'])
  have hstop : (token ++ more).takeWhile (· != delim) = token := by
    refine takeWhile_append_stop (fun c hc => bne_iff_ne.mpr fun heq => hd (heq ▸ hc)) ?_
    intro c hc
    rcases hmore with rfl | ⟨left, rfl⟩
    · cases hc
    · obtain rfl := Option.some.inj hc
      exact bne_self_eq_false _
  have hat : (front ++ (skipped ++ (token ++ more)) ++ 0 :: back)[(front ++ skipped ++ token).length]? =
      (more ++ 0 :: back).head? := by
    have hsame : front ++ (skipped ++ (token ++ more)) ++ 0 :: back =
        (front ++ skipped ++ token) ++ (more ++ 0 :: back) := by simp only [List.append_assoc]
    rw [hsame, List.getElem?_append_right (Nat.le_refl _), Nat.sub_self, List.head?_eq_getElem?]
  have hlen : front.length + skipped.length = (front ++ skipped).length := by
    rw [List.length_append]
  have hlen' : (front ++ skipped).length + token.length = (front ++ skipped ++ token).length := by
    rw [← List.length_append]
  simp only [strtok_r, hstring, hstart, hlen, hstring', hstop, hlen', hat]
  by_cases htoken : token = []
  · simp [htoken]
  · have hne : (front ++ skipped ++ token).length ≠ (front ++ skipped).length := by
      have := List.length_pos_iff.mpr htoken
      omega
    rw [if_neg hne, if_neg htoken]
    rcases hmore with rfl | ⟨left, rfl⟩
    · rw [if_pos rfl, List.nil_append, List.head?_cons, if_neg]
      exact fun h => hdelim (Option.some.inj h).symm
    · rw [List.cons_append, List.head?_cons, if_pos rfl, if_neg (List.cons_ne_nil _ _)]

@[simp] theorem tokens_nil : tokens delim [] = [] := rfl

theorem tokens_cut (s left : List UInt8) :
    tokens delim (s ++ delim :: left) = tokens delim s ++ tokens delim left := by
  rw [tokens, List.splitOn_append_cons_self, List.filter_append]
  rfl

theorem tokens_token (htoken : token ≠ []) (hd : delim ∉ token) : tokens delim token = [token] := by
  rw [tokens, List.splitOn_eq_singleton hd, List.filter_cons_of_pos (by simpa using htoken),
    List.filter_nil]

theorem tokens_skipped (h : ∀ c ∈ skipped, c = delim) (s : List UInt8) :
    tokens delim (skipped ++ s) = tokens delim s := by
  induction skipped with
  | nil => rfl
  | cons c cs ih =>
    obtain rfl := h c List.mem_cons_self
    rw [List.cons_append, ← List.nil_append (c :: (cs ++ s)), tokens_cut, tokens_nil, List.nil_append]
    exact ih fun d hd => h d (List.mem_cons_of_mem c hd)

/-- The pointers `ps` are to the tokens of `s`, which has been cut up between `front` and
the NUL that ends it. -/
structure Tokenized (delim : UInt8) (front s back : List UInt8) (ps : List ℕ) (mem : List UInt8) :
    Prop where
  frame : ∃ s', s'.length = s.length ∧ mem = front ++ s' ++ 0 :: back
  strings : ps.map (cstring mem) = tokens delim s
  within : ∀ p ∈ ps, front.length ≤ p
  apart : ps.Pairwise fun p q => p + (cstring mem p).length < q

/-- One more token, in front of those that follow it. -/
theorem Tokenized.cons {ps : List ℕ} {mem gap : List UInt8} (h0 : 0 ∉ token)
    (hs : s.length = (skipped ++ token ++ gap ++ left).length)
    (htokens : tokens delim s = token :: tokens delim left) (hgap : gap = [] ∧ left = [] ∨ gap = [0])
    (h : Tokenized delim (front ++ skipped ++ token ++ gap) left back ps mem) :
    Tokenized delim front s back ((front ++ skipped).length :: ps) mem := by
  obtain ⟨s', hlen, hmem⟩ := h.frame
  have hstring : cstring mem (front ++ skipped).length = token := by
    have hnul : ∃ behind, gap ++ s' ++ 0 :: back = 0 :: behind := by
      rcases hgap with ⟨rfl, rfl⟩ | rfl
      · obtain rfl := List.eq_nil_of_length_eq_zero hlen
        exact ⟨back, rfl⟩
      · exact ⟨s' ++ 0 :: back, rfl⟩
    obtain ⟨behind, hbehind⟩ := hnul
    have hsame : mem = (front ++ skipped) ++ token ++ 0 :: behind := by
      rw [hmem, ← hbehind]
      simp only [List.append_assoc]
    rw [hsame]
    exact cstring_append h0
  have hfar {p : ℕ} (hp : p ∈ ps) :
      (front ++ skipped).length + token.length + gap.length ≤ p := by
    have hle := h.within p hp
    simp only [List.length_append] at hle ⊢
    omega
  refine ⟨⟨skipped ++ token ++ gap ++ s', ?_, ?_⟩, ?_, ?_, ?_⟩
  · rw [hs]
    simp only [List.length_append, hlen]
  · rw [hmem]
    simp only [List.append_assoc]
  · rw [List.map_cons, hstring, h.strings, htokens]
  · intro p hp
    rcases List.mem_cons.mp hp with rfl | hp
    · rw [List.length_append]
      omega
    · have hle := hfar hp
      rw [List.length_append] at hle
      omega
  · refine List.pairwise_cons.mpr ⟨fun q hq => ?_, h.apart⟩
    rw [hstring]
    rcases hgap with ⟨rfl, rfl⟩ | rfl
    · have hnil : ps = [] := by simpa using h.strings
      rw [hnil] at hq
      cases hq
    · exact hfar hq

theorem strtokAll_spec (hdelim : delim ≠ 0) {fuel : ℕ} (h0 : 0 ∉ s) (hfuel : s.length < fuel) :
    Tokenized delim front s back (strtokAll delim fuel (front ++ s ++ 0 :: back) front.length).1
      (strtokAll delim fuel (front ++ s ++ 0 :: back) front.length).2 := by
  induction fuel generalizing front s with
  | zero => omega
  | succ fuel ih =>
    obtain ⟨skipped, rest, rfl, hskipped, hrest⟩ := exists_token delim s
    rcases hrest with rfl | ⟨token, more, htoken, hd, rfl, hmore⟩
    · have hnone := @strtok_r_eq delim front back skipped [] [] hdelim hskipped
        List.not_mem_nil List.not_mem_nil (Or.inl rfl) List.not_mem_nil (fun _ => rfl)
      rw [if_pos rfl, List.append_nil] at hnone
      simp only [strtokAll, hnone]
      refine ⟨⟨_, rfl, rfl⟩, ?_, fun p hp => absurd hp List.not_mem_nil, List.Pairwise.nil⟩
      rw [List.map_nil, tokens_skipped hskipped, tokens_nil]
    · have h0token : (0 : UInt8) ∉ token := fun h => h0 (by simp [h])
      have h0more : (0 : UInt8) ∉ more := fun h => h0 (by simp [h])
      have hfuel' : skipped.length + token.length + more.length < fuel + 1 := by
        simpa only [List.length_append, Nat.add_assoc] using hfuel
      have htoken' := List.length_pos_iff.mpr htoken
      have hsome := @strtok_r_eq delim front back skipped token more hdelim hskipped h0token hd hmore
        h0more fun h => absurd h htoken
      rw [if_neg htoken] at hsome
      rcases hmore with rfl | ⟨left, rfl⟩
      · rw [if_pos rfl] at hsome
        simp only [strtokAll, hsome]
        have hmem : front ++ (skipped ++ (token ++ [])) ++ 0 :: back =
            (front ++ skipped ++ token) ++ [] ++ 0 :: back := by simp
        rw [hmem]
        refine Tokenized.cons h0token (by simp) ?_ (Or.inl ⟨rfl, rfl⟩) ?_
        · rw [tokens_skipped hskipped, List.append_nil, tokens_token htoken hd, tokens_nil]
        · have hlast := @ih (front ++ skipped ++ token) [] List.not_mem_nil
            (by rw [List.length_nil] at hfuel' ⊢; omega)
          rwa [List.append_nil (front ++ skipped ++ token)] at hlast ⊢
      · rw [if_neg (List.cons_ne_nil _ _)] at hsome
        simp only [strtokAll, hsome]
        have hmem : (front ++ (skipped ++ (token ++ delim :: left)) ++ 0 :: back).set
            (front ++ skipped ++ token).length 0 =
              (front ++ skipped ++ token ++ [0]) ++ left ++ 0 :: back := by
          have hsame : front ++ (skipped ++ (token ++ delim :: left)) ++ 0 :: back =
              (front ++ skipped ++ token) ++ delim :: (left ++ 0 :: back) := by simp
          rw [hsame, List.set_append_right _ _ (Nat.le_refl _), Nat.sub_self, List.set_cons_zero]
          simp
        have hat : (front ++ skipped ++ token).length + 1 =
            (front ++ skipped ++ token ++ [0]).length := by
          generalize front ++ skipped ++ token = cut
          simp
        rw [hmem, hat]
        refine Tokenized.cons h0token (by simp) ?_ (Or.inr rfl) (ih ?_ ?_)
        · rw [tokens_skipped hskipped, tokens_cut, tokens_token htoken hd]
          rfl
        · exact fun h => h0more (List.mem_cons_of_mem _ h)
        · rw [List.length_cons] at hfuel'
          omega

/-! The calls of `strtok_r`, one by one. -/

theorem strtokAll_cons {mem mem' : List UInt8} {p start fuel : ℕ} {ps : List ℕ}
    (h : strtokAll delim (fuel + 1) mem p = (start :: ps, mem')) :
    ∃ rest cut, strtok_r delim mem p = some (start, rest, cut) ∧
      strtokAll delim fuel cut rest = (ps, mem') := by
  rw [strtokAll] at h
  split at h
  · cases (Prod.mk.inj h).1
  · rename_i start' rest cut hstr
    obtain ⟨hps, hmem⟩ := Prod.mk.inj h
    obtain ⟨rfl, hrest⟩ := List.cons.inj hps
    exact ⟨rest, cut, hstr, Prod.ext hrest hmem⟩

theorem strtokAll_nil {mem mem' : List UInt8} {p fuel : ℕ}
    (h : strtokAll delim (fuel + 1) mem p = ([], mem')) :
    strtok_r delim mem p = none ∧ mem = mem' := by
  rw [strtokAll] at h
  split at h
  · exact ⟨by assumption, (Prod.mk.inj h).2⟩
  · cases (Prod.mk.inj h).1

end strtok
end NoPorts.Lib
