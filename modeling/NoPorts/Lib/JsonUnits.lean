import Mathlib.Data.List.Basic
import Mathlib.Data.List.Nodup

/-! JSON text over UTF-16 code units, written compactly and read back. -/
namespace NoPorts.Lib.JsonUnits

abbrev Text := List UInt16

def unit (c : Char) : UInt16 := UInt16.ofNat c.toNat

def units (s : String) : Text := s.toList.map unit

/-! ### Numbers -/

def isDigit (c : UInt16) : Bool := unit '0' ≤ c && c ≤ unit '9'

/-- What stands in the text of a number. -/
def numeric (c : UInt16) : Bool :=
  isDigit c || c == unit '-' || c == unit '+' || c == unit '.' || c == unit 'e' || c == unit 'E'

def isExponent : Text → Bool
  | [] => true
  | c :: t =>
    let digits := if t.head? = some (unit '-') ∨ t.head? = some (unit '+') then t.tail else t
    (c == unit 'e' || c == unit 'E') && !digits.isEmpty && digits.all isDigit

def isFraction (t : Text) : Bool :=
  if t.head? = some (unit '.') then
    !(t.tail.takeWhile isDigit).isEmpty && isExponent (t.tail.dropWhile isDigit)
  else isExponent t

def isUnsigned (t : Text) : Bool :=
  let whole := t.takeWhile isDigit
  (!whole.isEmpty && (whole.length == 1 || whole.head? != some (unit '0'))) && isFraction (t.dropWhile isDigit)

def isNumber (t : Text) : Bool :=
  t.all numeric && isUnsigned (if t.head? = some (unit '-') then t.tail else t)

/-- A number is known by the text that it is written as. -/
abbrev Number := { t : Text // isNumber t = true }

inductive Value where
  | null
  | bool (b : Bool)
  | number (n : Number)
  | str (s : Text)
  | arr (items : List Value)
  | obj (members : List (Text × Value))

/-! ### Writing -/

def isLead (c : UInt16) : Bool := c.toNat / 1024 == 54

def isTrail (c : UInt16) : Bool := c.toNat / 1024 == 55

/-- A surrogate that is no part of a pair. -/
def lone (previous : Option UInt16) (c : UInt16) (next : Option UInt16) : Bool :=
  (isLead c && !next.any isTrail) || (isTrail c && !previous.any isLead)

def hexDigit (n : ℕ) : UInt16 := if n < 10 then UInt16.ofNat (48 + n) else UInt16.ofNat (87 + n)

def hexText (n : ℕ) : Text := [hexDigit (n / 4096), hexDigit (n / 256 % 16), hexDigit (n / 16 % 16), hexDigit (n % 16)]

def writeUnit (previous : Option UInt16) (c : UInt16) (next : Option UInt16) : Text :=
  if c < 32 then
    if c = 8 then [unit '\\', unit 'b']
    else if c = 9 then [unit '\\', unit 't']
    else if c = 10 then [unit '\\', unit 'n']
    else if c = 12 then [unit '\\', unit 'f']
    else if c = 13 then [unit '\\', unit 'r']
    else unit '\\' :: unit 'u' :: hexText c.toNat
  else if c = unit '"' ∨ c = unit '\\' then [unit '\\', c]
  else if lone previous c next then unit '\\' :: unit 'u' :: hexText c.toNat
  else [c]

/-- A string's units, after `previous`. -/
def writeUnits : Option UInt16 → Text → Text
  | _, [] => []
  | previous, c :: s => writeUnit previous c s.head? ++ writeUnits (some c) s

def writeString (s : Text) : Text := unit '"' :: (writeUnits none s ++ [unit '"'])

mutual

def write : Value → Text
  | .null => units "null"
  | .bool b => units (if b then "true" else "false")
  | .number n => n.val
  | .str s => writeString s
  | .arr [] => units "[]"
  | .arr (v :: items) => unit '[' :: (write v ++ writeItems items)
  | .obj [] => [unit '\x7b', unit '\x7d']
  | .obj ((key, v) :: members) => unit '\x7b' :: (writeString key ++ unit ':' :: (write v ++ writeMembers members))

/-- The items after the first, and the end of the array. -/
def writeItems : List Value → Text
  | [] => [unit ']']
  | v :: items => unit ',' :: (write v ++ writeItems items)

def writeMembers : List (Text × Value) → Text
  | [] => [unit '\x7d']
  | (key, v) :: members => unit ',' :: (writeString key ++ unit ':' :: (write v ++ writeMembers members))

end

/-! ### Reading -/

def isSpace (c : UInt16) : Bool := c == unit ' ' || c == 9 || c == 10 || c == 13

def skip (t : Text) : Text := t.dropWhile isSpace

def hexValue (c : UInt16) : Option ℕ :=
  if 48 ≤ c.toNat ∧ c.toNat ≤ 57 then some (c.toNat - 48)
  else if 97 ≤ c.toNat ∧ c.toNat ≤ 102 then some (c.toNat - 87)
  else if 65 ≤ c.toNat ∧ c.toNat ≤ 70 then some (c.toNat - 55)
  else none

/-- The unit that an escape's letter stands for. -/
def escaped (c : UInt16) : Option UInt16 :=
  if c = unit 'b' then some 8
  else if c = unit 't' then some 9
  else if c = unit 'n' then some 10
  else if c = unit 'f' then some 12
  else if c = unit 'r' then some 13
  else if c = unit '"' ∨ c = unit '\\' ∨ c = unit '/' then some c
  else none

def hexUnit (a b c d : UInt16) : Option UInt16 := do
  return UInt16.ofNat ((← hexValue a) * 4096 + (← hexValue b) * 256 + (← hexValue c) * 16 + (← hexValue d))

/-- A string after its opening quote, and what follows it. -/
def readString : Text → Option (Text × Text)
  | [] => none
  | c :: t =>
    if c = unit '"' then some ([], t)
    else if c = unit '\\' then
      match t with
      | [] => none
      | e :: t =>
        if e = unit 'u' then
          match t with
          | h1 :: h2 :: h3 :: h4 :: t => do
            let c ← hexUnit h1 h2 h3 h4
            (readString t).map fun r => (c :: r.1, r.2)
          | _ => none
        else do
          let c ← escaped e
          (readString t).map fun r => (c :: r.1, r.2)
    else if c < 32 then none
    else (readString t).map fun r => (c :: r.1, r.2)

def readNumber (t : Text) : Option (Value × Text) :=
  if h : isNumber (t.takeWhile numeric) = true then some (.number ⟨t.takeWhile numeric, h⟩, t.dropWhile numeric) else none

/-- A literal that has been taken for `v` by its first letter. -/
def readLiteral (literal : String) (v : Value) (t : Text) : Option (Value × Text) :=
  if (units literal).isPrefixOf t then some (v, t.drop literal.length) else none

/-- A map holds one value for each key, the last. -/
def put (members : List (Text × Value)) (key : Text) (v : Value) : List (Text × Value) :=
  if members.any (·.1 == key) then members.map fun m => if m.1 = key then (key, v) else m
  else members ++ [(key, v)]

mutual

/-- A value and what follows it; each step into a value uses up one of the fuel. -/
def readValue : ℕ → Text → Option (Value × Text)
  | 0, _ => none
  | fuel + 1, t =>
    match skip t with
    | [] => none
    | c :: t =>
      if c = unit '"' then (readString t).map fun r => (.str r.1, r.2)
      else if c = unit '[' then
        match skip t with
        | [] => none
        | d :: u =>
          if d = unit ']' then some (.arr [], u) else (readItems fuel (d :: u)).map fun r => (.arr r.1, r.2)
      else if c = unit '\x7b' then
        match skip t with
        | [] => none
        | d :: u =>
          if d = unit '\x7d' then some (.obj [], u) else (readMembers fuel [] (d :: u)).map fun r => (.obj r.1, r.2)
      else if c = unit 'n' then readLiteral "null" .null (c :: t)
      else if c = unit 't' then readLiteral "true" (.bool true) (c :: t)
      else if c = unit 'f' then readLiteral "false" (.bool false) (c :: t)
      else readNumber (c :: t)

def readItems : ℕ → Text → Option (List Value × Text)
  | 0, _ => none
  | fuel + 1, t => do
    let (v, t) ← readValue fuel t
    match skip t with
    | [] => none
    | c :: t =>
      if c = unit ']' then some ([v], t)
      else if c = unit ',' then (readItems fuel t).map fun r => (v :: r.1, r.2)
      else none

/-- Members after those in `before`. -/
def readMembers : ℕ → List (Text × Value) → Text → Option (List (Text × Value) × Text)
  | 0, _, _ => none
  | fuel + 1, before, t =>
    match skip t with
    | [] => none
    | c :: t =>
      if c = unit '"' then do
        let (key, t) ← readString t
        match skip t with
        | [] => none
        | c :: t =>
          if c = unit ':' then do
            let (v, t) ← readValue fuel t
            match skip t with
            | [] => none
            | c :: t =>
              if c = unit '\x7d' then some (put before key v, t)
              else if c = unit ',' then readMembers fuel (put before key v) t
              else none
          else none
      else none

end

/-- The value of a whole text. -/
def read (t : Text) : Option Value :=
  match readValue (t.length + 1) t with
  | some (v, t) => if skip t = [] then some v else none
  | none => none

/-! ### Strings -/

theorem hexValue_hexDigit {n : ℕ} (h : n < 16) : hexValue (hexDigit n) = some n := by
  have hall : ∀ m : Fin 16, hexValue (hexDigit m) = some m.val := by decide
  exact hall ⟨n, h⟩

theorem hexUnit_hexText (c : UInt16) :
    hexUnit (hexDigit (c.toNat / 4096)) (hexDigit (c.toNat / 256 % 16)) (hexDigit (c.toNat / 16 % 16))
      (hexDigit (c.toNat % 16)) = some c := by
  have hc := c.toNat_lt
  rw [hexUnit, hexValue_hexDigit (by omega), hexValue_hexDigit (by omega), hexValue_hexDigit (by omega),
    hexValue_hexDigit (by omega)]
  have hsum : c.toNat / 4096 * 4096 + c.toNat / 256 % 16 * 256 + c.toNat / 16 % 16 * 16 + c.toNat % 16 = c.toNat := by
    omega
  exact congrArg some ((congrArg UInt16.ofNat hsum).trans UInt16.ofNat_toNat)

theorem readString_hex (c : UInt16) (t : Text) :
    readString (unit '\\' :: unit 'u' :: (hexText c.toNat ++ t)) = (readString t).map fun r => (c :: r.1, r.2) := by
  rw [hexText, List.cons_append, List.cons_append, List.cons_append, List.cons_append, List.nil_append, readString,
    if_neg (by decide), if_pos rfl]
  simp only [if_true, hexUnit_hexText]
  rfl

theorem readString_escape {e c : UInt16} (he : e ≠ unit 'u') (hc : escaped e = some c) (t : Text) :
    readString (unit '\\' :: e :: t) = (readString t).map fun r => (c :: r.1, r.2) := by
  rw [readString.eq_def]
  simp only [he, if_false, hc]
  rfl

/-- However a unit is written, it is read back before what follows. -/
theorem readString_writeUnit (previous next : Option UInt16) (c : UInt16) (t : Text) :
    readString (writeUnit previous c next ++ t) = (readString t).map fun r => (c :: r.1, r.2) := by
  unfold writeUnit
  split
  · split
    · rename_i hc
      rw [hc]
      exact readString_escape (by decide) (by decide) t
    split
    · rename_i hc
      rw [hc]
      exact readString_escape (by decide) (by decide) t
    split
    · rename_i hc
      rw [hc]
      exact readString_escape (by decide) (by decide) t
    split
    · rename_i hc
      rw [hc]
      exact readString_escape (by decide) (by decide) t
    split
    · rename_i hc
      rw [hc]
      exact readString_escape (by decide) (by decide) t
    · exact readString_hex c t
  rename_i hcontrol
  split
  · rename_i hquoted
    apply readString_escape
    · rcases hquoted with rfl | rfl
      · decide
      · decide
    · rcases hquoted with rfl | rfl
      · decide
      · decide
  rename_i hplain
  split
  · exact readString_hex c t
  · rw [List.cons_append, List.nil_append, readString.eq_def]
    dsimp only
    rw [if_neg fun h => hplain (Or.inl h), if_neg fun h => hplain (Or.inr h), if_neg hcontrol]

theorem readString_writeUnits (previous : Option UInt16) (s t : Text) :
    readString (writeUnits previous s ++ unit '"' :: t) = some (s, t) := by
  induction s generalizing previous with
  | nil =>
    rw [writeUnits, List.nil_append, readString.eq_def]
    exact if_pos rfl
  | cons c s ih =>
    rw [writeUnits, List.append_assoc, readString_writeUnit, ih]
    rfl

/-! ### Values -/

theorem skip_cons {c : UInt16} (h : isSpace c = false) (t : Text) : skip (c :: t) = c :: t := by
  rw [skip, List.dropWhile_cons_of_neg (by rw [h]; exact Bool.false_ne_true)]

mutual

/-- No map in the value has two members of one key. -/
def Distinct : Value → Prop
  | .arr items => DistinctItems items
  | .obj members => (members.map (·.1)).Nodup ∧ DistinctMembers members
  | _ => True

def DistinctItems : List Value → Prop
  | [] => True
  | v :: items => Distinct v ∧ DistinctItems items

def DistinctMembers : List (Text × Value) → Prop
  | [] => True
  | (_, v) :: members => Distinct v ∧ DistinctMembers members

end

/-- What may follow a value: nothing that would go on with a number. -/
def Stops (t : Text) : Prop := ∀ c, t.head? = some c → numeric c = false

theorem stops_cons {c : UInt16} (h : numeric c = false) (t : Text) : Stops (c :: t) := by
  rintro d hd
  rwa [← Option.some.inj hd]

theorem takeWhile_of_stops {t : Text} (h : Stops t) : t.takeWhile numeric = [] := by
  cases t with
  | nil => rfl
  | cons c t => rw [List.takeWhile_cons_of_neg (by rw [h c rfl]; exact Bool.false_ne_true)]

theorem dropWhile_of_stops {t : Text} (h : Stops t) : t.dropWhile numeric = t := by
  cases t with
  | nil => rfl
  | cons c t => rw [List.dropWhile_cons_of_neg (by rw [h c rfl]; exact Bool.false_ne_true)]

theorem numeric_of_mem (n : Number) : ∀ c ∈ n.val, numeric c = true := by
  have h := n.property
  rw [isNumber, Bool.and_eq_true] at h
  exact List.all_eq_true.mp h.1

theorem readNumber_append (n : Number) {rest : Text} (h : Stops rest) :
    readNumber (n.val ++ rest) = some (.number n, rest) := by
  have htake : (n.val ++ rest).takeWhile numeric = n.val := by
    rw [List.takeWhile_append_of_pos (numeric_of_mem n), takeWhile_of_stops h, List.append_nil]
  have hdrop : (n.val ++ rest).dropWhile numeric = rest := by
    rw [List.dropWhile_append_of_pos (numeric_of_mem n), dropWhile_of_stops h]
  unfold readNumber
  simp only [htake, hdrop, n.property, dite_true]

theorem readLiteral_append (literal : String) (v : Value) (rest : Text) :
    readLiteral literal v (units literal ++ rest) = some (v, rest) := by
  have hlength : literal.length = (units literal).length := by
    rw [units, List.length_map, String.length_toList]
  rw [readLiteral, if_pos (List.isPrefixOf_iff_prefix.mpr (List.prefix_append _ _)), hlength, List.drop_left]

/-- No number begins like another value, or with what is skipped. -/
theorem numeric_ne {c d : UInt16} (hc : numeric c = true) (hd : numeric d = false) : c ≠ d := by
  rintro rfl
  rw [hc] at hd
  cases hd

theorem isSpace_of_numeric {c : UInt16} (h : numeric c = true) : isSpace c = false := by
  have hspace := numeric_ne (d := unit ' ') h (by decide)
  have htab := numeric_ne (d := 9) h (by decide)
  have hline := numeric_ne (d := 10) h (by decide)
  have hreturn := numeric_ne (d := 13) h (by decide)
  simp [isSpace, hspace, htab, hline, hreturn]

theorem number_cons (n : Number) : ∃ c t, n.val = c :: t := by
  cases hn : n.val with
  | nil =>
    have h := n.property
    rw [hn] at h
    exact absurd h (by decide)
  | cons c t => exact ⟨c, t, rfl⟩

/-! The first unit of a value tells which it is. -/

theorem readValue_string (k : ℕ) (t : Text) :
    readValue (k + 1) (unit '"' :: t) = (readString t).map fun r => (.str r.1, r.2) := by
  rw [readValue, skip_cons (by decide)]
  exact if_pos rfl

theorem readValue_number {k : ℕ} {c : UInt16} (h : numeric c = true) (t : Text) :
    readValue (k + 1) (c :: t) = readNumber (c :: t) := by
  rw [readValue, skip_cons (isSpace_of_numeric h)]
  dsimp only
  rw [if_neg (numeric_ne h (by decide)), if_neg (numeric_ne h (by decide)), if_neg (numeric_ne h (by decide)),
    if_neg (numeric_ne h (by decide)), if_neg (numeric_ne h (by decide)), if_neg (numeric_ne h (by decide))]

theorem readValue_array {k : ℕ} {c : UInt16} (hc : isSpace c = false) (hend : c ≠ unit ']') (t : Text) :
    readValue (k + 1) (unit '[' :: c :: t) = (readItems k (c :: t)).map fun r => (.arr r.1, r.2) := by
  rw [readValue, skip_cons (by decide)]
  dsimp only
  rw [if_neg (by decide), if_pos rfl, skip_cons hc]
  exact if_neg hend

theorem readValue_object (k : ℕ) (t : Text) : readValue (k + 1) (unit '\x7b' :: unit '"' :: t) =
    (readMembers k [] (unit '"' :: t)).map fun r => (.obj r.1, r.2) := by
  rw [readValue, skip_cons (by decide)]
  dsimp only
  rw [if_neg (by decide), if_neg (by decide), if_pos rfl, skip_cons (by decide)]
  exact if_neg (by decide)

/-- A value's text begins with a unit that is neither skipped nor an array's end. -/
theorem write_cons (v : Value) : ∃ c t, write v = c :: t ∧ isSpace c = false ∧ c ≠ unit ']' := by
  cases v with
  | null => exact ⟨_, _, rfl, by decide, by decide⟩
  | bool b =>
    cases b with
    | false => exact ⟨_, _, rfl, by decide, by decide⟩
    | true => exact ⟨_, _, rfl, by decide, by decide⟩
  | number n =>
    obtain ⟨c, t, hn⟩ := number_cons n
    have hc : numeric c = true := numeric_of_mem n c (by rw [hn]; exact List.mem_cons_self)
    refine ⟨c, t, ?_, isSpace_of_numeric hc, numeric_ne hc (by decide)⟩
    rw [write, hn]
  | str s => exact ⟨_, _, by rw [write, writeString], by decide, by decide⟩
  | arr items =>
    cases items with
    | nil => exact ⟨_, _, rfl, by decide, by decide⟩
    | cons v items => exact ⟨_, _, by rw [write], by decide, by decide⟩
  | obj members =>
    cases members with
    | nil => exact ⟨_, _, rfl, by decide, by decide⟩
    | cons m members => exact ⟨_, _, by rw [write], by decide, by decide⟩

/-- Before anything that stops a number, the value's text is read as the value. -/
def Reads (v : Value) : Prop :=
  ∀ k rest, Stops rest → (write v).length ≤ k → readValue k (write v ++ rest) = some (v, rest)

theorem length_write_pos (v : Value) : 0 < (write v).length := by
  obtain ⟨c, t, hv, -⟩ := write_cons v
  rw [hv]
  exact Nat.succ_pos _

theorem stops_writeItems (items : List Value) (rest : Text) : Stops (writeItems items ++ rest) := by
  cases items with
  | nil => exact stops_cons (by decide) _
  | cons v items => exact stops_cons (by decide) _

theorem stops_writeMembers (members : List (Text × Value)) (rest : Text) : Stops (writeMembers members ++ rest) := by
  cases members with
  | nil => exact stops_cons (by decide) _
  | cons m members => exact stops_cons (by decide) _

theorem put_new {before : List (Text × Value)} {key : Text} (h : key ∉ before.map (·.1)) (v : Value) :
    put before key v = before ++ [(key, v)] := by
  rw [put, if_neg]
  intro hany
  obtain ⟨m, hm, hkey⟩ := List.any_eq_true.mp hany
  exact h (List.mem_map.mpr ⟨m, hm, eq_of_beq hkey⟩)

theorem not_mem_keys {before members : List (Text × Value)} {key : Text} {v : Value}
    (h : ((before ++ (key, v) :: members).map (·.1)).Nodup) : key ∉ before.map (·.1) := by
  rw [List.map_append, List.map_cons] at h
  intro hmem
  exact List.disjoint_of_nodup_append h hmem List.mem_cons_self

/-- One item, then what follows it. -/
theorem readItems_step {v : Value} (hv : Reads v) {items : List Value} {k : ℕ} {rest : Text}
    (hk : (write v).length ≤ k) : readItems (k + 1) (write v ++ (writeItems items ++ rest)) =
      match skip (writeItems items ++ rest) with
      | [] => none
      | c :: t =>
        if c = unit ']' then some ([v], t)
        else if c = unit ',' then (readItems k t).map fun r => (v :: r.1, r.2)
        else none := by
  rw [readItems, hv k _ (stops_writeItems items rest) hk]
  rfl

theorem readMembers_step {key : Text} {v : Value} (hv : Reads v) {before members : List (Text × Value)} {k : ℕ}
    {rest : Text} (hk : (write v).length ≤ k) :
    readMembers (k + 1) before (writeString key ++ unit ':' :: (write v ++ (writeMembers members ++ rest))) =
      match skip (writeMembers members ++ rest) with
      | [] => none
      | c :: t =>
        if c = unit '\x7d' then some (put before key v, t)
        else if c = unit ',' then readMembers k (put before key v) t
        else none := by
  rw [readMembers, writeString, List.cons_append, skip_cons (by decide)]
  dsimp only
  rw [if_pos rfl, List.append_assoc, List.singleton_append, readString_writeUnits, Option.bind_eq_bind, Option.bind_some,
    skip_cons (by decide)]
  dsimp only
  rw [if_pos rfl, hv k _ (stops_writeMembers members rest) hk]
  rfl

/-- A text is never empty, so that there is always fuel for its first unit. -/
theorem reads_of_succ {v : Value} (h : ∀ k rest, Stops rest → (write v).length ≤ k + 1 →
    readValue (k + 1) (write v ++ rest) = some (v, rest)) : Reads v := by
  intro k rest hstops hk
  have hpos := length_write_pos v
  obtain ⟨k, rfl⟩ : ∃ j, k = j + 1 := ⟨k - 1, by omega⟩
  exact h k rest hstops hk

theorem reads_literal {v : Value} (literal : String) (hwrite : write v = units literal)
    (hread : ∀ k rest, readValue (k + 1) (units literal ++ rest) = readLiteral literal v (units literal ++ rest)) :
    Reads v := by
  apply reads_of_succ
  intro k rest _ _
  rw [hwrite, hread, readLiteral_append]

theorem reads_number (n : Number) : Reads (.number n) := by
  apply reads_of_succ
  intro k rest hstops _
  obtain ⟨c, t, hn⟩ := number_cons n
  have hc : numeric c = true := numeric_of_mem n c (by rw [hn]; exact List.mem_cons_self)
  have hnumber := readNumber_append n hstops
  rw [hn] at hnumber
  rw [write, hn]
  exact (readValue_number hc _).trans hnumber

theorem reads_str (s : Text) : Reads (.str s) := by
  apply reads_of_succ
  intro k rest _ _
  rw [write, writeString, List.cons_append, readValue_string, List.append_assoc, List.singleton_append,
    readString_writeUnits]
  rfl

mutual

theorem readValue_write : ∀ v : Value, Distinct v → Reads v
  | .null, _ => reads_literal "null" rfl fun _ _ => rfl
  | .bool true, _ => reads_literal "true" rfl fun _ _ => rfl
  | .bool false, _ => reads_literal "false" rfl fun _ _ => rfl
  | .number n, _ => reads_number n
  | .str s, _ => reads_str s
  | .arr [], _ => reads_of_succ fun _ _ _ _ => rfl
  | .arr (v :: items), h => by
    have hv := readValue_write v h.1
    apply reads_of_succ
    intro k rest _ hk
    obtain ⟨c, t, hfirst, hspace, hend⟩ := write_cons v
    rw [write, List.length_cons, List.length_append] at hk
    have hitems := readItems_write items rest hv h.2 (show _ ≤ k by omega)
    rw [hfirst, List.cons_append] at hitems
    rw [write, hfirst, List.cons_append, List.append_assoc, List.cons_append, readValue_array hspace hend, hitems]
    rfl
  | .obj [], _ => reads_of_succ fun _ _ _ _ => rfl
  | .obj ((key, v) :: members), h => by
    have hv := readValue_write v h.2.1
    apply reads_of_succ
    intro k rest _ hk
    simp only [write, List.length_cons, List.length_append] at hk
    have hmembers := readMembers_write members [] rest hv h.2.2 h.1 (show _ ≤ k by omega)
    rw [writeString, List.cons_append] at hmembers
    rw [write, List.cons_append, List.append_assoc, List.cons_append, List.append_assoc, writeString, List.cons_append,
      readValue_object, hmembers]
    rfl

theorem readItems_write : ∀ (items : List Value) {v : Value} {k : ℕ} (rest : Text), Reads v → DistinctItems items →
    (write v).length + (writeItems items).length ≤ k →
      readItems k (write v ++ (writeItems items ++ rest)) = some (v :: items, rest)
  | [], v, k, rest, hv, _, hk => by
    rw [writeItems, List.length_singleton] at hk
    obtain ⟨k, rfl⟩ : ∃ j, k = j + 1 := ⟨k - 1, by omega⟩
    rw [readItems_step hv (by omega), writeItems, List.singleton_append, skip_cons (by decide)]
    exact if_pos rfl
  | w :: items, v, k, rest, hv, h, hk => by
    have hpos := length_write_pos v
    simp only [writeItems, List.length_cons, List.length_append] at hk
    obtain ⟨k, rfl⟩ : ∃ j, k = j + 1 := ⟨k - 1, by omega⟩
    rw [readItems_step hv (by omega), writeItems, List.cons_append, skip_cons (by decide), List.append_assoc]
    dsimp only
    rw [if_neg (by decide), if_pos rfl, readItems_write items rest (readValue_write w h.1) h.2 (by omega)]
    rfl

theorem readMembers_write : ∀ (members before : List (Text × Value)) {key : Text} {v : Value} {k : ℕ} (rest : Text),
    Reads v → DistinctMembers members →
      ((before ++ (key, v) :: members).map (·.1)).Nodup →
      (writeString key).length + (write v).length + (writeMembers members).length ≤ k →
        readMembers k before (writeString key ++ unit ':' :: (write v ++ (writeMembers members ++ rest))) =
          some (before ++ (key, v) :: members, rest)
  | [], before, key, v, k, rest, hv, _, hnodup, hk => by
    have hpos := length_write_pos v
    obtain ⟨k, rfl⟩ : ∃ j, k = j + 1 := ⟨k - 1, by omega⟩
    rw [writeMembers, List.length_singleton] at hk
    rw [readMembers_step hv (by omega), writeMembers, List.singleton_append, skip_cons (by decide)]
    dsimp only
    rw [if_pos rfl, put_new (not_mem_keys hnodup)]
  | (key', w) :: members, before, key, v, k, rest, hv, h, hnodup, hk => by
    have hpos := length_write_pos v
    simp only [writeMembers, List.length_cons, List.length_append] at hk
    obtain ⟨k, rfl⟩ : ∃ j, k = j + 1 := ⟨k - 1, by omega⟩
    have hmore : ((before ++ [(key, v)] ++ (key', w) :: members).map (·.1)).Nodup := by
      rwa [List.append_assoc]
    rw [readMembers_step hv (by omega), writeMembers, List.cons_append, skip_cons (by decide)]
    dsimp only
    rw [if_neg (by decide), if_pos rfl, put_new (not_mem_keys hnodup), List.append_assoc, List.cons_append,
      List.append_assoc, readMembers_write members (before ++ [(key, v)]) rest (readValue_write w h.1) h.2 hmore
        (by omega),
      List.append_assoc]
    rfl

end

theorem read_write {v : Value} (h : Distinct v) : read (write v) = some v := by
  have hread := readValue_write v h ((write v).length + 1) [] (fun c hc => (by cases hc)) (Nat.le_succ _)
  rw [List.append_nil] at hread
  rw [read, hread]
  exact if_pos rfl

/-! ### The units of a text -/

/-- Whether the units of a string that are written as they are meet `p`. -/
def unitsMeet (p : UInt16 → Bool) : Option UInt16 → Text → Bool
  | _, [] => true
  | previous, c :: s => (p c || lone previous c s.head?) && unitsMeet p (some c) s

mutual

/-- Whether those of every string in the value do. -/
def meets (p : UInt16 → Bool) : Value → Bool
  | .str s => unitsMeet p none s
  | .arr items => itemsMeet p items
  | .obj members => membersMeet p members
  | _ => true

def itemsMeet (p : UInt16 → Bool) : List Value → Bool
  | [] => true
  | v :: items => meets p v && itemsMeet p items

def membersMeet (p : UInt16 → Bool) : List (Text × Value) → Bool
  | [] => true
  | (key, v) :: members => unitsMeet p none key && (meets p v && membersMeet p members)

end

theorem hexDigit_lt {n : ℕ} (h : n < 16) : (hexDigit n).toNat < 128 := by
  have hall : ∀ m : Fin 16, (hexDigit m).toNat < 128 := by decide
  exact hall ⟨n, h⟩

theorem numeric_lt {c : UInt16} (h : numeric c = true) : c.toNat < 128 := by
  have hdigit (hc : isDigit c = true) : c.toNat < 128 := by
    rw [isDigit, Bool.and_eq_true, decide_eq_true_eq, decide_eq_true_eq, UInt16.le_iff_toNat_le,
      UInt16.le_iff_toNat_le] at hc
    exact Nat.lt_of_le_of_lt hc.2 (by decide)
  simp only [numeric, Bool.or_eq_true, beq_iff_eq] at h
  rcases h with ((((h | rfl) | rfl) | rfl) | rfl) | rfl
  · exact hdigit h
  · decide
  · decide
  · decide
  · decide
  · decide

section
variable {p : UInt16 → Bool} (hascii : ∀ c : UInt16, c.toNat < 128 → p c = true)
include hascii

theorem all_ascii {t : Text} (h : t.all (·.toNat < 128) = true) : t.all p = true :=
  List.all_eq_true.mpr fun c hc => hascii c (of_decide_eq_true (List.all_eq_true.mp h c hc))

theorem all_hexText (c : UInt16) : (unit '\\' :: unit 'u' :: hexText c.toNat).all p = true := by
  have hc := c.toNat_lt
  simp only [List.all_cons, hexText, List.all_nil, Bool.and_true, hascii _ (show (unit '\\').toNat < 128 by decide),
    hascii _ (show (unit 'u').toNat < 128 by decide),
    hascii _ (hexDigit_lt (show c.toNat / 4096 < 16 by omega)),
    hascii _ (hexDigit_lt (show c.toNat / 256 % 16 < 16 by omega)),
    hascii _ (hexDigit_lt (show c.toNat / 16 % 16 < 16 by omega)),
    hascii _ (hexDigit_lt (show c.toNat % 16 < 16 by omega))]

theorem all_writeUnit (previous next : Option UInt16) (c : UInt16) :
    (writeUnit previous c next).all p = (p c || lone previous c next) := by
  have hpair {e : UInt16} (he : e.toNat < 128) : [unit '\\', e].all p = true := by
    simp only [List.all_cons, List.all_nil, Bool.and_true, hascii _ (show (unit '\\').toNat < 128 by decide),
      hascii e he]
  have hwritten {t : Text} (ht : t.all p = true) (hc : c.toNat < 128) : t.all p = (p c || lone previous c next) := by
    rw [ht, hascii c hc, Bool.true_or]
  rw [writeUnit]
  split
  · rename_i hcontrol
    have hc : c.toNat < 128 := Nat.lt_trans (UInt16.lt_iff_toNat_lt.mp hcontrol) (by decide)
    refine hwritten ?_ hc
    split
    · exact hpair (by decide)
    split
    · exact hpair (by decide)
    split
    · exact hpair (by decide)
    split
    · exact hpair (by decide)
    split
    · exact hpair (by decide)
    · exact all_hexText hascii c
  split
  · rename_i hquoted
    have hc : c.toNat < 128 := by
      rcases hquoted with rfl | rfl
      · decide
      · decide
    exact hwritten (hpair hc) hc
  split
  · rename_i hlone
    rw [all_hexText hascii, hlone, Bool.or_true]
  · rename_i hlone
    rw [Bool.eq_false_iff.mpr hlone, Bool.or_false, List.all_cons, List.all_nil, Bool.and_true]

theorem all_writeUnits (previous : Option UInt16) (s : Text) :
    (writeUnits previous s).all p = unitsMeet p previous s := by
  induction s generalizing previous with
  | nil => rfl
  | cons c s ih => rw [writeUnits, List.all_append, all_writeUnit hascii, ih, unitsMeet]

theorem all_writeString (s : Text) : (writeString s).all p = unitsMeet p none s := by
  have hquote := hascii (unit '"') (by decide)
  simp only [writeString, List.all_cons, List.all_append, List.all_nil, hquote, all_writeUnits hascii, Bool.and_true,
    Bool.true_and]

mutual

/-- Only units of strings can fail `p`: the rest of a text is ASCII. -/
theorem all_write : ∀ v : Value, (write v).all p = meets p v
  | .null => all_ascii hascii (by decide)
  | .bool true => all_ascii hascii (by decide)
  | .bool false => all_ascii hascii (by decide)
  | .number n => all_ascii hascii (List.all_eq_true.mpr fun c hc => decide_eq_true (numeric_lt (numeric_of_mem n c hc)))
  | .str s => all_writeString hascii s
  | .arr [] => all_ascii hascii (by decide)
  | .arr (v :: items) => by
    rw [write, List.all_cons, List.all_append, all_write v, all_writeItems items, hascii _ (by decide), Bool.true_and]
    rfl
  | .obj [] => all_ascii hascii (by decide)
  | .obj ((key, v) :: members) => by
    rw [write, List.all_cons, List.all_append, List.all_cons, List.all_append, all_write v, all_writeMembers members,
      all_writeString hascii, hascii _ (by decide), hascii _ (by decide), Bool.true_and, Bool.true_and]
    rfl

theorem all_writeItems : ∀ items : List Value, (writeItems items).all p = itemsMeet p items
  | [] => all_ascii hascii (by decide)
  | v :: items => by
    rw [writeItems, List.all_cons, List.all_append, all_write v, all_writeItems items, hascii _ (by decide),
      Bool.true_and]
    rfl

theorem all_writeMembers : ∀ members : List (Text × Value), (writeMembers members).all p = membersMeet p members
  | [] => all_ascii hascii (by decide)
  | (key, v) :: members => by
    rw [writeMembers, List.all_cons, List.all_append, List.all_cons, List.all_append, all_write v,
      all_writeMembers members, all_writeString hascii, hascii _ (by decide), hascii _ (by decide), Bool.true_and,
      Bool.true_and]
    rfl

end
end

end NoPorts.Lib.JsonUnits
