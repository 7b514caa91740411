import NoPorts.Lib.Json
import Mathlib.Data.List.Nodup

/-! The compact JSON text of values, and a reader of objects, strings and nulls. -/
namespace NoPorts.Lib.Json

/-- Written as itself between quotes. -/
def plain (c : Char) : Bool := 32 ≤ c.toNat && c != '"' && c != '\\'

def quote (s : String) : List Char := '"' :: (s.toList ++ ['"'])

/-- An object's members, by key and by the text of the value. -/
def membersText : List (String × List Char) → List Char
  | [] => ['}']
  | [m] => quote m.1 ++ ':' :: (m.2 ++ ['}'])
  | m :: members => quote m.1 ++ ':' :: (m.2 ++ ',' :: membersText members)

def objectText (members : List (String × List Char)) : List Char := '{' :: membersText members

mutual

/-- An encoder; of numbers it writes the integers. -/
def compactText : Json → List Char
  | .null => "null".toList
  | .bool b => (toString b).toList
  | .int n => (toString n).toList
  | .double _ => []
  | .str s => quote s
  | .arr items => '[' :: compactItems items
  | .obj members => objectText (compactMembers members)

def compactItems : List Json → List Char
  | [] => [']']
  | [item] => compactText item ++ [']']
  | item :: items => compactText item ++ ',' :: compactItems items

def compactMembers : List (String × Json) → List (String × List Char)
  | [] => []
  | (name, value) :: members => (name, compactText value) :: compactMembers members

end

def compactEncode (json : Json) : String := String.ofList (compactText json)

/-- A string after its opening quote, and what follows it; an escape is not read. -/
def readString : List Char → Option (List Char × List Char)
  | [] => none
  | c :: text =>
    if c = '"' then some ([], text)
    else if plain c then (readString text).map fun r => (c :: r.1, r.2)
    else none

mutual

/-- A value and what follows it; each member and each level uses up one of `fuel`. -/
def readValue : ℕ → List Char → Option (Json × List Char)
  | _, '"' :: text => (readString text).map fun r => (.str (String.ofList r.1), r.2)
  | _, 'n' :: 'u' :: 'l' :: 'l' :: text => some (.null, text)
  | fuel + 1, '{' :: text => (readMembers fuel text).map fun r => (.obj r.1, r.2)
  | _, _ => none

def readMembers : ℕ → List Char → Option (List (String × Json) × List Char)
  | fuel + 1, '"' :: text =>
    match readString text with
    | some (key, ':' :: text) =>
      match readValue fuel text with
      | some (value, '}' :: text) => some ([(String.ofList key, value)], text)
      | some (value, ',' :: text) =>
        match readMembers fuel text with
        | some (members, text) =>
          -- the last of two values for one key would stand, which no text read here needs
          if String.ofList key ∈ members.map (·.1) then none
          else some ((String.ofList key, value) :: members, text)
        | none => none
      | _ => none
    | _ => none
  | _, _ => none

end

/-- The value of a whole text. -/
def read (text : String) : Option Json :=
  match readValue text.toList.length text.toList with
  | some (value, []) => some value
  | _ => none

/-- Before anything, `text` is read as `value`. -/
def Reads (fuel : ℕ) (text : List Char) (value : Json) : Prop :=
  ∀ k, fuel ≤ k → ∀ rest, readValue k (text ++ rest) = some (value, rest)

theorem readString_append {s : List Char} (hs : ∀ c ∈ s, plain c = true) (rest : List Char) :
    readString (s ++ '"' :: rest) = some (s, rest) := by
  induction s with
  | nil => rfl
  | cons c s ih =>
    have hc := hs c List.mem_cons_self
    have hquote : c ≠ '"' := by
      intro heq
      rw [heq] at hc
      exact absurd hc (by decide)
    rw [List.cons_append, readString, if_neg hquote, if_pos hc,
      ih fun d hd => hs d (List.mem_cons_of_mem c hd)]
    rfl

theorem quote_append (s : String) (rest : List Char) :
    quote s ++ rest = '"' :: (s.toList ++ '"' :: rest) := by
  rw [quote, List.cons_append, List.append_assoc]
  rfl

theorem reads_quote {s : String} (hs : ∀ c ∈ s.toList, plain c = true) :
    Reads 0 (quote s) (.str s) := by
  intro k _ rest
  rw [quote_append]
  cases k <;>
  · rw [readValue, readString_append hs]
    exact congrArg (fun t => some (Json.str t, rest)) String.ofList_toList

theorem reads_null : Reads 0 (compactText .null) .null := by
  intro k _ rest
  have htext : compactText .null ++ rest = 'n' :: 'u' :: 'l' :: 'l' :: rest := rfl
  rw [htext]
  cases k <;>
  · rw [readValue]

/-- A member is its key, its value and the text of its value. -/
theorem readMembers_membersText {members : List (String × Json × List Char)} (hne : members ≠ [])
    (hkeys : ∀ m ∈ members, ∀ c ∈ m.1.toList, plain c = true) (hnodup : (members.map (·.1)).Nodup)
    {fuel : ℕ} (hvalues : ∀ m ∈ members, Reads fuel m.2.2 m.2.1) {k : ℕ}
    (hk : fuel + members.length ≤ k) (rest : List Char) :
    readMembers k (membersText (members.map fun m => (m.1, m.2.2)) ++ rest) =
      some (members.map fun m => (m.1, m.2.1), rest) := by
  induction members generalizing k with
  | nil => exact absurd rfl hne
  | cons m members ih =>
    rw [List.length_cons] at hk
    obtain ⟨k, rfl⟩ : ∃ j, k = j + 1 := ⟨k - 1, by omega⟩
    have hfuel : fuel ≤ k := by omega
    have hkey := hkeys m List.mem_cons_self
    have hvalue := hvalues m List.mem_cons_self k hfuel
    cases members with
    | nil =>
      simp only [List.map_cons, List.map_nil, membersText, List.append_assoc, List.cons_append,
        quote_append]
      rw [readMembers, readString_append hkey]
      simp only [List.nil_append, hvalue, String.ofList_toList]
    | cons m' members =>
      have hmore := ih (List.cons_ne_nil _ _) (fun x hx => hkeys x (List.mem_cons_of_mem m hx))
        (List.nodup_cons.mp hnodup).2 (fun x hx => hvalues x (List.mem_cons_of_mem m hx))
        (show fuel + (m' :: members).length ≤ k by omega)
      have hnew : m.1 ∉ ((m' :: members).map fun x => (x.1, x.2.1)).map (·.1) := by
        rw [List.map_map]
        exact (List.nodup_cons.mp hnodup).1
      simp only [List.map_cons] at hmore hnew ⊢
      rw [membersText]
      · simp only [List.append_assoc, List.cons_append, quote_append]
        rw [readMembers, readString_append hkey]
        simp only [hvalue, hmore, String.ofList_toList]
        exact if_neg hnew
      · exact List.cons_ne_nil _ _

theorem Reads.mono {k l : ℕ} {text : List Char} {value : Json} (h : Reads k text value)
    (hkl : k ≤ l) : Reads l text value := fun m hm => h m (Nat.le_trans hkl hm)

theorem reads_objectText (members : List (String × Json × List Char)) (fuel : ℕ) (hne : members ≠ [])
    (hkeys : ∀ m ∈ members, ∀ c ∈ m.1.toList, plain c = true) (hnodup : (members.map (·.1)).Nodup)
    (hvalues : ∀ m ∈ members, Reads fuel m.2.2 m.2.1) :
    Reads (fuel + members.length + 1) (objectText (members.map fun m => (m.1, m.2.2)))
      (.obj (members.map fun m => (m.1, m.2.1))) := by
  intro k hk rest
  obtain ⟨k, rfl⟩ : ∃ j, k = j + 1 := ⟨k - 1, by omega⟩
  rw [objectText, List.cons_append, readValue,
    readMembers_membersText hne hkeys hnodup hvalues (by omega)]
  rfl

theorem read_of_reads {fuel : ℕ} {text : List Char} {value : Json} (h : Reads fuel text value)
    (hfuel : fuel ≤ text.length) : read (String.ofList text) = some value := by
  have hread := h text.length hfuel []
  rw [List.append_nil] at hread
  rw [read, String.toList_ofList, hread]

mutual

/-- What the reader reads: null, a plain string, or an object that is not empty, of plain names that differ. -/
def readable : Json → Bool
  | .null => true
  | .str s => s.toList.all plain
  | .obj members => !members.isEmpty && decide (members.map (·.1)).Nodup && readableMembers members
  | _ => false

def readableMembers : List (String × Json) → Bool
  | [] => true
  | (name, value) :: members => name.toList.all plain && readable value && readableMembers members

end

theorem compactMembers_eq (members : List (String × Json)) :
    compactMembers members = members.map fun m => (m.1, compactText m.2) := by
  induction members with
  | nil => rfl
  | cons m members ih => rw [compactMembers, ih, List.map_cons]

theorem length_membersText (name : String) (value : List Char) (members : List (String × List Char)) :
    value.length + (membersText members).length + 1 ≤ (membersText ((name, value) :: members)).length := by
  cases members with
  | nil =>
    simp only [membersText, quote, List.length_append, List.length_cons, List.length_nil]
    omega
  | cons m members =>
    simp only [membersText, quote, List.length_append, List.length_cons, List.length_nil]
    omega

mutual

/-- The text is longer than its value is deep, so its length is fuel enough. -/
theorem reads_compactText : (json : Json) → readable json = true →
    ∃ fuel ≤ (compactText json).length, Reads fuel (compactText json) json
  | .null, _ => ⟨0, Nat.zero_le _, reads_null⟩
  | .str s, h => ⟨0, Nat.zero_le _, reads_quote (List.all_eq_true.mp h)⟩
  | .obj members, h => by
    rw [readable, Bool.and_eq_true, Bool.and_eq_true, Bool.not_eq_true', decide_eq_true_iff] at h
    obtain ⟨⟨hne, hnodup⟩, hmembers⟩ := h
    obtain ⟨fuel, hfuel, hreads⟩ := reads_compactMembers members hmembers
    have hobject := reads_objectText (members.map fun m => (m.1, m.2, compactText m.2)) fuel ?_ ?_ ?_ ?_
    · simp only [List.map_map, Function.comp_def, List.length_map, Prod.eta, List.map_id_fun', id_eq] at hobject
      rw [← compactMembers_eq] at hobject
      refine ⟨_, ?_, hobject⟩
      rw [compactText, objectText, List.length_cons]
      omega
    · rw [ne_eq, List.map_eq_nil_iff]
      rintro rfl
      cases hne
    · intro x hx
      obtain ⟨m, hm, rfl⟩ := List.mem_map.mp hx
      exact (hreads m hm).1
    · rw [List.map_map]
      exact hnodup
    · intro x hx
      obtain ⟨m, hm, rfl⟩ := List.mem_map.mp hx
      exact (hreads m hm).2
  | .bool _, h => by cases h
  | .int _, h => by cases h
  | .double _, h => by cases h
  | .arr _, h => by cases h

theorem reads_compactMembers : (members : List (String × Json)) → readableMembers members = true →
    ∃ fuel, fuel + members.length ≤ (membersText (compactMembers members)).length ∧
      ∀ m ∈ members, (∀ c ∈ m.1.toList, plain c = true) ∧ Reads fuel (compactText m.2) m.2
  | [], _ => ⟨0, Nat.zero_le _, fun _ hm => absurd hm List.not_mem_nil⟩
  | (name, value) :: members, h => by
    rw [readableMembers, Bool.and_eq_true, Bool.and_eq_true] at h
    obtain ⟨⟨hname, hvalue⟩, hmembers⟩ := h
    obtain ⟨k, hk, hreads⟩ := reads_compactText value hvalue
    obtain ⟨fuel, hfuel, hrest⟩ := reads_compactMembers members hmembers
    have hlength := length_membersText name (compactText value) (compactMembers members)
    refine ⟨max k fuel, ?_, fun m hm => ?_⟩
    · rw [compactMembers, List.length_cons]
      omega
    · rcases List.mem_cons.mp hm with rfl | hm
      · exact ⟨List.all_eq_true.mp hname, hreads.mono (Nat.le_max_left k fuel)⟩
      · exact ⟨(hrest m hm).1, (hrest m hm).2.mono (Nat.le_max_right k fuel)⟩

end

theorem read_compactEncode {json : Json} (h : readable json = true) :
    read (compactEncode json) = some json := by
  obtain ⟨fuel, hfuel, hreads⟩ := reads_compactText json h
  exact read_of_reads hreads hfuel

end NoPorts.Lib.Json
