import Mathlib.Data.Rat.Defs

/-! Decoded JSON values. A decoder keeps one value for each key of an object,
so the first match of a lookup is the only one. -/
namespace NoPorts.Lib

inductive Json where
  | null
  | bool (b : Bool)
  | int (n : ℤ)
  | double (q : ℚ)
  | str (s : String)
  | arr (items : List Json)
  | obj (fields : List (String × Json))

namespace Json

/-- The value at `key`, `null` when the object has none, as reading a decoded
map gives it. -/
def field (fields : List (String × Json)) (key : String) : Json :=
  (fields.lookup key).getD null

def str? : Json → Option String
  | str s => some s
  | _ => none

def obj? : Json → Option (List (String × Json))
  | obj fields => some fields
  | _ => none

def isNull : Json → Bool
  | null => true
  | _ => false

/-- A string as itself, anything absent as `null`. -/
def ofStr? : Option String → Json
  | some s => str s
  | none => null

theorem str?_eq_some {j : Json} {s : String} : j.str? = some s ↔ j = str s := by
  cases j <;> simp [str?]

end Json
end NoPorts.Lib
