import NoPorts.Lib.Except

/-! Code that calls other code, each call of which may throw: how it ends, beside the calls it has made by
then, which stay made where it ends by a throw. -/
namespace NoPorts.Lib

/-- From the calls made before. -/
def Calling (κ ε α : Type) : Type := List κ → Except ε α × List κ

namespace Calling
variable {κ ε α β : Type}

/-- What throws goes no further. -/
def andThen (x : Calling κ ε α) (f : α → Calling κ ε β) : Calling κ ε β := fun calls =>
  match x calls with
  | (.ok a, made) => f a made
  | (.error e, made) => (.error e, made)

def catching (x : Calling κ ε α) (handler : ε → Calling κ ε α) : Calling κ ε α := fun calls =>
  match x calls with
  | (.ok a, made) => (.ok a, made)
  | (.error e, made) => handler e made

instance : Monad (Calling κ ε) where
  pure a := fun calls => (.ok a, calls)
  bind := andThen

instance : MonadExceptOf ε (Calling κ ε) where
  throw e := fun calls => (.error e, calls)
  tryCatch := catching

/-- What calls nothing. -/
def ofExcept (x : Except ε α) : Calling κ ε α := fun calls => (x, calls)

/-- The call `k`, which ends so. -/
def call (k : κ) (outcome : Except ε α) : Calling κ ε α := fun calls => (outcome, calls ++ [k])

variable {x : Calling κ ε α} {f : α → Calling κ ε β} {handler : ε → Calling κ ε α} {calls made : List κ} {a : α} {e : ε}

theorem bind_ok (h : x calls = (.ok a, made)) : (x >>= f) calls = f a made := by
  change andThen x f calls = _
  rw [andThen, h]

/-- What calls nothing and doesn't throw. -/
theorem ofExcept_bind {y : Except ε α} (h : y = .ok a) : (ofExcept y >>= f) calls = f a calls := by
  rw [h]
  rfl

theorem bind_error (h : x calls = (.error e, made)) : (x >>= f) calls = (.error e, made) := by
  change andThen x f calls = _
  rw [andThen, h]

theorem ofExcept_bind_error {y : Except ε α} (h : y = .error e) : (ofExcept y >>= f) calls = (.error e, calls) := by
  rw [h]
  rfl

theorem tryCatch_ok (h : x calls = (.ok a, made)) : tryCatch x handler calls = (.ok a, made) := by
  change catching x handler calls = _
  rw [catching, h]

theorem tryCatch_error (h : x calls = (.error e, made)) : tryCatch x handler calls = handler e made := by
  change catching x handler calls = _
  rw [catching, h]

end Calling
end NoPorts.Lib
