import Mathlib.Data.List.Basic
import Mathlib.Logic.Function.Basic

/-! Ciphers that transform a stream element by element, each at its position, whatever the
chunks the stream comes in. -/
namespace NoPorts.Lib

/-- What happens to an element at each position; doing it again restores the element. -/
structure Keystream (α : Type*) where
  apply : ℕ → α → α
  involutive : ∀ pos, Function.Involutive (apply pos)

namespace Keystream
variable {α : Type*} (k : Keystream α)

/-- `data`, whose first element is at `pos`. -/
def crypt : ℕ → List α → List α
  | _, [] => []
  | pos, a :: data => k.apply pos a :: crypt (pos + 1) data

theorem crypt_append (pos : ℕ) (data more : List α) :
    k.crypt pos (data ++ more) = k.crypt pos data ++ k.crypt (pos + data.length) more := by
  induction data generalizing pos with
  | nil => rfl
  | cons a data ih =>
    simp only [List.cons_append, crypt, ih, List.length_cons]
    rw [Nat.add_right_comm, Nat.add_assoc]

theorem crypt_crypt (pos : ℕ) (data : List α) : k.crypt pos (k.crypt pos data) = data := by
  induction data generalizing pos with
  | nil => rfl
  | cons a data ih => rw [crypt, crypt, k.involutive pos a, ih]

theorem length_crypt (pos : ℕ) (data : List α) : (k.crypt pos data).length = data.length := by
  induction data generalizing pos with
  | nil => rfl
  | cons a data ih => rw [crypt, List.length_cons, List.length_cons, ih]

/-- Every element as it is. -/
def plain : Keystream α := ⟨fun _ a => a, fun _ _ => rfl⟩

theorem crypt_plain (pos : ℕ) (data : List α) : plain.crypt pos data = data := by
  induction data generalizing pos with
  | nil => rfl
  | cons a data ih => rw [crypt, ih]; rfl

theorem crypt_prefix (pos : ℕ) (data more : List α) : k.crypt pos data <+: k.crypt pos (data ++ more) :=
  ⟨k.crypt (pos + data.length) more, (k.crypt_append pos data more).symm⟩

end Keystream

/-- What takes a stream chunk by chunk, with a state in between. -/
abbrev Transducer (σ α : Type*) := σ → List α → List α × σ

namespace Transducer
variable {σ τ α : Type*}

/-- The chunks that come out. -/
def outputs (t : Transducer σ α) : σ → List (List α) → List (List α)
  | _, [] => []
  | s, chunk :: chunks => (t s chunk).1 :: outputs t (t s chunk).2 chunks

/-- From `s` on, `t` applies `k` from its beginning, whatever the chunks. -/
def Follows (t : Transducer σ α) (s : σ) (k : Keystream α) : Prop :=
  ∀ chunks, (t.outputs s chunks).flatten = k.crypt 0 chunks.flatten

/-- `u` gives back the stream `t` has been given, however what came out of `t` is cut again. -/
def Restores (t : Transducer σ α) (s : σ) (u : Transducer τ α) (r : τ) : Prop :=
  ∀ sent received, received.flatten = (t.outputs s sent).flatten →
    (u.outputs r received).flatten = sent.flatten

theorem Follows.restores {t : Transducer σ α} {s : σ} {u : Transducer τ α} {r : τ} {k : Keystream α}
    (ht : t.Follows s k) (hu : u.Follows r k) : t.Restores s u r := by
  intro sent received hsame
  calc (u.outputs r received).flatten
      = k.crypt 0 received.flatten := hu received
    _ = k.crypt 0 (k.crypt 0 sent.flatten) := by rw [hsame, ht sent]
    _ = sent.flatten := k.crypt_crypt 0 _

/-- What passes every chunk on as it is. -/
def unchanged : Transducer σ α := fun s chunk => (chunk, s)

theorem follows_unchanged (s : σ) : (unchanged : Transducer σ α).Follows s .plain := by
  intro chunks
  have hsame : outputs unchanged s chunks = chunks := by
    induction chunks with
    | nil => rfl
    | cons chunk chunks ih => exact congrArg (chunk :: ·) ih
  rw [hsame, Keystream.crypt_plain]

/-- A state that counts its position follows the keystream. -/
theorem follows_of_counts {t : Transducer σ α} {k : Keystream α} (position : σ → ℕ)
    (hstep : ∀ s chunk, (t s chunk).1 = k.crypt (position s) chunk ∧
      position (t s chunk).2 = position s + chunk.length) {s : σ} (hs : position s = 0) :
    t.Follows s k := by
  have hany (chunks : List (List α)) : ∀ s,
      (t.outputs s chunks).flatten = k.crypt (position s) chunks.flatten := by
    induction chunks with
    | nil => exact fun _ => rfl
    | cons chunk chunks ih =>
      intro s
      rw [outputs, List.flatten_cons, List.flatten_cons, k.crypt_append, (hstep s chunk).1, ih,
        (hstep s chunk).2]
  intro chunks
  rw [hany, hs]

end Transducer

end NoPorts.Lib
