import NoPorts.Lib.StreamCipher

/-! Passing a stream on through a transducer, to what may take only a part of each chunk. -/
namespace NoPorts.Lib
namespace Transducer
variable {σ α : Type*} (t : Transducer σ α)

/-- The state after `chunks`. -/
def after (s : σ) (chunks : List (List α)) : σ := chunks.foldl (fun s chunk => (t s chunk).2) s

theorem after_concat (s : σ) (chunks : List (List α)) (chunk : List α) :
    t.after s (chunks ++ [chunk]) = (t (t.after s chunks) chunk).2 := by
  rw [after, List.foldl_append]
  rfl

theorem outputs_concat (s : σ) (chunks : List (List α)) (chunk : List α) :
    t.outputs s (chunks ++ [chunk]) = t.outputs s chunks ++ [(t (t.after s chunks) chunk).1] := by
  induction chunks generalizing s with
  | nil => rfl
  | cons first chunks ih =>
    rw [List.cons_append, outputs, outputs, ih]
    rfl

end Transducer

/-- The state of the transducer, what is still to be sent, and how far the stream has come. -/
structure Pump (σ α : Type*) where
  state : σ
  pending : List α
  taken : List (List α)
  sent : List α
  deriving DecidableEq, Repr

namespace Pump
variable {σ α : Type*} (t : Transducer σ α)

/-- The first `w` of what is pending are sent. -/
def flush (p : Pump σ α) (w : ℕ) : Pump σ α :=
  { p with pending := p.pending.drop w, sent := p.sent ++ p.pending.take w }

/-- `chunk` is taken, of which the first `w` are sent at once. -/
def feed (p : Pump σ α) (chunk : List α) (w : ℕ) : Pump σ α :=
  ⟨(t p.state chunk).2, (t p.state chunk).1.drop w, p.taken ++ [chunk], p.sent ++ (t p.state chunk).1.take w⟩

/-- `chunk` is taken, and none of it is sent or kept. -/
def lose (p : Pump σ α) (chunk : List α) : Pump σ α :=
  { p with state := (t p.state chunk).2, taken := p.taken ++ [chunk] }

def drop (p : Pump σ α) : Pump σ α := { p with pending := [] }

/-- What has been taken has been sent or is pending, in order. -/
structure Whole (s : σ) (p : Pump σ α) : Prop where
  state : p.state = t.after s p.taken
  sent : p.sent ++ p.pending = (t.outputs s p.taken).flatten

variable {t} {s : σ} {p : Pump σ α}

theorem Whole.start (s : σ) : Whole t s ⟨s, [], [], []⟩ := ⟨rfl, rfl⟩

theorem Whole.flush (h : Whole t s p) (w : ℕ) : Whole t s (p.flush w) := by
  refine ⟨h.state, ?_⟩
  rw [Pump.flush, List.append_assoc, List.take_append_drop]
  exact h.sent

theorem Whole.feed (h : Whole t s p) (hpending : p.pending = []) (chunk : List α) (w : ℕ) :
    Whole t s (p.feed t chunk w) := by
  constructor
  · rw [Pump.feed, t.after_concat, ← h.state]
  · have hsent := h.sent
    rw [hpending, List.append_nil] at hsent
    rw [Pump.feed, t.outputs_concat, ← h.state, List.flatten_append, List.flatten_singleton, ← hsent,
      List.append_assoc, List.take_append_drop]

variable {k : Keystream α}

/-- The stream as far as it has been taken, by its own positions in the keystream. -/
theorem Whole.sent_eq (h : Whole t s p) (hk : t.Follows s k) : p.sent ++ p.pending = k.crypt 0 p.taken.flatten :=
  h.sent.trans (hk p.taken)

theorem Whole.sent_prefix (h : Whole t s p) (hk : t.Follows s k) : p.sent <+: k.crypt 0 p.taken.flatten :=
  ⟨p.pending, h.sent_eq hk⟩

end Pump
end NoPorts.Lib
