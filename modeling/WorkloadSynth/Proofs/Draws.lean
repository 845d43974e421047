import Mathlib.Logic.Function.Iterate
import WorkloadSynth.Random.Source

/-!
# Repeated draws

What is known of `drawMany` for any draw: how many values there are, that they may be changed while
they are drawn or afterwards, and that drawing may stop and go on.  If the state behind a draw does
not depend on what is drawn, as where every draw takes one word, each value is known from the number
of the draws before it (`drawMany_getElem?`).
-/

namespace WorkloadSynth

/-! ## §1 — values and states -/

section Repeated

variable {σ α β : Type} {draw : σ → α × σ} {next : σ → σ}

@[simp]
theorem drawMany_length (draw : σ → α × σ) (n : Nat) (s : σ) :
    (drawMany draw n s).1.length = n := by
  induction n generalizing s with
  | zero => rfl
  | succ n ih => simp [drawMany, ih]

/-- The source does not see what becomes of the values. -/
theorem drawMany_map (draw : σ → α × σ) (f : α → β) (n : Nat) (s : σ) :
    drawMany (fun s => (f (draw s).1, (draw s).2)) n s =
      ((drawMany draw n s).1.map f, (drawMany draw n s).2) := by
  induction n generalizing s with
  | zero => rfl
  | succ n ih => simp [drawMany, ih]

/-- Drawing goes on from the state that is left. -/
theorem drawMany_add (m n : Nat) (s : σ) :
    drawMany draw (m + n) s =
      ((drawMany draw m s).1 ++ (drawMany draw n (drawMany draw m s).2).1,
        (drawMany draw n (drawMany draw m s).2).2) := by
  induction m generalizing s with
  | zero => simp [drawMany]
  | succ m ih => simp [Nat.succ_add, drawMany, ih]

/-- The state behind `n` draws does not depend on what is drawn if that of one draw does not. -/
theorem drawMany_state (h : ∀ s, (draw s).2 = next s) (n : Nat) (s : σ) :
    (drawMany draw n s).2 = next^[n] s := by
  induction n generalizing s with
  | zero => rfl
  | succ n ih =>
    rw [Function.iterate_succ_apply, ← h s]
    exact ih (draw s).2

/-- A draw starts from the state that the draws before it leave. -/
theorem drawMany_getElem? (h : ∀ s, (draw s).2 = next s) {n i : Nat} (hi : i < n) (s : σ) :
    (drawMany draw n s).1[i]? = some (draw (next^[i] s)).1 := by
  induction n generalizing i s with
  | zero => exact absurd hi (Nat.not_lt_zero i)
  | succ n ih =>
    cases i with
    | zero => rfl
    | succ i =>
      rw [Function.iterate_succ_apply, ← h s]
      exact ih (Nat.lt_of_succ_lt_succ hi) (draw s).2

end Repeated

/-! ## §2 — words -/

section Words

variable {σ : Type} [RandomSource σ]

/-- The state behind one word. -/
def afterWord (s : σ) : σ := (RandomSource.next s).2

/-- The word that comes behind `i` others. -/
def wordAt (i : Nat) (s : σ) : UInt64 := (RandomSource.next (afterWord^[i] s)).1

end Words

end WorkloadSynth
