/-
  WHILE LOOPS THAT MAY FAIL: a round either fails, says that the loop is over, or gives the next
  state.  A loop carries its variant, so a loop that does not end cannot be built.

  What such a loop computes is read off its rounds: if `n` rounds lead to a state where the loop
  is over, that state is the result (`Rounds.run_eq`), whatever the variant was.
-/
import Mathlib.Tactic.Common

/-- The round of a loop and the measure that it lowers. -/
structure Loop (ε σ : Type*) where
  round : σ → Except ε (Option σ)
  variant : σ → Nat
  round_lt : ∀ {s t}, round s = .ok (some t) → variant t < variant s

namespace Loop

variable {ε σ : Type*} (L : Loop ε σ)

/-- Round after round until one fails or says that the loop is over. -/
def run (s : σ) : Except ε σ :=
  match _h : L.round s with
  | .error e => .error e
  | .ok none => .ok s
  | .ok (some t) => run t
termination_by L.variant s
decreasing_by exact L.round_lt _h

/-- `n` rounds lead from the one state to the other. -/
inductive Rounds : Nat → σ → σ → Prop
  | done (s : σ) : Rounds 0 s s
  | more {n : Nat} {s t u : σ} (first : L.round s = .ok (some t)) (rest : Rounds n t u) :
      Rounds (n + 1) s u

variable {L}

/-- A round that ends the loop ends its run. -/
theorem run_of_over {s : σ} (h : L.round s = .ok none) : L.run s = .ok s := by
  rw [run]
  split
  all_goals simp_all

/-- A round that does not is one round less to go. -/
theorem run_of_more {s t : σ} (h : L.round s = .ok (some t)) : L.run s = L.run t := by
  rw [run]
  split
  all_goals simp_all

/-- After finitely many rounds to a state where the loop is over, that state is the result. -/
theorem Rounds.run_eq {n : Nat} {s t : σ} (h : Rounds L n s t) (hover : L.round t = .ok none) :
    L.run s = .ok t := by
  induction h with
  | done s => exact run_of_over hover
  | more first _ ih => rw [run_of_more first, ih hover]

end Loop
