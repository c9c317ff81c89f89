/-
  SCRIPTS: operations on a state, done one after the other until one fails.

  A program asks, computes and loops while it operates on the state.  It follows a script when,
  from every state, it does what the script does and then answers a value that the state has no
  part in (`Follows`).  Programs are put together as scripts are, so the script of a whole
  program is read off its parts, and its error is that of the first operation that fails
  (`run_eq_error_iff`).

  What a program asks of the state may decide what it does next.  `Follows` is about programs
  where it does not: the value each part returns is fixed, and only the state and the errors are
  left to the state.  Loops go round by round (`follows_foldlM`).
-/
import Mathlib.Tactic.Common

namespace Script

variable {ι σ ε α β : Type} (perform : ι → σ → Except ε σ)

/-- The operations in order, up to the first that fails. -/
def run : List ι → σ → Except ε σ
  | [], s => .ok s
  | i :: rest, s => (perform i s).bind (run rest)

variable {perform}

/-- Two scripts one after the other: the second runs if the first does not fail. -/
theorem run_append (l l' : List ι) (s : σ) :
    run perform (l ++ l') s = (run perform l s).bind (run perform l') := by
  induction l generalizing s with
  | nil => rfl
  | cons i rest ih =>
    show (perform i s).bind (run perform (rest ++ l')) = _
    rw [run]
    cases perform i s with
    | error e => rfl
    | ok t => exact ih t

theorem run_singleton (i : ι) (s : σ) : run perform [i] s = perform i s := by
  show (perform i s).bind (run perform []) = _
  cases perform i s <;> rfl

/-- A script fails with the error of its first operation that fails. -/
theorem run_eq_error_iff {l : List ι} {s : σ} {e : ε} :
    run perform l s = .error e ↔ ∃ before i after t, l = before ++ i :: after ∧
      run perform before s = .ok t ∧ perform i t = .error e := by
  constructor
  · intro h
    induction l generalizing s with
    | nil => cases h
    | cons i rest ih =>
      rw [run] at h
      cases hi : perform i s with
      | error e' =>
        rw [hi] at h
        cases h
        exact ⟨[], i, rest, s, rfl, rfl, hi⟩
      | ok t =>
        rw [hi] at h
        obtain ⟨before, j, after, u, rfl, hbefore, hj⟩ := ih h
        refine ⟨i :: before, j, after, u, rfl, ?_, hj⟩
        rw [run, hi]
        exact hbefore
  · rintro ⟨before, i, after, t, rfl, hbefore, hi⟩
    rw [run_append, hbefore]
    show (perform i t).bind (run perform after) = _
    rw [hi]
    rfl

/-! ## Programs that follow a script -/

variable (perform) in
/-- From every state the program does what the script does, and answers `a`. -/
def Follows (program : StateT σ (Except ε) α) (l : List ι) (a : α) : Prop :=
  ∀ s, program s = (run perform l s).map fun t => (a, t)

theorem follows_pure (a : α) : Follows perform (pure a) [] a := fun _ => rfl

theorem follows_map (i : ι) (a : α) :
    Follows perform (fun s => (perform i s).map fun t => (a, t)) [i] a := by
  intro s
  rw [run_singleton]

/-- Programs put together perform their scripts one after the other; the second may depend on what
    the first returns, which is fixed. -/
theorem Follows.bind {program : StateT σ (Except ε) α} {l : List ι} {a : α}
    (h : Follows perform program l a) {rest : α → StateT σ (Except ε) β} {l' : List ι} {b : β}
    (h' : Follows perform (rest a) l' b) : Follows perform (program >>= rest) (l ++ l') b := by
  intro s
  show (program s).bind (fun p => rest p.1 p.2) = _
  rw [h s, run_append]
  cases run perform l s with
  | error e => rfl
  | ok t => exact h' t

/-- The script of a loop: the scripts of its rounds, each from what the one before has left. -/
def rounds (next : β → α → β) (round : β → α → List ι) : List α → β → List ι
  | [], _ => []
  | a :: rest, b => round b a ++ rounds next round rest (next b a)

/-- **Loops.**  If each round performs a script that depends on the round and the value so far, the
    loop performs the scripts of all its rounds. -/
theorem follows_foldlM {program : β → α → StateT σ (Except ε) β} {next : β → α → β}
    {round : β → α → List ι} (h : ∀ b a, Follows perform (program b a) (round b a) (next b a))
    (l : List α) (b : β) :
    Follows perform (l.foldlM program b) (rounds next round l b) (l.foldl next b) := by
  induction l generalizing b with
  | nil => exact follows_pure b
  | cons a rest ih =>
    rw [List.foldlM_cons]
    exact (h b a).bind (ih _)

end Script
