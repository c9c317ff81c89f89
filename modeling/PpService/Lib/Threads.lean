/-
  THREADS OVER ONE SHARED OBJECT, as a library.

  A thread is a local state in `τ`; `step c t` is its next atomic action on the shared object
  `c : σ`, `none` once it has ended.  A system is the object with one local state for each
  index in `ι`, which need not be finite: a thread that has not taken its first step yet is a
  request that has not arrived yet.  Schedules are arbitrary: at every step any thread that can
  move may move.

  Four rules carry the proofs about such systems:

  * `RunWhere.invariant`  — what each step keeps, a run keeps;
  * `RunWhere.assertions` — the proof is cut into threads: an invariant `I` of the object and
    an assertion `A i` for each thread about the object and its own state.  Each thread's step
    keeps `I` and its own assertion (`own`) and no other thread's assertion is spoilt by it
    (`stable`);
  * `RunWhere.counted`    — what goes up by one whenever a thread arrives somewhere, counts the
                            threads that have arrived;
  * `Solo.runWhere`       — what one thread does alone, the system can do: the others wait.

  `RunWhere ok` are the runs all of whose steps satisfy `ok`; `Run` are all runs.  `exec`
  executes a given schedule, so that a particular run can be computed.

  The second rule is the one that does the work for shared objects.  It asks for nothing about
  schedules: whoever moves, the thread that moved has kept its own assertion, and all other
  assertions are stable under its step; so the induction over the run is done once, here.
-/
import Mathlib.Data.Finset.Card
import Mathlib.Logic.Function.Iterate
import Mathlib.Logic.Relation

namespace Threads

/-- The shared object and the local state of every thread. -/
structure Sys (σ τ ι : Type) where
  shared : σ
  threads : ι → τ

variable {σ τ ι : Type} [DecidableEq ι] (step : σ → τ → Option (σ × τ))

/-- Thread `i` takes its next atomic step. -/
def StepAt (i : ι) (s s' : Sys σ τ ι) : Prop :=
  ∃ c t, step s.shared (s.threads i) = some (c, t) ∧
    s' = ⟨c, Function.update s.threads i t⟩

/-- The runs every step of which is allowed by `ok`. -/
def RunWhere (ok : Sys σ τ ι → ι → Prop) : Sys σ τ ι → Sys σ τ ι → Prop :=
  Relation.ReflTransGen fun s s' => ∃ i, ok s i ∧ StepAt step i s s'

/-- All runs. -/
def Run : Sys σ τ ι → Sys σ τ ι → Prop := RunWhere step fun _ _ => True

variable {step} {ok : Sys σ τ ι → ι → Prop} {s s' : Sys σ τ ι}

theorem RunWhere.run (h : RunWhere step ok s s') : Run step s s' :=
  Relation.ReflTransGen.mono (fun _ _ ⟨i, _, hi⟩ => ⟨i, trivial, hi⟩) _ _ h

theorem Run.snoc (h : Run step s s') {i : ι} {s'' : Sys σ τ ι} (hi : StepAt step i s' s'') :
    Run step s s'' :=
  Relation.ReflTransGen.tail h ⟨i, trivial, hi⟩

/-- Where every step of every run is allowed, all runs are runs of allowed steps. -/
theorem Run.runWhere (hok : ∀ s', Run step s s' → ∀ i, ok s' i) (h : Run step s s') :
    RunWhere step ok s s' := by
  induction h with
  | refl => exact Relation.ReflTransGen.refl
  | @tail s₁ s₂ hrun hlast ih =>
    obtain ⟨i, _, hi⟩ := hlast
    exact Relation.ReflTransGen.tail ih ⟨i, hok s₁ hrun i, hi⟩

/-- What every allowed step keeps, every run of allowed steps keeps. -/
theorem RunWhere.invariant {J : Sys σ τ ι → Prop}
    (hstep : ∀ s s' i, ok s i → StepAt step i s s' → J s → J s')
    (h : RunWhere step ok s s') (hJ : J s) : J s' := by
  induction h with
  | refl => exact hJ
  | tail _ hlast ih =>
    obtain ⟨i, hok, hi⟩ := hlast
    exact hstep _ _ i hok hi ih

/-- One assertion for each thread, and an invariant of the object they share. -/
def Asserted (I : σ → Prop) (A : ι → σ → τ → Prop) (s : Sys σ τ ι) : Prop :=
  I s.shared ∧ ∀ i, A i s.shared (s.threads i)

/-- **The rule for threads.**  A thread's step keeps the invariant and the thread's own
    assertion (`own`), and no other thread's assertion is spoilt by it (`stable`). -/
theorem RunWhere.assertions {I : σ → Prop} {A : ι → σ → τ → Prop}
    (own : ∀ s i c t, ok s i → Asserted I A s → step s.shared (s.threads i) = some (c, t) →
      I c ∧ A i c t)
    (stable : ∀ s i j c t, j ≠ i → ok s i → Asserted I A s →
      step s.shared (s.threads i) = some (c, t) → A j c (s.threads j))
    (h : RunWhere step ok s s') (hs : Asserted I A s) : Asserted I A s' := by
  refine h.invariant ?_ hs
  rintro s s' i hok ⟨c, t, hstep, rfl⟩ hA
  obtain ⟨hI, hown⟩ := own s i c t hok hA hstep
  refine ⟨hI, fun j => ?_⟩
  by_cases hj : j = i
  · subst hj
    simpa using hown
  · simpa [hj] using stable s i j c t hj hok hA hstep

/-- **The rule for counters.**  A count of the shared object goes up by one with every step that
    brings a thread to `D`, and at no other; a thread at `D` stays there.  Then the count tells
    how many threads are at `D`. -/
theorem RunWhere.counted {β : Type} (count : σ → β) (inc : β → β) (D : ι → τ → Prop)
    (hstep : ∀ s₁ i c t, RunWhere step ok s s₁ → step s₁.shared (s₁.threads i) = some (c, t) →
      ¬ D i (s₁.threads i) ∧ D i t ∧ count c = inc (count s₁.shared) ∨
      (D i t ↔ D i (s₁.threads i)) ∧ count c = count s₁.shared)
    (h : RunWhere step ok s s') (hs : ∀ i, ¬ D i (s.threads i)) :
    ∃ there : Finset ι, (∀ i, i ∈ there ↔ D i (s'.threads i)) ∧
      count s'.shared = inc^[there.card] (count s.shared) := by
  induction h with
  | refl => exact ⟨∅, by simpa using hs, rfl⟩
  | @tail s₁ s₂ hrun hlast ih =>
    obtain ⟨there, hthere, hcount⟩ := ih
    obtain ⟨i, -, c, t, hi, rfl⟩ := hlast
    rcases hstep s₁ i c t hrun hi with ⟨hout, hin, hup⟩ | ⟨hsame, hstays⟩
    · -- one more thread has arrived
      have hnew : i ∉ there := fun hmem => hout ((hthere i).mp hmem)
      refine ⟨insert i there, fun j => ?_, ?_⟩
      · by_cases hj : j = i
        · subst hj
          simpa using hin
        · simpa [hj] using hthere j
      · rw [Finset.card_insert_of_notMem hnew, Function.iterate_succ_apply', ← hcount]
        exact hup
    · -- the same threads are there
      refine ⟨there, fun j => ?_, hstays.trans hcount⟩
      by_cases hj : j = i
      · subst hj
        simpa [hsame] using hthere j
      · simpa [hj] using hthere j

/-! ## One thread alone -/

variable (step) in
/-- What one thread does while all others wait. -/
def Solo : σ × τ → σ × τ → Prop :=
  Relation.ReflTransGen fun a b => step a.1 a.2 = some b

/-- The system can let thread `i` run alone, as long as its steps are allowed. -/
theorem Solo.runWhere {i : ι} {a : σ × τ} (h : Solo step (s.shared, s.threads i) a)
    (hok : ∀ c t, ok ⟨c, Function.update s.threads i t⟩ i) :
    RunWhere step ok s ⟨a.1, Function.update s.threads i a.2⟩ := by
  induction h with
  | refl =>
    rw [Function.update_eq_self]
    exact Relation.ReflTransGen.refl
  | @tail b a _ hlast ih =>
    exact Relation.ReflTransGen.tail ih
      ⟨i, hok b.1 b.2, a.1, a.2, by simpa using hlast, by simp⟩

/-! ## Executing a schedule -/

variable (step) in
/-- Let the threads move in the order of a schedule; a thread that has ended passes. -/
def exec : List ι → Sys σ τ ι → Sys σ τ ι
  | [], s => s
  | i :: l, s =>
    match step s.shared (s.threads i) with
    | none => exec l s
    | some (c, t) => exec l ⟨c, Function.update s.threads i t⟩

/-- What a schedule executes is a run. -/
theorem run_exec (l : List ι) (s : Sys σ τ ι) : Run step s (exec step l s) := by
  induction l generalizing s with
  | nil => exact Relation.ReflTransGen.refl
  | cons i l ih =>
    unfold exec
    cases h : step s.shared (s.threads i) with
    -- a turn of a thread that has ended is no step
    | none => exact ih s
    | some b =>
      obtain ⟨c, t⟩ := b
      exact Relation.ReflTransGen.head ⟨i, trivial, c, t, h, rfl⟩ (ih _)

variable (step) in
/-- **The rule for variants.**  If every turn of a thread takes something off its measure and
    only a thread with nothing left cannot move, then its own turns use the measure up, whatever
    the other threads do between them. -/
theorem exec_variant {μ : τ → Nat} (hless : ∀ c t c' t', step c t = some (c', t') → μ t' < μ t)
    (hend : ∀ c t, step c t = none → μ t = 0) (l : List ι) (s : Sys σ τ ι) (i : ι) :
    μ ((exec step l s).threads i) ≤ μ (s.threads i) - l.count i := by
  induction l generalizing s with
  | nil => simp [exec]
  | cons j l ih =>
    unfold exec
    cases h : step s.shared (s.threads j) with
    | none =>
      -- the thread whose turn it is has ended
      refine Nat.le_trans (ih s) ?_
      by_cases hij : j = i
      · subst hij
        have hzero := hend _ _ h
        omega
      · exact Nat.le_of_eq (by rw [List.count_cons_of_ne hij])
    | some b =>
      -- it moves: thread `i` comes nearer to its end, any other leaves it where it is
      obtain ⟨c, t⟩ := b
      refine Nat.le_trans (ih _) ?_
      by_cases hij : j = i
      · subst hij
        have hlt := hless _ _ _ _ h
        rw [List.count_cons_self]
        simp only [Function.update_self]
        omega
      · rw [List.count_cons_of_ne hij]
        simp only [Function.update_of_ne (Ne.symm hij)]
        exact Nat.le_refl _

end Threads
