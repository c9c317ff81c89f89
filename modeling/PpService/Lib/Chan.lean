/-
  A BOUNDED FIFO CHANNEL between one producer and one consumer, as a library.

  The producer is a loop over an iterator: ask `next` for a message, send it, repeat; it ends
  when the iterator ends or when a send is refused because the consumer has closed the channel.
  A send waits while the buffer holds `cap` messages.  The consumer takes messages from the
  head of the buffer and may close the channel at any moment; what is still in the buffer then
  may or may not be taken, so `receive` stays possible after `close`.

  Steps of the two sides interleave freely.  `Emits next p l` says that the iterator in state
  `p` produces exactly the messages `l` and ends.  `Inv all` ties the four places a message can
  be in: received, buffered, in the producer's hand, still to come.  From it:

  * `Inv.received_prefix` — at any time what has been received is a prefix of `all`;
  * `Inv.received_all`    — a channel never closed whose producer has stopped and whose buffer
                            is empty has delivered `all`;
  * `delivers`            — such a run exists, whatever the number of messages.

  `CanTake next s k` bounds the number of steps to come: every step lowers the bound
  (`CanTake.step`), and until the channel is `Over` some step other than closing is possible
  (`exists_step`), so every run that is not cut short ends.
-/
import Mathlib.Logic.Function.Iterate
import Mathlib.Logic.Relation

namespace Chan

/-- Where the producer is in its loop. -/
inductive Producer (π α : Type) where
  /-- About to ask the iterator for a message. -/
  | pulling (p : π)
  /-- In a send; `p` is the iterator afterwards. -/
  | sending (a : α) (p : π)
  | stopped

/-- The channel with its two ends. -/
structure State (π α : Type) where
  producer : Producer π α
  buffer : List α
  received : List α
  closed : Bool

variable {π α : Type}

/-- Before the first step. -/
def start (p : π) : State π α := ⟨.pulling p, [], [], false⟩

variable (cap : Nat) (next : π → Option (α × π))

/-- One step of the producer or of the consumer. -/
inductive Step : State π α → State π α → Prop where
  -- the producer
  | pull {p a p' b r c} (h : next p = some (a, p')) :
      Step ⟨.pulling p, b, r, c⟩ ⟨.sending a p', b, r, c⟩
  | finish {p b r c} (h : next p = none) : Step ⟨.pulling p, b, r, c⟩ ⟨.stopped, b, r, c⟩
  | send {a p b r} (h : b.length < cap) :
      Step ⟨.sending a p, b, r, false⟩ ⟨.pulling p, b ++ [a], r, false⟩
  | refused {a p b r} : Step ⟨.sending a p, b, r, true⟩ ⟨.stopped, b, r, true⟩
  -- the consumer
  | receive {q a b r c} : Step ⟨q, a :: b, r, c⟩ ⟨q, b, r ++ [a], c⟩
  | close {q b r} : Step ⟨q, b, r, false⟩ ⟨q, b, r, true⟩

/-- Runs of any length and any interleaving. -/
def Run : State π α → State π α → Prop := Relation.ReflTransGen (Step cap next)

/-- The iterator produces exactly these messages, then ends. -/
inductive Emits : π → List α → Prop where
  | done {p} (h : next p = none) : Emits p []
  | more {p a p' l} (h : next p = some (a, p')) (hl : Emits p' l) : Emits p (a :: l)

/-- An iterator that answers and changes in place, as one that answers with its successor. -/
def ofNext (next : π → Option α × π) (p : π) : Option (α × π) :=
  match next p with
  | (some a, p') => some (a, p')
  | (none, _) => none

/-- What the producer will still offer to the channel. -/
def ToCome : Producer π α → List α → Prop
  | .pulling p, rest => Emits next p rest
  | .sending a p, rest => ∃ l, rest = a :: l ∧ Emits next p l
  | .stopped, rest => rest = []

/-- Every message is received, buffered or still to come, in this order; a producer that was
    refused has given up the rest. -/
def Inv (all : List α) (s : State π α) : Prop :=
  ∃ rest, s.received ++ s.buffer ++ rest = all ∧
    (ToCome next s.producer rest ∨ s.closed = true)

variable {cap next}

/-- At the start everything is still to come. -/
theorem Inv.start {p : π} {all : List α} (h : Emits next p all) : Inv next all (start p) :=
  ⟨all, by simp [Chan.start], Or.inl h⟩

/-- One step moves a message at most one place on. -/
theorem Inv.step {all : List α} {s s' : State π α} (hI : Inv next all s)
    (h : Step cap next s s') : Inv next all s' := by
  obtain ⟨rest, hall, hcome⟩ := hI
  cases h with
  | @pull p a p' b r c hn =>
    refine ⟨rest, hall, ?_⟩
    rcases hcome with hcome | hclosed
    · refine Or.inl ?_
      cases hcome with
      | done hn' => rw [hn] at hn'; nomatch hn'
      | @more _ a' p'' l hn' hl =>
        rw [hn] at hn'
        obtain ⟨rfl, rfl⟩ := Prod.mk.inj (Option.some.inj hn')
        exact ⟨l, rfl, hl⟩
    · exact Or.inr hclosed
  | @finish p b r c hn =>
    refine ⟨rest, hall, ?_⟩
    rcases hcome with hcome | hclosed
    · refine Or.inl ?_
      cases hcome with
      | done _ => rfl
      | more hn' _ => rw [hn] at hn'; nomatch hn'
    · exact Or.inr hclosed
  | @send a p b r hroom =>
    rcases hcome with ⟨l, rfl, hl⟩ | hclosed
    · exact ⟨l, by simpa using hall, Or.inl hl⟩
    · nomatch hclosed
  | refused => exact ⟨rest, hall, Or.inr rfl⟩
  | receive => exact ⟨rest, by simpa using hall, hcome⟩
  | close => exact ⟨rest, hall, Or.inr rfl⟩

theorem Inv.run {all : List α} {s s' : State π α} (h : Run cap next s s')
    (hI : Inv next all s) : Inv next all s' := by
  induction h with
  | refl => exact hI
  | tail _ hlast ih => exact ih.step hlast

/-- Nothing is lost, repeated or reordered on the way to the consumer. -/
theorem Inv.received_prefix {all : List α} {s : State π α} (hI : Inv next all s) :
    s.received <+: all := by
  obtain ⟨rest, hall, -⟩ := hI
  exact ⟨s.buffer ++ rest, by rw [← List.append_assoc, hall]⟩

/-- A channel that was not closed, with a stopped producer and an empty buffer, is done. -/
theorem Inv.received_all {all : List α} {s : State π α} (hI : Inv next all s)
    (hopen : s.closed = false) (hstop : s.producer = .stopped) (hdrained : s.buffer = []) :
    s.received = all := by
  obtain ⟨rest, hall, hcome⟩ := hI
  rcases hcome with hcome | hclosed
  · rw [hstop] at hcome
    have hrest : rest = [] := hcome
    simpa [hdrained, hrest] using hall
  · rw [hopen] at hclosed
    nomatch hclosed

/-- A consumer that takes every message at once gets them all. -/
theorem delivers (hcap : 0 < cap) {p : π} {all : List α} (h : Emits next p all) :
    ∀ r : List α, Run cap next ⟨.pulling p, [], r, false⟩ ⟨.stopped, [], r ++ all, false⟩ := by
  induction h with
  | done hn =>
    intro r
    rw [List.append_nil]
    exact Relation.ReflTransGen.single (.finish hn)
  | @more p a p' l hn hl ih =>
    intro r
    -- pull, send, receive: the buffer is empty again
    refine Relation.ReflTransGen.head (.pull hn) ?_
    refine Relation.ReflTransGen.head (.send hcap) ?_
    refine Relation.ReflTransGen.head (.receive (a := a)) ?_
    have := ih (r ++ [a])
    rwa [List.append_assoc, List.singleton_append] at this

/-! ## How a channel comes to its end -/

/-- The producer has stopped, and the consumer has taken everything unless it has left. -/
def Over (s : State π α) : Prop :=
  s.producer = .stopped ∧ (s.closed = false → s.buffer = [])

/-- The messages asked of the iterator and not received yet. -/
def State.ahead (s : State π α) : Nat :=
  s.buffer.length +
    match s.producer with
    | .sending _ _ => 1
    | _ => 0

/-- The steps to come, where the producer has still to offer `rest`: to ask for each message, to
    send it and to receive it, to find that there are no more, and to close. -/
def State.stepsLeft (s : State π α) (rest : List α) : Nat :=
  3 * rest.length + s.buffer.length + (if s.closed then 0 else 1) +
    match s.producer with
    | .pulling _ => 1
    | _ => 0

/-- No more than `k` steps are possible. -/
def CanTake (next : π → Option (α × π)) (s : State π α) (k : Nat) : Prop :=
  ∃ rest, ToCome next s.producer rest ∧ s.stepsLeft rest ≤ k

/-- A step is one of those to come. -/
theorem CanTake.step {s s' : State π α} {k : Nat} (h : CanTake next s k)
    (hstep : Step cap next s s') : ∃ j < k, CanTake next s' j := by
  obtain ⟨rest, hcome, hk⟩ := h
  suffices hless : ∃ rest', ToCome next s'.producer rest' ∧ s'.stepsLeft rest' < s.stepsLeft rest by
    obtain ⟨rest', hcome', hlt⟩ := hless
    exact ⟨s'.stepsLeft rest', by omega, rest', hcome', Nat.le_refl _⟩
  cases hstep with
  | @pull p a p' b r c hn =>
    -- one step less for the producer, which now holds a message
    cases hcome with
    | done hn' => rw [hn] at hn'; nomatch hn'
    | @more _ a' p'' l hn' hl =>
      rw [hn] at hn'
      obtain ⟨rfl, rfl⟩ := Prod.mk.inj (Option.some.inj hn')
      exact ⟨a :: l, ⟨l, rfl, hl⟩, by simp [State.stepsLeft]⟩
  | @finish p b r c hn =>
    refine ⟨[], rfl, ?_⟩
    simp only [State.stepsLeft, List.length_nil]
    omega
  | @send a p b r hroom =>
    -- a message to send becomes one to receive
    obtain ⟨l, rfl, hl⟩ := hcome
    refine ⟨l, hl, ?_⟩
    simp only [State.stepsLeft, List.length_append, List.length_cons, List.length_nil]
    omega
  | @refused a p b r =>
    obtain ⟨l, rfl, hl⟩ := hcome
    refine ⟨[], rfl, ?_⟩
    simp only [State.stepsLeft, List.length_cons, List.length_nil]
    omega
  | @receive q a b r c =>
    refine ⟨rest, hcome, ?_⟩
    simp only [State.stepsLeft, List.length_cons]
    omega
  | @close q b r => exact ⟨rest, hcome, by simp [State.stepsLeft]⟩

/-- At the start it is three steps for each message, one for the end and one for closing. -/
theorem CanTake.start {p : π} {all : List α} (h : Emits next p all) (closed : Bool) :
    CanTake next { Chan.start p with closed } (3 * all.length + (if closed then 0 else 1) + 1) :=
  ⟨all, h, by simp [State.stepsLeft, Chan.start]⟩

/-- The two ends never wait for each other: until the channel is over, one of them can go on
    without the consumer leaving. -/
theorem exists_step (hcap : 0 < cap) {s : State π α} (h : ¬ Over s) :
    ∃ s', Step cap next s s' ∧ s'.closed = s.closed := by
  obtain ⟨producer, buffer, received, closed⟩ := s
  cases producer with
  | pulling p =>
    cases hn : next p with
    | none => exact ⟨_, .finish hn, rfl⟩
    | some ap => exact ⟨_, .pull hn, rfl⟩
  | sending a p =>
    cases closed with
    | true => exact ⟨_, .refused, rfl⟩
    | false =>
      by_cases hroom : buffer.length < cap
      · exact ⟨_, .send hroom, rfl⟩
      · -- a full buffer has a message to receive
        have hfull : cap ≤ buffer.length := Nat.le_of_not_lt hroom
        obtain ⟨b, bs, rfl⟩ := List.exists_cons_of_length_pos (Nat.lt_of_lt_of_le hcap hfull)
        exact ⟨_, .receive, rfl⟩
  | stopped =>
    cases buffer with
    | nil => exact absurd ⟨rfl, fun _ => rfl⟩ h
    | cons b bs => exact ⟨_, .receive, rfl⟩

/-- A step changes the channel. -/
theorem Step.ne {s s' : State π α} (h : Step cap next s s') : s' ≠ s := by
  cases h with
  | pull hn => simp
  | finish hn => simp
  | send hroom => simp
  | refused => simp
  | receive => simp
  | close => simp

/-- The buffer stays within its capacity. -/
theorem buffer_le_step {s s' : State π α} (h : s.buffer.length ≤ cap) (hstep : Step cap next s s') :
    s'.buffer.length ≤ cap := by
  cases hstep with
  | pull hn => exact h
  | finish hn => exact h
  | send hroom =>
    rw [List.length_append]
    exact hroom
  | refused => exact h
  | receive => exact Nat.le_of_succ_le h
  | close => exact h

/-- The producer is ahead of the consumer by the buffer and the message in its hand at most. -/
theorem ahead_le {s : State π α} (h : s.buffer.length ≤ cap) : s.ahead ≤ cap + 1 := by
  obtain ⟨producer, buffer, received, closed⟩ := s
  cases producer with
  | sending a p => exact Nat.add_le_add_right h 1
  | pulling p => exact Nat.le_succ_of_le h
  | stopped => exact Nat.le_succ_of_le h

/-! ## Iterators -/

/-- What an iterator produces is determined. -/
theorem Emits.unique {next : π → Option (α × π)} {p : π} {l l' : List α} (h : Emits next p l)
    (h' : Emits next p l') : l = l' := by
  induction h generalizing l' with
  | done hend =>
    cases h' with
    | done _ => rfl
    | more hn _ =>
      rw [hend] at hn
      cases hn
  | more hn _ ih =>
    cases h' with
    | done hend =>
      rw [hn] at hend
      cases hend
    | more hn' hl' =>
      rw [hn] at hn'
      cases hn'
      rw [ih hl']

theorem ofNext_eq_some {next : π → Option α × π} {p p' : π} {a : α} :
    ofNext next p = some (a, p') ↔ next p = (some a, p') := by
  unfold ofNext
  rcases next p with ⟨_ | b, q⟩ <;> simp

theorem ofNext_eq_none {next : π → Option α × π} {p : π} :
    ofNext next p = none ↔ (next p).1 = none := by
  unfold ofNext
  rcases next p with ⟨_ | b, q⟩ <;> simp

/-- The `i`-th message of the iterator is what its `i`-th call answers. -/
theorem Emits.answer {next : π → Option α × π} {p : π} {l : List α} (h : Emits (ofNext next) p l)
    {i : Nat} (hi : i < l.length) : (next ((fun p => (next p).2)^[i] p)).1 = some l[i] := by
  induction h generalizing i with
  | done h => simp at hi
  | @more p a p' l hn hl ih =>
    have hnext : next p = (some a, p') := ofNext_eq_some.mp hn
    cases i with
    | zero =>
      show (next p).1 = some a
      rw [hnext]
    | succ i =>
      have hi' : i < l.length := by simpa using hi
      rw [Function.iterate_succ_apply, hnext]
      exact ih hi'

/-- An iterator that numbers the answers of another one, from `n` on, in machine words. -/
theorem Emits.numbered {ρ β : Type} {next : π → Option α × π} {counted : ρ → Option β × ρ}
    (mk : π → UInt32 → ρ) (f : UInt32 → α → β)
    (hmore : ∀ p a p' n, next p = (some a, p') → counted (mk p n) = (some (f n a), mk p' (n + 1)))
    (hdone : ∀ p n, (next p).1 = none → (counted (mk p n)).1 = none)
    {p : π} {l : List α} (h : Emits (ofNext next) p l) (n : UInt32) :
    Emits (ofNext counted) (mk p n) (l.mapIdx fun i a => f (n + UInt32.ofNat i) a) := by
  induction h generalizing n with
  | done hend => exact .done (ofNext_eq_none.mpr (hdone _ n (ofNext_eq_none.mp hend)))
  | @more p a p' l hn hl ih =>
    have hzero : n + UInt32.ofNat 0 = n := UInt32.add_zero n
    -- the tail is numbered from the next number
    have hshift : (fun i a => f (n + UInt32.ofNat (i + 1)) a)
        = fun i a => f (n + 1 + UInt32.ofNat i) a := by
      funext i a
      rw [Nat.add_comm, UInt32.ofNat_add, ← UInt32.add_assoc]
      rfl
    rw [List.mapIdx_cons, hzero, hshift]
    exact .more (ofNext_eq_some.mpr (hmore p a p' n (ofNext_eq_some.mp hn))) (ih (n + 1))

end Chan
