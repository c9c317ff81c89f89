/-
  STREAMS COME TO THEIR END: the liveness side of the server.

  A stream has a number of steps of its own: the turns of its call at the cache, the start of its
  task, and what the two ends of its channel do.  Each of them lowers a bound
  (`StreamCanTake`), steps of other calls and streams leave the bound alone, and until the
  stream is over one of its own steps is possible without its client leaving.  So a stream that
  gets its turns ends, after a number of them that only depends on how many messages it has.

  Back pressure: a task is never more than the buffer of its channel and one message ahead of its
  client.

  `canTake_of_not_moved` is the rely side of the argument: nobody else's step takes anything from
  the bound, so it does not matter how the steps are interleaved.  `exists_stream_step` is the
  other side: a stream that is not over is never stuck, since its call can have a turn, or its
  task can start, or one of the two ends of its channel can go on.
-/
import Mathlib.Data.Nat.Count
import PpService.Server

namespace PpService

open Chan (Emits)
open Proto (BeatmapSource)
open Threads (Sys Run StepAt)

variable {Map Mods GD GP : Type} (rosu : RosuPp Map Mods GD GP)
variable {ι κ : Type} [DecidableEq ι] [DecidableEq κ]

/-! ## The steps of a stream -/

namespace Channel

/-- The client has left. -/
def closed : Channel GD GP → Bool
  | waiting closed => closed
  | running ch => ch.closed

/-- The task has ended, and the client has taken everything unless it has left. -/
def Over : Channel GD GP → Prop
  | waiting _ => False
  | running ch => Chan.Over ch

/-- The results computed and not received yet. -/
def ahead : Channel GD GP → Nat
  | waiting _ => 0
  | running ch => ch.ahead

end Channel

/-- The step is one of stream `i`: a turn of its call, or a step of its channel. -/
def Moved (i : ι) (s s' : ServerState Map GD GP ι κ) : Prop :=
  s'.calls.threads (.inl i) ≠ s.calls.threads (.inl i) ∨ s'.channels i ≠ s.channels i

/-- A stream of no more than `n` messages can take no more than `k` steps: the turns its call still
    has, one step for the start of its task, and what its channel can still do. -/
def StreamCanTake (n : Nat) (call : Call Map) : Channel GD GP → Nat → Prop
  -- the turns to come, those of the channel from its start, and the start
  | .waiting closed, k => call.turns + (3 * n + (if closed then 0 else 1) + 1) + 1 ≤ k
  | .running ch, k =>
    (∃ loaded, call = .done loaded) ∧
      Chan.CanTake (StreamTask.next (StreamIter.next rosu)) ch k

section

variable {rosu} {streams : ι → Files × StreamRpc} {others : κ → Files × Option BeatmapSource}
  {c : BeatmapCache Map} {s s' : ServerState Map GD GP ι κ} {i : ι} {n k : Nat}

omit [DecidableEq ι] [DecidableEq κ] in
/-- A step of another stream or call. -/
theorem canTake_of_not_moved (hcall : s'.calls.threads (.inl i) = s.calls.threads (.inl i))
    (hchannel : s'.channels i = s.channels i)
    (hk : StreamCanTake rosu n (s.calls.threads (.inl i)) (s.channels i) k) :
    ∃ j ≤ k, StreamCanTake rosu n (s'.calls.threads (.inl i)) (s'.channels i) j ∧
      (Moved i s s' → j < k) := by
  refine ⟨k, le_rfl, by rwa [hcall, hchannel], ?_⟩
  rintro (hmoved | hmoved)
  · -- neither the call nor the channel has changed
    exact absurd hcall hmoved
  · exact absurd hchannel hmoved

/-- A step of the stream is one of those to come: it takes at least one from the bound. -/
theorem ServerStep.canTake (h : ServerStep rosu streams s s')
    (hemits : ∀ loaded, s.calls.threads (.inl i) = .done loaded →
      ∃ all, all.length ≤ n ∧ Emits (StreamTask.next (StreamIter.next rosu))
        (.ofSetup (loaded.bind ((streams i).2.setup rosu))) all)
    (hk : StreamCanTake rosu n (s.calls.threads (.inl i)) (s.channels i) k) :
    ∃ j ≤ k, StreamCanTake rosu n (s'.calls.threads (.inl i)) (s'.channels i) j ∧
      (Moved i s s' → j < k) := by
  cases h with
  | @turn calls j hstep =>
    obtain ⟨c', call', hcall, rfl⟩ := hstep
    by_cases hij : .inl i = j
    · -- a turn of the stream's own call
      subst hij
      have hless := callStep_turns rosu hcall
      cases hch : s.channels i with
      | waiting closed =>
        rw [hch] at hk
        refine ⟨call'.turns + (3 * n + (if closed then 0 else 1) + 1) + 1, ?_, ?_, fun _ => ?_⟩
        · have hle : _ ≤ k := hk
          omega
        · show StreamCanTake rosu n (Function.update s.calls.threads (.inl i) call' (.inl i)) _ _
          rw [Function.update_self]
          exact le_rfl
        · have hle : _ ≤ k := hk
          omega
      | running ch =>
        rw [hch] at hk
        obtain ⟨⟨loaded, hdone⟩, -⟩ := hk
        rw [hdone] at hcall
        cases hcall
    · exact canTake_of_not_moved (Function.update_of_ne hij _ _) rfl hk
  | leave j hj =>
    -- leaving is the one step that the bound has for it
    by_cases hij : i = j
    · subst hij
      rw [hj] at hk
      have hle : _ ≤ k := hk
      simp only [Bool.false_eq_true, if_false] at hle
      refine ⟨k - 1, Nat.sub_le _ _, ?_, fun _ => by omega⟩
      show StreamCanTake rosu n (s.calls.threads (.inl i))
        (Function.update s.channels i (.waiting true) i) _
      rw [Function.update_self]
      show _ + (3 * n + 0 + 1) + 1 ≤ k - 1
      omega
    · exact canTake_of_not_moved rfl (Function.update_of_ne hij _ _) hk
  | @begin j loaded closed hdone hj =>
    by_cases hij : i = j
    · subst hij
      rw [hj] at hk
      obtain ⟨all, hlen, hall⟩ := hemits loaded hdone
      have hle : _ ≤ k := hk
      refine ⟨3 * all.length + (if closed then 0 else 1) + 1, by omega, ?_, fun _ => by omega⟩
      show StreamCanTake rosu n (s.calls.threads (.inl i)) (Function.update s.channels i _ i) _
      rw [Function.update_self]
      exact ⟨⟨loaded, hdone⟩, Chan.CanTake.start hall closed⟩
    · exact canTake_of_not_moved rfl (Function.update_of_ne hij _ _) hk
  | @move j ch ch' hj hstep =>
    by_cases hij : i = j
    · subst hij
      rw [hj] at hk
      obtain ⟨hdone, hcan⟩ := hk
      obtain ⟨m, hm, hcan'⟩ := hcan.step hstep
      refine ⟨m, hm.le, ?_, fun _ => hm⟩
      show StreamCanTake rosu n (s.calls.threads (.inl i)) (Function.update s.channels i _ i) _
      rw [Function.update_self]
      exact ⟨hdone, hcan'⟩
    · exact canTake_of_not_moved rfl (Function.update_of_ne hij _ _) hk

/-- Until it is over, a stream has a step of its own to take that is not its client's leaving: a
    turn of its call, the start of its task, or a step of its channel. -/
theorem exists_stream_step (streams : ι → Files × StreamRpc) (s : ServerState Map GD GP ι κ)
    (hover : ¬ (s.channels i).Over) :
    ∃ s', ServerStep rosu streams s s' ∧ Moved i s s' ∧
      (s'.channels i).closed = (s.channels i).closed := by
  cases hch : s.channels i with
  | waiting closed =>
    cases hcall : callStep rosu s.calls.shared (s.calls.threads (.inl i)) with
    | none =>
      -- the call has ended: the task can start
      obtain ⟨loaded, hdone⟩ := done_of_turns_zero (turns_of_stuck rosu hcall)
      refine ⟨_, .begin i hdone hch, Or.inr ?_, ?_⟩
      · show Function.update s.channels i _ i ≠ _
        rw [Function.update_self, hch]
        exact nofun
      · show (Function.update s.channels i _ i).closed = _
        rw [Function.update_self]
        rfl
    | some next =>
      obtain ⟨c', call'⟩ := next
      refine ⟨_, .turn (.inl i) ⟨c', call', hcall, rfl⟩, Or.inl ?_, congrArg Channel.closed hch⟩
      show Function.update s.calls.threads (.inl i) call' (.inl i) ≠ _
      rw [Function.update_self]
      exact fun heq => (callStep_turns rosu hcall).ne (congrArg Call.turns heq)
  | running ch =>
    rw [hch] at hover
    have hgoes : ∃ ch', Chan.Step channelCapacity (StreamTask.next (StreamIter.next rosu)) ch ch' ∧
        ch'.closed = ch.closed := Chan.exists_step (by decide) hover
    obtain ⟨ch', hstep, hclosed⟩ := hgoes
    refine ⟨_, .move i hch hstep, Or.inr ?_, ?_⟩
    · show Function.update s.channels i _ i ≠ _
      rw [Function.update_self, hch]
      exact fun heq => hstep.ne (Channel.running.inj heq)
    · show (Function.update s.channels i _ i).closed = _
      rw [Function.update_self]
      exact hclosed

/-- The buffers of all streams stay within their capacity: a send waits while one is full. -/
def BuffersFit (s : ServerState Map GD GP ι κ) : Prop :=
  ∀ i ch, s.channels i = .running ch → ch.buffer.length ≤ channelCapacity

/-- One step keeps them there. -/
theorem ServerStep.buffersFit (h : ServerStep rosu streams s s') (hfit : BuffersFit s) :
    BuffersFit s' := by
  -- a step of channel `j` leaves the others as they are
  have hupdate : ∀ (j : ι) (channel : Channel GD GP),
      (∀ ch, channel = .running ch → ch.buffer.length ≤ channelCapacity) →
      BuffersFit ⟨s.calls, Function.update s.channels j channel⟩ := by
    intro j channel hchannel i ch hch
    change Function.update s.channels j channel i = _ at hch
    by_cases hij : i = j
    · subst hij
      rw [Function.update_self] at hch
      exact hchannel ch hch
    · rw [Function.update_of_ne hij] at hch
      exact hfit i ch hch
  cases h with
  | turn j hstep => exact hfit
  | leave j hj =>
    refine hupdate j (.waiting true) fun ch hch => ?_
    cases hch
  | @begin j loaded closed hdone hj =>
    refine hupdate j (.running _) fun ch hch => ?_
    rw [← Channel.running.inj hch]
    exact Nat.zero_le _
  | @move j ch₁ ch₂ hj hstep =>
    refine hupdate j (.running ch₂) fun ch hch => ?_
    rw [← Channel.running.inj hch]
    exact Chan.buffer_le_step (hfit j ch₁ hj) hstep

theorem ServerRun.buffersFit (h : ServerRun rosu streams (serverOn c streams others) s) :
    BuffersFit s := by
  induction h with
  | refl =>
    intro i ch hch
    cases hch
  | tail _ hlast ih => exact hlast.buffersFit ih

/-- Steps one after another are a run, and every run is made of them. -/
theorem serverRun_iff_steps {s₀ : ServerState Map GD GP ι κ} :
    ServerRun rosu streams s₀ s ↔ ∃ (run : Nat → ServerState Map GD GP ι κ) (k : Nat),
      run 0 = s₀ ∧ run k = s ∧ ∀ t < k, ServerStep rosu streams (run t) (run (t + 1)) := by
  constructor
  · -- number the steps of the run
    intro h
    induction h with
    | refl => exact ⟨fun _ => s₀, 0, rfl, rfl, nofun⟩
    | @tail s₁ s₂ _ hlast ih =>
      obtain ⟨run, k, rfl, rfl, hsteps⟩ := ih
      refine ⟨fun t => if t ≤ k then run t else s₂, k + 1, by simp, by simp, fun t ht => ?_⟩
      rcases Nat.lt_succ_iff_lt_or_eq.mp ht with hlt | rfl
      · simpa [hlt.le, Nat.succ_le_of_lt hlt] using hsteps t hlt
      · simpa using hlast
  · -- and put numbered steps together
    rintro ⟨run, k, rfl, rfl, hsteps⟩
    induction k with
    | zero => exact Relation.ReflTransGen.refl
    | succ k ih =>
      exact (ih fun t ht => hsteps t (Nat.lt_succ_of_lt ht)).tail (hsteps k (Nat.lt_succ_self k))

/-- What a stream sends once its call has ended: its own messages, or the one of a beatmap evicted
    in between. -/
theorem emits_of_done {sent : ByteArray → Prop} (hids : IdsDecide rosu sent)
    (hreach : Reachable rosu sent c)
    (hcarried : ∀ bytes, CarriedBy (streamLoads streams others) bytes → sent bytes) {size : Nat}
    {messages : List (Except Status StreamItem)}
    (hmessages : Emits (StreamTask.next (StreamIter.next rosu))
      (.ofSetup ((streams i).2.alone rosu (streams i).1 size)) messages)
    (hrun : ServerRun rosu streams (serverOn c streams others) s) {loaded : Except Error Map}
    (hdone : s.calls.threads (.inl i) = .done loaded) :
    ∃ all, all.length ≤ max messages.length 1 ∧
      Emits (StreamTask.next (StreamIter.next rosu))
        (.ofSetup (loaded.bind ((streams i).2.setup rosu))) all := by
  have htrack := (onTrack_run rosu hids hcarried (hreach.coherent hids) hrun.follows.1).2 (.inl i)
  rw [hdone] at htrack
  rcases htrack with heq | ⟨hmissing, -⟩
  · -- its own result
    subst heq
    rw [StreamRpc.alone_eq_setup] at hmessages
    exact ⟨messages, le_max_left _ _, hmessages⟩
  · -- the error: one message, which is why the bound has at least one
    subst hmissing
    exact ⟨[.error Error.missingBeatmap.toStatus], le_max_right _ _, emits_failed _ _⟩

open scoped Classical in
/-- The steps a stream has taken and those to come: together they stay below the bound it started
    with, whatever the others do. -/
theorem count_moved_add_le {run : Nat → ServerState Map GD GP ι κ} {bound : Nat}
    (hsteps : ∀ t < k, ServerStep rosu streams (run t) (run (t + 1)))
    (hemits : ∀ t < k, ∀ loaded, (run t).calls.threads (.inl i) = .done loaded →
      ∃ all, all.length ≤ n ∧ Emits (StreamTask.next (StreamIter.next rosu))
        (.ofSetup (loaded.bind ((streams i).2.setup rosu))) all)
    (hstart : StreamCanTake rosu n ((run 0).calls.threads (.inl i)) ((run 0).channels i) bound) :
    ∃ j, StreamCanTake rosu n ((run k).calls.threads (.inl i)) ((run k).channels i) j ∧
      Nat.count (fun t => Moved i (run t) (run (t + 1))) k + j ≤ bound := by
  induction k with
  | zero => exact ⟨bound, hstart, by simp⟩
  | succ k ih =>
    obtain ⟨j, hj, hle⟩ := ih (fun t ht => hsteps t (Nat.lt_succ_of_lt ht))
      fun t ht => hemits t (Nat.lt_succ_of_lt ht)
    obtain ⟨j', hj', hcan, hmoved⟩ := (hsteps k (Nat.lt_succ_self k)).canTake
      (hemits k (Nat.lt_succ_self k)) hj
    refine ⟨j', hcan, ?_⟩
    rw [Nat.count_succ]
    split_ifs with hm
    · -- a step of the stream, which lowers the bound
      have hless := hmoved hm
      omega
    · -- a step of another one, which leaves it
      omega

end

/-! ## Every stream ends -/

open scoped Classical in
/-- **Streams come to their end.**  `sent` are the bytes of all calls and of those that filled the
    cache, and bytes in it that have the same id parse alike; so a stream has the messages it has
    alone, say `n`.  However the turns of all calls and the two ends of all channels are
    interleaved, it takes at most `3 max(n, 1) + 7` steps; until it is over, one of its own steps
    is possible without its client leaving; and its task is never more than 129 results ahead of
    the client. -/
theorem streams_come_to_their_end {sent : ByteArray → Prop} {streams : ι → Files × StreamRpc}
    {others : κ → Files × Option BeatmapSource} {c : BeatmapCache Map}
    (hids : IdsDecide rosu sent) (hreach : Reachable rosu sent c)
    (hcarried : ∀ bytes, CarriedBy (streamLoads streams others) bytes → sent bytes) (size : Nat)
    (i : ι) {messages : List (Except Status StreamItem)}
    (hmessages : Emits (StreamTask.next (StreamIter.next rosu))
      (.ofSetup ((streams i).2.alone rosu (streams i).1 size)) messages)
    {run : Nat → ServerState Map GD GP ι κ} (hstart : run 0 = serverOn c streams others) {k : Nat}
    (hsteps : ∀ t < k, ServerStep rosu streams (run t) (run (t + 1))) :
    Nat.count (fun t => Moved i (run t) (run (t + 1))) k ≤ 3 * max messages.length 1 + 7 ∧
    (¬ ((run k).channels i).Over →
      ∃ s', ServerStep rosu streams (run k) s' ∧ Moved i (run k) s' ∧
        (s'.channels i).closed = ((run k).channels i).closed) ∧
    ((run k).channels i).ahead ≤ 129 := by
  have hruns : ∀ t ≤ k, ServerRun rosu streams (serverOn c streams others) (run t) := by
    intro t ht
    rw [← hstart]
    exact serverRun_iff_steps.mpr ⟨run, t, rfl, rfl, fun t' ht' => hsteps t' (ht'.trans_le ht)⟩
  have hturns : (Call.ofRequest (streams i).1 (streams i).2.source : Call Map).turns ≤ 4 :=
    turns_ofRequest_le _ _
  -- four turns, one step for the start, and three for each message and two more for the channel
  have hfirst : StreamCanTake rosu (max messages.length 1) ((run 0).calls.threads (.inl i))
      ((run 0).channels i) (3 * max messages.length 1 + 7) := by
    rw [hstart]
    show (Call.ofRequest (streams i).1 (streams i).2.source : Call Map).turns +
      (3 * max messages.length 1 + 1 + 1) + 1 ≤ 3 * max messages.length 1 + 7
    omega
  obtain ⟨j, -, hle⟩ := count_moved_add_le hsteps (fun t ht loaded hdone =>
    emits_of_done hids hreach hcarried hmessages (hruns t ht.le) hdone) hfirst
  refine ⟨by omega, exists_stream_step streams (run k), ?_⟩
  have hfit := (hruns k le_rfl).buffersFit
  cases hch : (run k).channels i with
  | waiting closed => exact Nat.zero_le _
  | running ch => exact Chan.ahead_le (hfit i ch hch)

open scoped Classical in
/-- The theorem at two streams, of one message and of two, whose calls take turns with another
    call: both come to their end. -/
theorem twoStreams_come_to_their_end :
    ∃ (run : Nat → ServerState ByteArray (List DifficultyAttributes) (List PerformanceAttributes)
        Bool Unit) (k : Nat), run 0 = serverOn (.new 3) twoStreams bystander ∧
      (∀ t < k, ServerStep RosuPp.perSong twoStreams (run t) (run (t + 1))) ∧
      ∀ second, ((run k).channels second).Over ∧
        Nat.count (fun t => Moved second (run t) (run (t + 1))) k
          ≤ 3 * max (twoStreamsItems second).length 1 + 7 := by
  obtain ⟨s, hrun, hch⟩ := twoStreams_run
  obtain ⟨run, k, hstart, rfl, hsteps⟩ := serverRun_iff_steps.mp hrun
  refine ⟨run, k, hstart, hsteps, fun second => ⟨?_, ?_⟩⟩
  · rw [hch second]
    exact ⟨rfl, fun _ => rfl⟩
  · have hmessages := emits_twoStreams second
    refine (streams_come_to_their_end RosuPp.perSong idsDecide_songs (reachable_new _ 3)
      (fun _ hb => carried_twoStreams hb) 1 second ?_ hstart hsteps).1
    rw [StreamRpc.alone_eq_setup]
    exact hmessages

end PpService
